import Classpath.Store.ClassArchive
import Classpath.Store.ModuleImage
import Classpath.Proofs.Store.FileTree
import Classpath.Proofs.StoredName

/-!
# What is listed and what is found

A location answers in two ways for a class: it lists every class that it has, and it looks up one.
Listing goes from names to types and looking up from a type to a name, so the two agree on a type if
nothing is read as the type but what has its name, and if what has its name is among what is listed.
The first is a matter of how things are called: what is read as the type and has a plain name has the
name of the type, and nothing else has. The second can only fail where there is something under the
name of the type: its name may have empty pieces, a link may lead there, and an archive may keep it
as its own.

* `Classpath.Location.first?` – the first source of a type in a listing.
* `Classpath.find?_filterMap_map` – reading names against looking one up.
* `Classpath.KeptBelow`, `Classpath.Location.find_ofDirectory` – directories.
* `Classpath.KeptIn`, `Classpath.Location.find_ofArchive` – archives.
-/

namespace Classpath

variable {t : ClassType} {ids : Naming} {m : Option ModuleName}

namespace Location

variable {σ : Type}

/-- Everything that a location lists, in order. -/
def listed (l : Location σ) (ids : Naming) (w : σ) : List (Except LocationError (Source σ)) :=
  match l.list ids w with
  | (.ok parts, w) => (Listing.entries parts w).1
  | (.error e, _) => [.error e]

/-- The first source of a type among what is listed. -/
def firstOf (t : ClassType) (entries : List (Except LocationError (Source σ))) :
    Option (Source σ) :=
  (entries.filterMap Except.toOption).find? (·.type = t)

theorem firstOf_append (t : ClassType) (a b : List (Except LocationError (Source σ))) :
    firstOf t (a ++ b) = (firstOf t a).or (firstOf t b) := by
  rw [firstOf, List.filterMap_append, List.find?_append]
  rfl

/-- **The first source of a type that a location lists**, if it lists one. -/
def first? (l : Location σ) (ids : Naming) (t : ClassType) (w : σ) : Option (Source σ) :=
  firstOf t (l.listed ids w)

end Location

/-! ### Names read as types -/

/-- **Reading names as types and looking up the name of a type.** -/
theorem find?_filterMap_map {α β : Type} [BEq α] [LawfulBEq α] (read : α → Option ClassType)
    (make : ClassType → α → β) {type : β → ClassType} (htype : ∀ t a, type (make t a) = t)
    {item : α} {items : List α} (hread : item ∈ items → read item = some t)
    (hunique : ∀ a ∈ items, read a = some t → a = item) :
    (items.filterMap fun a => (read a).map fun t => make t a).find? (type · = t) =
      if item ∈ items then some (make t item) else none := by
  induction items with
  | nil => simp
  | cons a items ih =>
    obtain ⟨ha, hrest⟩ := List.forall_mem_cons.mp hunique
    have ih := ih (fun h => hread (List.mem_cons_of_mem _ h)) hrest
    -- what is not read as the type is not `item`, so it changes neither side
    have hother : read a ≠ some t → a ≠ item := by
      rintro hne rfl
      exact hne (hread (by simp))
    rcases hr : read a with _ | u
    · have hne := hother (by simp [hr])
      rw [List.filterMap_cons_none (by simp [hr]), ih]
      simp [Ne.symm hne]
    · rw [List.filterMap_cons_some (by rw [hr]; rfl)]
      by_cases hu : u = t
      · subst hu
        rw [List.find?_cons_of_pos (by simp [htype]), ha hr]
        simp
      · have hne := hother (by simp [hr, hu])
        rw [List.find?_cons_of_neg (by simpa [htype] using hu), ih]
        simp [Ne.symm hne]

/-- What a module cannot store is not found among what it stores. -/
theorem find?_eq_none_of_places {α : Type} {found : List (ClassType × α)}
    (h : ∀ e ∈ found, ids.Places m e.1 ∧ isDescriptorName e.1.name = false)
    (ht : ids.Places m t → isDescriptorName t.name = true) : found.find? (·.1 = t) = none := by
  rw [List.find?_eq_none]
  intro e he
  rw [decide_eq_true_eq]
  rintro rfl
  obtain ⟨hplaces, hclass⟩ := h e he
  rw [ht hplaces] at hclass
  cases hclass

/-- The first source of a type among classes whose places are known. -/
theorem firstOf_map_source {α : Type} (frontend : Frontend) (sourceType : SourceType)
    (place : α → StoredClass) (found : List (ClassType × α)) :
    Location.firstOf t (found.map fun e => .ok ((place e.2).source frontend sourceType e.1)) =
      (found.find? (·.1 = t)).map fun e => (place e.2).source frontend sourceType e.1 := by
  have hok : (found.map fun e => (.ok ((place e.2).source frontend sourceType e.1) :
      Except LocationError (Source World))).filterMap Except.toOption =
      found.map fun e => (place e.2).source frontend sourceType e.1 := by
    rw [List.filterMap_map, ← List.filterMap_eq_map]
    rfl
  rw [Location.firstOf, hok, List.find?_map]
  rfl

/-! ### Extensions and paths -/

namespace Frontend

variable (frontend : Frontend)

theorem dotless_extension : '.' ∉ frontend.extension.toList := by
  cases frontend <;> decide

theorem slashless_extension : '/' ∉ frontend.extension.toList := by
  cases frontend <;> decide

/-- What ends with an extension is no directory of an archive. -/
theorem isDirectoryName_append (s : String) :
    ArchiveDirectory.isDirectoryName (s ++ frontend.extension) = false := by
  have hlast : (s ++ frontend.extension).toList.getLast? =
      frontend.extension.toList.getLast? := by
    have hne : frontend.extension.toList ≠ [] := by cases frontend <;> decide
    rw [String.toList_append, List.getLast?_append_of_ne_nil _ hne]
  rw [ArchiveDirectory.isDirectoryName, hlast]
  cases frontend <;> rfl

end Frontend

/-- The path of a class consists of plain names. -/
theorem isPlainName_of_mem {extension : String} (ht : '/' ∉ t.name.toList) (hs : t.IsSegmented)
    (hslash : '/' ∉ extension.toList) :
    ∀ name ∈ FileTree.names ⟨t.relativePath extension⟩, FileTree.IsPlainName name := by
  obtain ⟨init, last, -, hpieces, hsegments⟩ := ClassType.exists_segments ht hs hslash
  have hplain : ∀ piece : List Char, piece ≠ [] → piece ≠ ['.'] → piece ≠ ['.', '.'] →
      FileTree.IsPlainName (String.ofList piece) := by
    intro piece hne hdot hdots
    refine ⟨fun h => hne ?_, fun h => hdot ?_, fun h => hdots ?_⟩ <;>
      simpa using congrArg String.toList h
  intro name hname
  rw [FileTree.names, hsegments] at hname
  obtain ⟨piece, hpiece, rfl⟩ := List.mem_map.mp hname
  rcases List.mem_append.mp hpiece with hinit | hlast
  · have hpiece := hpieces piece (List.mem_append_left _ hinit)
    exact hplain piece hpiece.nonempty (Path.ne_of_dot_mem hpiece.dotless (by simp))
      (Path.ne_of_dot_mem hpiece.dotless (by simp))
  · rw [List.mem_singleton] at hlast
    have hpiece := hpieces last (by simp)
    obtain ⟨c, tail, rfl⟩ := List.exists_cons_of_ne_nil hpiece.nonempty
    have hc : c ≠ '.' := by
      rintro rfl
      exact hpiece.dotless (by simp)
    subst hlast
    exact hplain _ (by simp) (by simp [hc]) (by simp [hc])

theorem intercalate_names (p : Path) : "/".intercalate (FileTree.names p) = p.text := by
  refine String.toList_inj.mp ?_
  rw [String.toList_intercalate, FileTree.names, List.map_map]
  have hid : (String.toList ∘ String.ofList : List Char → List Char) = id := by
    funext piece
    simp
  rw [hid, List.map_id, Path.segments]
  exact List.intercalate_splitOn '/'

theorem names_intercalate {key : Key} (hne : key ≠ []) (h : ∀ name ∈ key, '/' ∉ name.toList) :
    FileTree.names ⟨"/".intercalate key⟩ = key := by
  have hpieces : ∀ piece ∈ key.map String.toList, '/' ∉ piece := by
    simpa using h
  rw [FileTree.names, Path.segments, String.toList_intercalate]
  have hsplit := List.splitOn_intercalate '/' hpieces (by simpa using hne)
  have hid : (String.ofList ∘ String.toList : String → String) = id := by
    funext name
    simp
  have hsep : "/".toList = ['/'] := rfl
  rw [hsep, hsplit, List.map_map, hid, List.map_id]

/-- A name without its extension. -/
theorem isSuffixOf?_extension (stem extension : String) :
    ("." ++ extension).toList.isSuffixOf? (stem ++ "." ++ extension).toList = some stem.toList := by
  have happend : (stem ++ "." ++ extension).toList = stem.toList ++ ("." ++ extension).toList := by
    rw [String.append_assoc, String.toList_append]
  rw [happend, isSuffixOf?_append]

/-! ### Directories -/

/-- The names that a walk lists are names of entries. -/
theorem FileTree.WellFormed.plain_of_mem_walk {files : FileTree} {root : Path} {key : Key}
    {keys : List Key} (hw : files.WellFormed) (hwalk : files.walk root = .ok keys)
    (hkey : key ∈ keys) :
    key ≠ [] ∧ ∀ name ∈ key, FileTree.IsPlainName name ∧ '/' ∉ name.toList := by
  obtain ⟨dir, -, ⟨-, rfl⟩ | ⟨-, rfl⟩⟩ := FileTree.walk_eq_ok hwalk
  · obtain ⟨hne, contents, executable, hnode⟩ := FileTree.mem_filesBelow.mp hkey
    refine ⟨hne, fun name hname => ?_⟩
    obtain ⟨hplain, hslash, -⟩ := hw.named _ hnode name (List.mem_append_right _ hname)
    exact ⟨hplain, hslash⟩
  · cases hkey

/-- **A directory in which a class can only be where it belongs.** It can be walked, and files that
are read as the class have plain names. If there is a file at the place of the class, then the name
of the class has no empty pieces, for which there are no directories, no link leads there, and its
path is not too long to be followed. -/
structure KeptBelow (files : FileTree) (root : Path) (extension : String) (ids : Naming)
    (m : Option ModuleName) (t : ClassType) (keys : List Key) : Prop where
  walked : files.walk root = .ok keys
  plain : ∀ key ∈ keys, ids.ofPath? ⟨"/".intercalate key⟩ extension m = some t →
    ∃ stem, "/".intercalate key = stem ++ "." ++ extension ∧ IsFileStem stem.toList
  segmented : files.isFile (root.join ⟨t.relativePath extension⟩) = true → t.IsSegmented
  unlinked : files.isFile (root.join ⟨t.relativePath extension⟩) = true →
    ∀ key, files.locate .target root = .ok key →
      files.Unlinked key (FileTree.names ⟨t.relativePath extension⟩)
  fits : FileTree.names ⟨t.relativePath extension⟩ ∈ keys →
    (root.join ⟨t.relativePath extension⟩).text.utf8ByteSize ≤ FileTree.maxPath

/-- **A directory of classes in which a class can only be where it belongs.** -/
def KeptInDirectory (files : FileTree) (root : Path) (extension : String) (ids : Naming)
    (t : ClassType) : Prop :=
  ∃ keys, KeptBelow files root extension ids none t keys

section Directories

variable {files : FileTree} {root : Path} {extension : String} {keys : List Key} {key : Key}

/-- **What is read as a class is where it belongs**, if it has a plain name. -/
theorem KeptBelow.placed (hw : files.WellFormed) (hdot : '.' ∉ extension.toList)
    (hslash : '/' ∉ extension.toList) (hkept : KeptBelow files root extension ids m t keys)
    (hkey : key ∈ keys) (hread : ids.ofPath? ⟨"/".intercalate key⟩ extension m = some t) :
    key = FileTree.names ⟨t.relativePath extension⟩ := by
  obtain ⟨hne, hnames⟩ := hw.plain_of_mem_walk hkept.walked hkey
  have hkeys := names_intercalate hne fun name hname => (hnames name hname).2
  have hvoid : ∀ piece ∈ (⟨"/".intercalate key⟩ : Path).segments, Path.isVoid piece = false := by
    intro piece hpiece
    have hmem : String.ofList piece ∈ key := by
      rw [← hkeys]
      exact List.mem_map_of_mem hpiece
    obtain ⟨⟨hempty, hdots, -⟩, -⟩ := hnames _ hmem
    refine Path.isVoid_of_ne (fun h => hempty ?_) fun h => hdots ?_ <;> rw [h]
  obtain ⟨hown, -⟩ := Naming.eq_relativePath_iff hdot hslash hvoid hread
  rw [← hown.mpr (hkept.plain key hkey hread), hkeys]

/-- **The files found below a directory in which a class is where it belongs are those listed.** -/
theorem KeptBelow.isFile_iff (hw : files.WellFormed) (ht : '/' ∉ t.name.toList)
    (hslash : '/' ∉ extension.toList) (hkept : KeptBelow files root extension ids m t keys) :
    files.isFile (root.join ⟨t.relativePath extension⟩) = true ↔
      FileTree.names ⟨t.relativePath extension⟩ ∈ keys := by
  have hiff := fun hplain =>
    FileTree.isFile_join_iff hw hkept.walked hplain hkept.unlinked hkept.fits
  constructor
  · intro hfile
    exact (hiff (isPlainName_of_mem ht (hkept.segmented hfile) hslash)).mp hfile
  · intro hmem
    obtain ⟨-, hnames⟩ := hw.plain_of_mem_walk hkept.walked hmem
    exact (hiff fun name hname => (hnames name hname).1).mpr hmem

end Directories

/-- **What a walk lists of a class is what is found at its path.** -/
theorem find?_storedClasses {files : FileTree} {root : Path} {frontend : Frontend}
    {keys : List Key} (hw : files.WellFormed) (ht : t.IsNormal)
    (hclass : isDescriptorName t.name = false) (hplaces : ids.Places m t)
    (hkept : KeptBelow files root frontend.extension ids m t keys) :
    ∃ found, storedClasses files root frontend.extension ids m = .ok found ∧
      found.find? (·.1 = t) =
        if files.isFile (root.join ⟨t.relativePath frontend.extension⟩) then
          some (t, root.join ⟨t.relativePath frontend.extension⟩) else none := by
  have hdot := frontend.dotless_extension
  have hslash := frontend.slashless_extension
  have hfile := hkept.isFile_iff hw ht.spelled.slashless hslash
  have hread : FileTree.names ⟨t.relativePath frontend.extension⟩ ∈ keys → ids.ofPath?
      ⟨"/".intercalate (FileTree.names ⟨t.relativePath frontend.extension⟩)⟩
      frontend.extension m = some t := by
    intro hmem
    rw [intercalate_names]
    exact Naming.ofPath?_relativePath ht (hkept.segmented (hfile.mpr hmem)) hclass hplaces hdot
      hslash
  have hstored : storedClasses files root frontend.extension ids m =
      .ok (keys.filterMap fun key => (ids.ofPath? ⟨"/".intercalate key⟩ frontend.extension m).map
        fun t => (t, root.join ⟨"/".intercalate key⟩)) := by
    rw [storedClasses, hkept.walked]
  refine ⟨_, hstored, ?_⟩
  rw [find?_filterMap_map (fun key => ids.ofPath? ⟨"/".intercalate key⟩ frontend.extension m)
    (fun t key => (t, root.join ⟨"/".intercalate key⟩)) (fun _ _ => rfl) hread
    (fun _ hkey => hkept.placed hw hdot hslash hkey), intercalate_names]
  exact if_congr hfile.symm rfl rfl

/-- **What a walk lists belongs to the module of the directory** and is no descriptor. -/
theorem places_of_mem_storedClasses {files : FileTree} {root : Path} {extension : String}
    {found : List (ClassType × Path)} (h : storedClasses files root extension ids m = .ok found)
    {e : ClassType × Path} (he : e ∈ found) :
    ids.Places m e.1 ∧ isDescriptorName e.1.name = false := by
  rw [storedClasses] at h
  split at h
  · cases h
  · rw [← Except.ok.inj h] at he
    obtain ⟨key, -, hkey⟩ := List.mem_filterMap.mp he
    obtain ⟨u, hu, rfl⟩ := Option.map_eq_some_iff.mp hkey
    rw [Naming.ofPath?] at hu
    split_ifs at hu
    exact Naming.ofEntryName?_eq_some hu

namespace Location

variable {frontend : Frontend} {sourceType : SourceType} {w : World}

/-- What a directory finds of a class that may be stored in it. -/
theorem find_ofDirectory_fst {root : Path} (hqualified : t.isQualified = false)
    (hclass : isDescriptorName t.name = false) :
    ((ofDirectory root frontend sourceType).find t w).1 =
      .ok (if w.files.isFile (root.join ⟨t.relativePath frontend.extension⟩) then
        some ((StoredClass.file (root.join ⟨t.relativePath frontend.extension⟩)).source frontend
          sourceType t) else none) := by
  simp only [ofDirectory, findInDirectory, hqualified, hclass, Bool.or_self, Bool.false_eq_true,
    if_false]
  split_ifs <;> rfl

/-- What a directory lists first of a class. -/
theorem first?_ofDirectory {root : Path} {found : List (ClassType × Path)}
    (hfound : storedClasses w.files root frontend.extension ids none = .ok found) :
    (ofDirectory root frontend sourceType).first? ids t w =
      (found.find? (·.1 = t)).map fun e =>
        (StoredClass.file e.2).source frontend sourceType e.1 := by
  rw [← firstOf_map_source]
  simp only [first?, listed, ofDirectory, Listing.entries, listDirectory, hfound, List.append_nil]

/-- **A directory finds what it lists first.** -/
theorem find_ofDirectory {root : Path} (hw : w.files.WellFormed) (ht : t.IsNormal)
    (hplain : t.moduleName = none)
    (hkept : KeptInDirectory w.files root frontend.extension ids t) :
    ((ofDirectory root frontend sourceType).find t w).1 =
      .ok ((ofDirectory root frontend sourceType).first? ids t w) := by
  obtain ⟨keys, hkept⟩ := hkept
  have hplaces : ids.Places none t := by
    rw [Naming.Places, hplain, ite_self]
  have hqualified : t.isQualified = false := by
    rw [ClassType.isQualified, hplain]
    rfl
  rcases hclass : isDescriptorName t.name with _ | _
  · obtain ⟨found, hfound, hfind⟩ := find?_storedClasses hw ht hclass hplaces hkept
    rw [first?_ofDirectory hfound, hfind, find_ofDirectory_fst hqualified hclass]
    split_ifs <;> rfl
  · have hfound : ∃ found, storedClasses w.files root frontend.extension ids none = .ok found :=
      ⟨_, by rw [storedClasses, hkept.walked]⟩
    obtain ⟨found, hfound⟩ := hfound
    rw [first?_ofDirectory hfound, find?_eq_none_of_places
      (fun e he => places_of_mem_storedClasses hfound he) fun _ => hclass]
    simp [ofDirectory, findInDirectory, hclass]

end Location

/-! ### Archives -/

/-- What can be read can be got at. -/
theorem ArchivedFile.reach_of_contents {file : ArchivedFile} {bytes : Bytes}
    (h : file.contents = .ok bytes) : file.reach = .ok () := by
  rcases file with bytes | member
  · rfl
  · rcases hstored : member.stored with fault | data
    · rw [contents, Zip.Member.contents, hstored] at h
      cases h
    · rw [reach, hstored]
      rfl

namespace ArchiveDirectory

variable {d : ArchiveDirectory} {name : String}

theorem isSome_find?_iff : (d.find? name).isSome ↔ name ∈ d.names := by
  rw [find?, List.lookup_isSome_iff, names, List.mem_map]
  constructor
  · rintro ⟨e, he, heq⟩
    exact ⟨e, he, (beq_iff_eq.mp heq).symm⟩
  · rintro ⟨e, he, rfl⟩
    exact ⟨e, he, beq_self_eq_true _⟩

/-- **The data of an entry can be got at**, if there is an entry. -/
def InReach (d : ArchiveDirectory) (name : String) : Prop :=
  ∀ file, d.find? name = some file → file.reach = .ok ()

/-- What is not packed can be got at. -/
theorem inReach_of_plain (h : ∀ e ∈ d.entries, ∃ bytes, e.2 = .plain bytes) : d.InReach name := by
  intro file hfile
  obtain ⟨before, after, hentries, -⟩ := List.lookup_eq_some_iff.mp hfile
  obtain ⟨bytes, hplain⟩ := h (name, file) (by simp [hentries])
  rw [show file = .plain bytes from hplain]
  rfl

end ArchiveDirectory

namespace Archive

variable {a : Archive} {w : World} {d : ArchiveDirectory} {name : String}

/-- What an archive says that can be opened. -/
theorem ask_fst {α : Type} (h : (a.opened w).1 = .ok d) (f : ArchiveDirectory → Except Zip.Fault α) :
    (a.ask f w).1 = (f d).mapError (failure a.path) :=
  congrArg (fun answer => Except.bind answer fun d => (f d).mapError (failure a.path)) h

theorem names_fst (h : (a.opened w).1 = .ok d) : (a.names w).1 = .ok d.names :=
  ask_fst h _

/-- An archive that answers was opened. -/
theorem exists_of_ask {α : Type} {f : ArchiveDirectory → Except Zip.Fault α} {answer : α}
    (h : (a.ask f w).1 = .ok answer) : ∃ d, (a.opened w).1 = .ok d ∧ f d = .ok answer := by
  rcases hopened : (a.opened w).1 with fault | d
  · have hfault : (a.ask f w).1 = .error fault :=
      congrArg (fun answer => Except.bind answer fun d => (f d).mapError (failure a.path)) hopened
    rw [hfault] at h
    cases h
  · refine ⟨d, rfl, ?_⟩
    rw [ask_fst hopened] at h
    rcases hf : f d with fault | answer'
    · rw [hf] at h
      cases h
    · rw [hf] at h
      exact congrArg Except.ok (Except.ok.inj h)

/-- An archive holds what its directory lists. -/
theorem contains_fst (h : (a.opened w).1 = .ok d) (hreach : d.InReach name)
    (hfile : ArchiveDirectory.isDirectoryName name = false) :
    (a.contains name w).1 = .ok (d.find? name).isSome := by
  rw [contains, ask_fst h]
  rcases hfind : d.find? name with _ | file
  · rfl
  · simp only [hreach file hfind, hfile]
    rfl

theorem isSome_of_contains (h : (a.contains name w).1 = .ok true) :
    ∃ d, (a.opened w).1 = .ok d ∧ (d.find? name).isSome := by
  obtain ⟨d, hopened, hheld⟩ := exists_of_ask h
  refine ⟨d, hopened, ?_⟩
  rcases hfind : d.find? name with _ | file
  · rw [hfind] at hheld
    cases hheld
  · rfl

end Archive

/-- **An archive in which a class can only be where it belongs.** It can be opened, and entries that
are read as the class have plain names. If there is an entry at the place of the class, then the name
of the class does not start with an empty piece, and the data of the entry can be got at. -/
structure KeptIn (a : Archive) (folder extension : String) (read : String → Option ClassType)
    (t : ClassType) (w : World) (d : ArchiveDirectory) : Prop where
  opened : (a.opened w).1 = .ok d
  plain : ∀ name ∈ d.names, read name = some t →
    ∃ stem, name = folder ++ (stem ++ "." ++ extension) ∧ IsEntryStem stem.toList
  named : folder ++ t.relativePath extension ∈ d.names →
    t.name ≠ "" ∧ t.name.toList.head? ≠ some '.'
  reached : d.InReach (folder ++ t.relativePath extension)

/-- **What is listed of a class is the entry at its path.** -/
theorem KeptIn.find? {a : Archive} {folder extension : String} {read : String → Option ClassType}
    {w : World} {d : ArchiveDirectory} (hkept : KeptIn a folder extension read t w d)
    (hstem : ∀ stem, read (folder ++ (stem ++ "." ++ extension)) = some t →
      ids.ofEntryName? stem m = some t)
    (hread : folder ++ t.relativePath extension ∈ d.names →
      read (folder ++ t.relativePath extension) = some t) :
    (d.names.filterMap fun name => (read name).map fun t => (t, name)).find? (·.1 = t) =
      if (d.find? (folder ++ t.relativePath extension)).isSome then
        some (t, folder ++ t.relativePath extension) else none := by
  have hplaced : ∀ name ∈ d.names, read name = some t →
      name = folder ++ t.relativePath extension := by
    intro name hname hsome
    obtain ⟨stem, rfl, hplain⟩ := hkept.plain name hname hsome
    rw [ClassType.relativePath, ← (Naming.eq_internalName_iff (hstem stem hsome)).mpr hplain]
  rw [find?_filterMap_map read (fun t name => (t, name)) (fun _ _ => rfl) hread hplaced]
  exact if_congr ArchiveDirectory.isSome_find?_iff.symm rfl rfl

/-- **An archive of classes in which a class can only be where it belongs**, and is none of the
archive's own entries. -/
def KeptInArchive (a : Archive) (extension : String) (ids : Naming) (t : ClassType)
    (w : World) : Prop :=
  ∃ d, KeptIn a "" extension (Location.archivedClass? extension ids) t w d ∧
    (t.relativePath extension ∈ d.names →
      "META-INF/".toList.isPrefixOf (t.relativePath extension).toList = false)

namespace Location

variable {frontend : Frontend} {sourceType : SourceType} {w : World} {name : String}

/-- **The entry at the path of a class is read as the class**, unless it is one of the archive's
own. -/
theorem archivedClass?_relativePath {extension : String} (ht : t.IsNormal) (hne : t.name ≠ "")
    (hdot : t.name.toList.head? ≠ some '.') (hclass : isDescriptorName t.name = false)
    (hplaces : ids.Places none t)
    (hown : "META-INF/".toList.isPrefixOf (t.relativePath extension).toList = false) :
    archivedClass? extension ids (t.relativePath extension) = some t := by
  rw [archivedClass?, hown, ClassType.relativePath, isSuffixOf?_extension]
  simp [Naming.ofEntryName?_internalName ht hne hdot hclass hplaces]

/-- An entry is read by its name without the extension. -/
theorem ofEntryName?_of_archivedClass? {extension stem : String}
    (h : archivedClass? extension ids (stem ++ "." ++ extension) = some t) :
    ids.ofEntryName? stem none = some t := by
  rw [archivedClass?] at h
  split_ifs at h
  rwa [isSuffixOf?_extension, Option.bind_some, String.ofList_toList] at h

/-- What an archive lists belongs to no module and is no descriptor. -/
theorem places_of_mem_archived {extension : String} {names : List String} {e : ClassType × String}
    (he : e ∈ names.filterMap fun name =>
      (archivedClass? extension ids name).map fun t => (t, name)) :
    ids.Places none e.1 ∧ isDescriptorName e.1.name = false := by
  obtain ⟨name, -, hname⟩ := List.mem_filterMap.mp he
  obtain ⟨u, hu, rfl⟩ := Option.map_eq_some_iff.mp hname
  rw [archivedClass?] at hu
  split_ifs at hu
  obtain ⟨stem, -, hstem⟩ := Option.bind_eq_some_iff.mp hu
  exact Naming.ofEntryName?_eq_some hstem

/-- What an archive finds of a class that may be stored in it. -/
theorem find_ofArchive_fst {a : Archive} {d : ArchiveDirectory} (hopened : (a.opened w).1 = .ok d)
    (hreach : d.InReach (t.relativePath frontend.extension)) (hqualified : t.isQualified = false)
    (hclass : isDescriptorName t.name = false) :
    ((ofArchive a frontend sourceType).find t w).1 =
      .ok (if (d.find? (t.relativePath frontend.extension)).isSome then
        some ((StoredClass.entry a (t.relativePath frontend.extension)).source frontend sourceType t)
        else none) := by
  have hcontains := Archive.contains_fst hopened hreach
    (frontend.isDirectoryName_append (t.internalName ++ "."))
  simp only [ofArchive, findInArchive, hqualified, hclass, Bool.or_self, Bool.false_eq_true,
    if_false, hcontains, Except.map]

/-- What an archive lists first of a class. -/
theorem first?_ofArchive {a : Archive} {d : ArchiveDirectory} (hopened : (a.opened w).1 = .ok d) :
    (ofArchive a frontend sourceType).first? ids t w =
      ((d.names.filterMap fun name =>
        (archivedClass? frontend.extension ids name).map fun t => (t, name)).find? (·.1 = t)).map
          fun e => (StoredClass.entry a e.2).source frontend sourceType e.1 := by
  rw [← firstOf_map_source, List.map_filterMap]
  simp only [Option.map_map]
  simp only [first?, listed, ofArchive, listArchive, Archive.names_fst hopened, Except.map,
    Listing.entries, List.append_nil]
  rfl

/-- **An archive finds what it lists first.** -/
theorem find_ofArchive {a : Archive} (ht : t.IsNormal) (hplain : t.moduleName = none)
    (hkept : KeptInArchive a frontend.extension ids t w) :
    ((ofArchive a frontend sourceType).find t w).1 =
      .ok ((ofArchive a frontend sourceType).first? ids t w) := by
  obtain ⟨d, hkept, hown⟩ := hkept
  have hplaces : ids.Places none t := by
    rw [Naming.Places, hplain, ite_self]
  have hqualified : t.isQualified = false := by
    rw [ClassType.isQualified, hplain]
    rfl
  rw [first?_ofArchive hkept.opened]
  rcases hclass : isDescriptorName t.name with _ | _
  · have hread : t.relativePath frontend.extension ∈ d.names →
        archivedClass? frontend.extension ids (t.relativePath frontend.extension) = some t := by
      intro hmem
      obtain ⟨hne, hdot⟩ := hkept.named (by rwa [String.empty_append])
      exact archivedClass?_relativePath ht hne hdot hclass hplaces (hown hmem)
    have hstem : ∀ stem, archivedClass? frontend.extension ids
        ("" ++ (stem ++ "." ++ frontend.extension)) = some t →
          ids.ofEntryName? stem none = some t := by
      simpa only [String.empty_append] using fun _ => ofEntryName?_of_archivedClass?
    have hfind := hkept.find? hstem (by simpa only [String.empty_append] using hread)
    have hreached := hkept.reached
    rw [String.empty_append] at hfind hreached
    rw [hfind, find_ofArchive_fst hkept.opened hreached hqualified hclass]
    split_ifs <;> rfl
  · rw [find?_eq_none_of_places (fun e he => places_of_mem_archived he) fun _ => hclass]
    simp [ofArchive, findInArchive, hclass]

end Location

end Classpath

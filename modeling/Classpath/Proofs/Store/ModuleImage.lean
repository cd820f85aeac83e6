import Mathlib.Data.List.Nodup
import Classpath.Proofs.Store.Listing

/-!
# What images list and find

An image asks its modules one after the other, and each of them is a directory or an archive of its
own. What a module answers does not depend on what was asked before, because opening an archive does
not change what another one holds. So the first source that is listed of a class is the one of the
first module that has it, which is where the class is found.

* `Classpath.ModuleImage.SameFor`, `Classpath.ModuleImage.IsQuestion` – worlds that are the same for
  an image, and what is asked of its modules.
* `Classpath.Location.findInModules_fst`, `Classpath.Location.firstOf_entries` – modules asked one
  after the other.
* `Classpath.KeptExploded`, `Classpath.KeptArchived` – images in which a class can only be where it
  belongs.
* `Classpath.Location.find_ofImage` – an image finds what it lists first.
-/

namespace Classpath

variable {i : ModuleImage} {t : ClassType} {ids : Naming} {m : ModuleName} {w w' : World}

/-! ### Opening archives -/

namespace Archive

variable {a b : Archive}

theorem opened_fst (a : Archive) (w : World) : (a.opened w).1 =
    match w.opened.lookup a.id with
    | some d => .ok d
    | none => directory a.path w.files := by
  rw [opened]
  rcases w.opened.lookup a.id with _ | d
  · rcases directory a.path w.files with e | d <;> rfl
  · rfl

theorem opened_files (a : Archive) (w : World) : (a.opened w).2.files = w.files := by
  rw [opened]
  split
  · rfl
  · split <;> rfl

/-- An archive that was opened answers as when it was opened. -/
theorem opened_opened (a : Archive) (w : World) : (a.opened (a.opened w).2).1 = (a.opened w).1 := by
  rcases hlookup : w.opened.lookup a.id with _ | d
  · rcases hdirectory : directory a.path w.files with e | d
    · have hopened : a.opened w = (.error e, w) := by
        rw [opened, hlookup]
        simp only [hdirectory]
      rw [hopened, hopened]
    · simp [opened, hlookup, hdirectory]
  · have hopened : a.opened w = (.ok d, w) := by
      rw [opened, hlookup]
    rw [hopened, hopened]

/-- **Opening an archive does not change what another one holds.** -/
theorem opened_of_ne (hne : a.id ≠ b.id) (w : World) :
    (a.opened (b.opened w).2).1 = (a.opened w).1 := by
  have hlookup : (b.opened w).2.opened.lookup a.id = w.opened.lookup a.id := by
    rw [opened]
    split
    · rfl
    · split
      · rw [List.lookup_cons, beq_false_of_ne hne]
      · rfl
  rw [opened_fst, opened_fst, hlookup, opened_files]

end Archive

namespace ModuleImage

/-- The archives of an image are numbered one after the other. -/
theorem number_ids (found : List (ModuleName × Path)) (w : World) :
    (number found w).1.map (·.2.id) = List.range' w.archives found.length := by
  induction found generalizing w with
  | nil => rfl
  | cons e found ih =>
    obtain ⟨m, path⟩ := e
    rw [List.length_cons, List.range'_succ]
    exact congrArg (w.archives :: ·) (ih { w with archives := w.archives + 1 })

/-- Numbering archives keeps the files and what is opened. -/
theorem number_world (found : List (ModuleName × Path)) (w : World) :
    (number found w).2.files = w.files ∧ (number found w).2.opened = w.opened := by
  induction found generalizing w with
  | nil => exact ⟨rfl, rfl⟩
  | cons e found ih => exact ih { w with archives := w.archives + 1 }

/-- The archives of an image are numbered where they are. -/
theorem number_paths (found : List (ModuleName × Path)) (w : World) :
    (number found w).1.map (fun e => (e.1, e.2.path)) = found := by
  induction found generalizing w with
  | nil => rfl
  | cons e found ih => exact congrArg (e :: ·) (ih { w with archives := w.archives + 1 })

/-- **What is opened at a root**: what is below its directory of modules, or the archives in its
directory of archives. -/
theorem of_open_eq_ok {root : Path} {w : World} (h : (ModuleImage.open root w).1 = .ok i) :
    i.root = root ∧ (i.layout = .exploded (root.join ⟨"modules"⟩) ∨
      ∃ found, archivesIn (root.join ⟨"jmods"⟩) w = .ok found ∧
        i.layout = .archived (number found w).1) := by
  rw [ModuleImage.open] at h
  split_ifs at h with hmodules hjmods
  · obtain rfl := Except.ok.inj h
    exact ⟨rfl, .inl rfl⟩
  · split at h
    · cases h
    · rename_i found hfound
      obtain rfl := Except.ok.inj h
      exact ⟨rfl, .inr ⟨found, hfound, rfl⟩⟩

/-- **An image whose archives are told apart** by their numbers. -/
def ToldApart (i : ModuleImage) : Prop :=
  ∀ archives, i.layout = .archived archives → (archives.map (·.2.id)).Nodup

/-- **The archives of an image that was opened are told apart.** -/
theorem toldApart_of_open {root : Path} {w : World} (h : (ModuleImage.open root w).1 = .ok i) :
    i.ToldApart := by
  intro archives hlayout
  obtain ⟨-, hexploded | ⟨found, -, harchived⟩⟩ := of_open_eq_ok h
  · rw [hexploded] at hlayout
    cases hlayout
  · rw [harchived] at hlayout
    obtain rfl := ModuleLayout.archived.inj hlayout
    rw [number_ids]
    exact List.nodup_range'

/-! ### Worlds that are the same for an image -/

/-- **A world is the same for an image as another one**: it has the same files, and the archives of
the image hold the same. -/
structure SameFor (i : ModuleImage) (w w' : World) : Prop where
  files : w'.files = w.files
  opened : ∀ archives, i.layout = .archived archives →
    ∀ e ∈ archives, (e.2.opened w').1 = (e.2.opened w).1

theorem SameFor.refl (i : ModuleImage) (w : World) : i.SameFor w w :=
  ⟨rfl, fun _ _ _ _ => rfl⟩

/-- Opening an archive of an image. -/
theorem SameFor.open (hi : i.ToldApart) (h : i.SameFor w w')
    {archives : List (ModuleName × Archive)} (hlayout : i.layout = .archived archives)
    {e : ModuleName × Archive} (he : e ∈ archives) : i.SameFor w (e.2.opened w').2 := by
  refine ⟨(Archive.opened_files _ _).trans h.files, fun others hothers other hother => ?_⟩
  obtain rfl := ModuleLayout.archived.inj (hlayout.symm.trans hothers)
  rw [← h.opened archives hlayout other hother]
  by_cases hid : other.2.id = e.2.id
  · rw [List.inj_on_of_nodup_map (hi archives hlayout) hother he hid]
    exact Archive.opened_opened _ _
  · exact Archive.opened_of_ne hid _

/-! ### Questions to modules -/

/-- **A question that one module of an image answers**: from the files, or from its archive. -/
def IsQuestion {α : Type} (i : ModuleImage) (ask : World → α × World) : Prop :=
  (∃ answer : FileTree → α, ∀ w, ask w = (answer w.files, w)) ∨
    ∃ archives e, ∃ answer : Except LocationError ArchiveDirectory → α,
      i.layout = .archived archives ∧ e ∈ archives ∧
        ∀ w, ask w = (answer (e.2.opened w).1, (e.2.opened w).2)

/-- **What a module answers does not depend on what was asked before.** -/
theorem IsQuestion.sameFor {α : Type} {ask : World → α × World} (hask : i.IsQuestion ask)
    (hi : i.ToldApart) (h : i.SameFor w w') :
    (ask w').1 = (ask w).1 ∧ i.SameFor w (ask w').2 := by
  obtain ⟨answer, heq⟩ | ⟨archives, e, answer, hlayout, he, heq⟩ := hask
  · rw [heq, heq, h.files]
    exact ⟨rfl, h⟩
  · rw [heq, heq, h.opened archives hlayout e he]
    exact ⟨rfl, h.open hi hlayout he⟩

theorem IsQuestion.map {α β : Type} {ask : World → α × World} (f : α → β)
    (hask : i.IsQuestion ask) : i.IsQuestion fun w => (f (ask w).1, (ask w).2) := by
  obtain ⟨answer, heq⟩ | ⟨archives, e, answer, hlayout, he, heq⟩ := hask
  · obtain rfl : ask = _ := funext heq
    exact .inl ⟨fun files => f (answer files), fun _ => rfl⟩
  · obtain rfl : ask = _ := funext heq
    exact .inr ⟨archives, e, fun d => f (answer d), hlayout, he, fun _ => rfl⟩

/-! ### Where modules are -/

theorem lookup_below {dir root : Path} {relative : String} (hlayout : i.layout = .exploded dir)
    (hroot : moduleRoot? dir m = some root) : i.lookup m relative w =
      (.ok (if w.files.isFile (root.join ⟨relative⟩) then some (.file (root.join ⟨relative⟩))
        else none), w) := by
  rw [lookup, hlayout]
  simp only [hroot]

theorem entries_below {dir root : Path} {extension : String} (hlayout : i.layout = .exploded dir)
    (hroot : moduleRoot? dir m = some root) : i.entries m extension ids w =
      ((storedClasses w.files root extension ids (some m)).map
        (List.map fun e => (e.1, .file e.2)), w) := by
  rw [entries, hlayout]
  simp only [hroot]

theorem lookup_within {archives : List (ModuleName × Archive)} {a : Archive} {relative : String}
    (hlayout : i.layout = .archived archives) (hm : archives.lookup m = some a) :
    i.lookup m relative w = ((a.contains (classesFolder ++ relative) w).1.map fun held =>
      if held then some (.entry a (classesFolder ++ relative)) else none, (a.opened w).2) := by
  rw [lookup, hlayout]
  simp only [hm]
  rfl

theorem entries_within {archives : List (ModuleName × Archive)} {a : Archive} {extension : String}
    (hlayout : i.layout = .archived archives) (hm : archives.lookup m = some a) :
    i.entries m extension ids w = ((a.names w).1.map (List.filterMap fun name =>
      (archivedClass? extension ids m name).map fun t => (t, .entry a name)), (a.opened w).2) := by
  rw [entries, hlayout]
  simp only [hm]
  rfl

/-- **A module that is not there.** -/
def IsMissing (i : ModuleImage) (m : ModuleName) : Prop :=
  (∃ dir, i.layout = .exploded dir ∧ moduleRoot? dir m = none) ∨
    ∃ archives, i.layout = .archived archives ∧ archives.lookup m = none

theorem IsMissing.lookup {relative : String} (h : i.IsMissing m) :
    i.lookup m relative w = (.ok none, w) := by
  obtain ⟨dir, hlayout, hm⟩ | ⟨archives, hlayout, hm⟩ := h <;>
  · rw [ModuleImage.lookup, hlayout]
    simp only [hm]

theorem IsMissing.entries {extension : String} (h : i.IsMissing m) :
    i.entries m extension ids w = (.ok [], w) := by
  obtain ⟨dir, hlayout, hm⟩ | ⟨archives, hlayout, hm⟩ := h <;>
  · rw [ModuleImage.entries, hlayout]
    simp only [hm]

/-- **The entry at the path of a class is read as the class.** -/
theorem archivedClass?_relativePath {extension : String} (ht : t.IsNormal) (hne : t.name ≠ "")
    (hdot : t.name.toList.head? ≠ some '.') (hclass : isDescriptorName t.name = false)
    (hplaces : ids.Places (some m) t) :
    archivedClass? extension ids m (classesFolder ++ t.relativePath extension) = some t := by
  rw [archivedClass?, String.toList_append, isPrefixOf?_append]
  simp only [Option.bind_eq_bind, Option.bind_some, ClassType.relativePath, isSuffixOf?_extension,
    String.ofList_toList, Naming.ofEntryName?_internalName ht hne hdot hclass hplaces]

/-- An entry is read by its name without the folder and the extension. -/
theorem ofEntryName?_of_archivedClass? {extension stem : String} {t : ClassType}
    (h : archivedClass? extension ids m (classesFolder ++ (stem ++ "." ++ extension)) = some t) :
    ids.ofEntryName? stem (some m) = some t := by
  rw [archivedClass?, String.toList_append, isPrefixOf?_append] at h
  simpa only [Option.bind_eq_bind, Option.bind_some, isSuffixOf?_extension, String.ofList_toList]
    using h

/-- **Where a module is**: nowhere, below a directory, or in an archive. -/
theorem isMissing_or (i : ModuleImage) (m : ModuleName) : i.IsMissing m ∨
    (∃ dir root, i.layout = .exploded dir ∧ moduleRoot? dir m = some root) ∨
      ∃ archives a, i.layout = .archived archives ∧ archives.lookup m = some a := by
  rcases hlayout : i.layout with dir | archives
  · rcases hroot : moduleRoot? dir m with _ | root
    · exact .inl (.inl ⟨dir, hlayout, hroot⟩)
    · exact .inr (.inl ⟨dir, root, rfl, hroot⟩)
  · rcases hm : archives.lookup m with _ | a
    · exact .inl (.inr ⟨archives, hlayout, hm⟩)
    · exact .inr (.inr ⟨archives, a, rfl, hm⟩)

theorem mem_of_lookup {archives : List (ModuleName × Archive)} {a : Archive}
    (hm : archives.lookup m = some a) : (m, a) ∈ archives := by
  obtain ⟨before, after, happend, -⟩ := List.lookup_eq_some_iff.mp hm
  simp [happend]

/-- **A module stores only what belongs to it**, and no descriptors. -/
theorem places_of_mem_entries {extension : String} {found : List (ClassType × StoredClass)}
    (h : (i.entries m extension ids w).1 = .ok found) {e : ClassType × StoredClass}
    (he : e ∈ found) : ids.Places (some m) e.1 ∧ isDescriptorName e.1.name = false := by
  obtain hmissing | ⟨dir, root, hlayout, hroot⟩ | ⟨archives, a, hlayout, hm⟩ := i.isMissing_or m
  · rw [hmissing.entries] at h
    rw [← Except.ok.inj h] at he
    cases he
  · rw [entries_below hlayout hroot] at h
    rcases hstored : storedClasses w.files root extension ids (some m) with fault | stored
    · rw [hstored] at h
      cases h
    · rw [hstored] at h
      rw [← Except.ok.inj h] at he
      obtain ⟨e, hmem, rfl⟩ := List.mem_map.mp he
      exact places_of_mem_storedClasses hstored hmem
  · rw [entries_within hlayout hm] at h
    rcases hnames : (a.names w).1 with fault | names
    · rw [hnames] at h
      cases h
    · rw [hnames] at h
      rw [← Except.ok.inj h] at he
      obtain ⟨name, -, hname⟩ := List.mem_filterMap.mp he
      obtain ⟨u, hu, rfl⟩ := Option.map_eq_some_iff.mp hname
      -- the folder and the extension are taken off a name before it is read
      obtain ⟨rest, -, hrest⟩ := Option.bind_eq_some_iff.mp hu
      obtain ⟨stem, -, hstem⟩ := Option.bind_eq_some_iff.mp hrest
      exact Naming.ofEntryName?_eq_some hstem

theorem isQuestion_ask {α : Type} {archives : List (ModuleName × Archive)} {a : Archive}
    (hlayout : i.layout = .archived archives) (hm : archives.lookup m = some a)
    (f : ArchiveDirectory → Except Zip.Fault α) : i.IsQuestion (a.ask f) :=
  .inr ⟨archives, (m, a), fun d => d.bind fun d => (f d).mapError (Archive.failure a.path), hlayout,
    mem_of_lookup hm, fun _ => rfl⟩

theorem isQuestion_lookup (i : ModuleImage) (m : ModuleName) (relative : String) :
    i.IsQuestion (i.lookup m relative) := by
  obtain hmissing | ⟨dir, root, hlayout, hroot⟩ | ⟨archives, a, hlayout, hm⟩ := i.isMissing_or m
  · exact .inl ⟨fun _ => .ok none, fun w => hmissing.lookup⟩
  · exact .inl ⟨fun files => .ok (if files.isFile (root.join ⟨relative⟩) then
      some (.file (root.join ⟨relative⟩)) else none), fun w => lookup_below hlayout hroot⟩
  · have hlookup : i.lookup m relative = _ := funext fun w => lookup_within hlayout hm
    rw [hlookup]
    exact (isQuestion_ask hlayout hm _).map _

theorem isQuestion_entries (i : ModuleImage) (m : ModuleName) (extension : String)
    (ids : Naming) : i.IsQuestion (i.entries m extension ids) := by
  obtain hmissing | ⟨dir, root, hlayout, hroot⟩ | ⟨archives, a, hlayout, hm⟩ := i.isMissing_or m
  · exact .inl ⟨fun _ => .ok [], fun w => hmissing.entries⟩
  · exact .inl ⟨fun files => (storedClasses files root extension ids (some m)).map
      (List.map fun e => (e.1, .file e.2)), fun w => entries_below hlayout hroot⟩
  · have hentries : i.entries m extension ids = _ := funext fun w => entries_within hlayout hm
    rw [hentries]
    exact (isQuestion_ask hlayout hm _).map _

/-! ### The modules of a directory -/

/-- The subtree of a module is below its name. -/
theorem of_moduleRoot? {dir root : Path} (h : moduleRoot? dir m = some root) :
    root = dir.join ⟨m.text⟩ ∧ FileTree.IsPlainName m.text ∧ '/' ∉ m.text.toList := by
  rw [moduleRoot?] at h
  split_ifs at h with hname
  rw [Bool.or_eq_true, not_or] at hname
  have hslash : '/' ∉ m.text.toList := by
    simpa using hname.1
  have hsegments : (⟨m.text⟩ : Path).segments = [m.text.toList] :=
    List.splitOn_eq_singleton hslash
  split at h
  · rename_i name hcomponents
    refine ⟨(Option.some.inj h).symm, ?_, hslash⟩
    rw [Path.components, hsegments] at hcomponents
    refine ⟨fun hm => ?_, fun hm => ?_, fun hm => ?_⟩ <;> rw [hm] at hcomponents <;>
      cases hcomponents
  · cases h

/-- **A module has a subtree if its name is a single plain name.** -/
theorem moduleRoot?_of_isPlainName (hname : FileTree.IsPlainName m.text)
    (hslash : '/' ∉ m.text.toList) (hback : '\\' ∉ m.text.toList) (dir : Path) :
    moduleRoot? dir m = some (dir.join ⟨m.text⟩) := by
  have hslashes : (m.text.toList.contains '/' || m.text.toList.contains '\\') = false := by
    simp [hslash, hback]
  have hsegments : (⟨m.text⟩ : Path).segments = [m.text.toList] :=
    List.splitOn_eq_singleton hslash
  have hcomponents : Path.components ⟨m.text⟩ = [.entry m.text.toList] := by
    obtain ⟨hempty, hdot, hdots⟩ := hname
    have hne : ∀ s : String, m.text ≠ s → m.text.toList ≠ s.toList :=
      fun s h heq => h (String.toList_inj.mp heq)
    have hempty := hne _ hempty
    have hdot := hne _ hdot
    have hdots := hne _ hdots
    rw [Path.components, hsegments]
    simp_all [Path.component?, Path.isVoid]
  rw [moduleRoot?, hslashes, hcomponents]
  rfl

/-- **The directories of an image are its modules.** -/
theorem mem_modules {dir : Path} {modules : List ModuleName} (hlayout : i.layout = .exploded dir)
    (h : i.modules w = .ok modules) : ∃ key, w.files.locate .target dir = .ok key ∧
      ∀ m : ModuleName, m ∈ modules ↔ (key ++ [m.text], Node.directory) ∈ w.files.nodes := by
  rw [ModuleImage.modules, hlayout] at h
  rcases hentries : w.files.entryNames dir with fault | entries
  · simp only [hentries] at h
    cases h
  · simp only [hentries] at h
    obtain ⟨key, hkey, rfl⟩ := FileTree.entryNames_eq_ok hentries
    refine ⟨key, hkey, fun m => ?_⟩
    rw [← FileTree.mem_childrenOf, ← Except.ok.inj h, List.mem_mergeSort, List.mem_filterMap]
    constructor
    · rintro ⟨⟨name, node⟩, hmem, hsome⟩
      split_ifs at hsome with hnode
      obtain rfl := Option.some.inj hsome
      rwa [show node = .directory from hnode] at hmem
    · exact fun hmem => ⟨_, hmem, by simp⟩

end ModuleImage

/-! ### Images in which a class is where it belongs -/

/-- **A directory of modules in which a class can only be where it belongs**: below each module that
can have it. If there is a file at the place of the class where no module is listed, then the name of
the class has no empty pieces, and no link is in the place of the module. -/
structure KeptExploded (i : ModuleImage) (dir : Path) (extension : String) (ids : Naming)
    (t : ClassType) (w : World) (modules : List ModuleName) : Prop where
  layout : i.layout = .exploded dir
  listed : i.modules w = .ok modules
  below : ∀ m ∈ modules, ids.Places (some m) t → ∀ root,
    ModuleImage.moduleRoot? dir m = some root →
      ∃ keys, KeptBelow w.files root extension ids (some m) t keys
  aside : ∀ m, t.moduleName = some m → m ∉ modules →
    w.files.isFile ((dir.join ⟨m.text⟩).join ⟨t.relativePath extension⟩) = true →
      t.IsSegmented ∧ ∀ key, w.files.locate .target dir = .ok key → w.files.Unlinked key [m.text]

/-- **Archives of modules in which a class can only be where it belongs**, in each one of a module
that can have it. -/
structure KeptArchived (i : ModuleImage) (archives : List (ModuleName × Archive))
    (extension : String) (ids : Naming) (t : ClassType) (w : World) : Prop where
  layout : i.layout = .archived archives
  within : ∀ m a, archives.lookup m = some a → ids.Places (some m) t →
    ∃ d, KeptIn a ModuleImage.classesFolder extension (ModuleImage.archivedClass? extension ids m)
      t w d

/-- **An image in which a class can only be where it belongs**, in either layout. -/
def KeptInImage (i : ModuleImage) (extension : String) (ids : Naming) (t : ClassType)
    (w : World) : Prop :=
  (∃ dir modules, KeptExploded i dir extension ids t w modules) ∨
    ∃ archives, KeptArchived i archives extension ids t w

namespace Location

variable {frontend : Frontend} {sourceType : SourceType} {relative : String}

/-! ### Modules one after the other -/

/-- The sources of what a module stores. -/
def moduleSources (frontend : Frontend) (sourceType : SourceType) :
    Except LocationError (List (ClassType × StoredClass)) →
      List (Except LocationError (Source World))
  | .ok found => found.map fun e => .ok (e.2.source frontend sourceType e.1)
  | .error e => [.error e]

theorem listModule_eq (i : ModuleImage) (frontend : Frontend) (sourceType : SourceType)
    (ids : Naming) (m : ModuleName) (w : World) : listModule i frontend sourceType ids m w =
      (moduleSources frontend sourceType (i.entries m frontend.extension ids w).1,
        (i.entries m frontend.extension ids w).2) := by
  rw [listModule]
  rcases i.entries m frontend.extension ids w with ⟨_ | found, w'⟩ <;> rfl

theorem isQuestion_listModule (i : ModuleImage) (frontend : Frontend) (sourceType : SourceType)
    (ids : Naming) (m : ModuleName) :
    i.IsQuestion (listModule i frontend sourceType ids m) := by
  rw [funext (listModule_eq i frontend sourceType ids m)]
  exact (i.isQuestion_entries m frontend.extension ids).map _

/-- **Looking for a file in modules** finds that of the first one that has it. -/
theorem findInModules_fst {held : ModuleName → Option StoredClass} {modules : List ModuleName}
    (hi : i.ToldApart) (hheld : ∀ m ∈ modules, (i.lookup m relative w).1 = .ok (held m))
    (h : i.SameFor w w') :
    (findInModules i relative modules w').1 = .ok (modules.findSome? held) := by
  induction modules generalizing w' with
  | nil => rfl
  | cons m modules ih =>
    obtain ⟨hm, hmodules⟩ := List.forall_mem_cons.mp hheld
    obtain ⟨hfst, hsame⟩ := (i.isQuestion_lookup m relative).sameFor hi h
    rw [hm] at hfst
    rw [findInModules, List.findSome?_cons]
    rcases hanswer : i.lookup m relative w' with ⟨answer, w''⟩
    rw [hanswer] at hfst hsame
    subst hfst
    rcases held m with _ | c
    · exact ih hmodules hsame
    · rfl

/-- **The first source that modules list** is that of the first one that lists any. -/
theorem firstOf_entries {listed : ModuleName → Option (Source World)} {modules : List ModuleName}
    (hi : i.ToldApart) (hlisted : ∀ m ∈ modules,
      firstOf t (listModule i frontend sourceType ids m w).1 = listed m) (h : i.SameFor w w') :
    firstOf t (Listing.entries (modules.map (listModule i frontend sourceType ids)) w').1 =
      modules.findSome? listed := by
  induction modules generalizing w' with
  | nil => rfl
  | cons m modules ih =>
    obtain ⟨hm, hmodules⟩ := List.forall_mem_cons.mp hlisted
    obtain ⟨hfst, hsame⟩ := (isQuestion_listModule i frontend sourceType ids m).sameFor hi h
    have hentries : (Listing.entries ((m :: modules).map (listModule i frontend sourceType ids))
        w').1 = (listModule i frontend sourceType ids m w').1 ++
          (Listing.entries (modules.map (listModule i frontend sourceType ids))
            (listModule i frontend sourceType ids m w').2).1 := rfl
    -- the other modules are listed in the world that listing the first one leaves
    rw [hentries, firstOf_append, hfst, hm, ih hmodules hsame, List.findSome?_cons]
    rcases listed m with _ | source <;> rfl

/-! ### One module -/

theorem firstOf_moduleSources (found : List (ClassType × StoredClass)) :
    firstOf t (moduleSources frontend sourceType (.ok found)) =
      (found.find? (·.1 = t)).map fun e => e.2.source frontend sourceType e.1 :=
  firstOf_map_source frontend sourceType id found

/-- What cannot belong to a module is not listed in it. -/
theorem firstOf_listModule_eq_none
    (ht : ids.Places (some m) t → isDescriptorName t.name = true) :
    firstOf t (listModule i frontend sourceType ids m w).1 = none := by
  rw [listModule_eq]
  rcases hentries : (i.entries m frontend.extension ids w).1 with e | found
  · rfl
  · rw [firstOf_moduleSources, find?_eq_none_of_places
      (fun e he => ModuleImage.places_of_mem_entries hentries he) ht]
    rfl

/-- What is listed of a class that a module can only have in one place. -/
theorem firstOf_listModule {α : Type} {place : α → StoredClass} {found : List (ClassType × α)}
    {x : α} {held : Bool} (hentries : (i.entries m frontend.extension ids w).1 =
      .ok (found.map fun e => (e.1, place e.2)))
    (hfind : found.find? (·.1 = t) = if held then some (t, x) else none) :
    firstOf t (listModule i frontend sourceType ids m w).1 =
      (if held then some (place x) else none).map (StoredClass.source frontend sourceType t) := by
  have hmap : (found.map fun e => (e.1, place e.2)).find? (·.1 = t) =
      (found.find? (·.1 = t)).map fun e => (e.1, place e.2) := by
    rw [List.find?_map]
    rfl
  rw [listModule_eq, hentries, firstOf_moduleSources, hmap, hfind]
  rcases held with _ | _ <;> rfl

/-- **A module finds what it lists first.** -/
def Agrees (i : ModuleImage) (frontend : Frontend) (sourceType : SourceType) (ids : Naming)
    (t : ClassType) (w : World) (m : ModuleName) : Prop :=
  ∃ held, (i.lookup m (t.relativePath frontend.extension) w).1 = .ok held ∧
    firstOf t (listModule i frontend sourceType ids m w).1 =
      held.map (StoredClass.source frontend sourceType t)

theorem agrees_of_isMissing (h : i.IsMissing m) : Agrees i frontend sourceType ids t w m := by
  refine ⟨none, by rw [h.lookup], ?_⟩
  rw [listModule_eq, h.entries]
  rfl

theorem agrees_below {dir root : Path} {keys : List Key} (hlayout : i.layout = .exploded dir)
    (hroot : ModuleImage.moduleRoot? dir m = some root) (hw : w.files.WellFormed)
    (ht : t.IsNormal) (hclass : isDescriptorName t.name = false)
    (hplaces : ids.Places (some m) t)
    (hkept : KeptBelow w.files root frontend.extension ids (some m) t keys) :
    Agrees i frontend sourceType ids t w m := by
  obtain ⟨found, hfound, hfind⟩ := find?_storedClasses hw ht hclass hplaces hkept
  refine ⟨_, by rw [ModuleImage.lookup_below hlayout hroot], firstOf_listModule ?_ hfind⟩
  rw [ModuleImage.entries_below hlayout hroot, hfound]
  rfl

theorem agrees_within {archives : List (ModuleName × Archive)} {a : Archive}
    {d : ArchiveDirectory} (hlayout : i.layout = .archived archives)
    (hm : archives.lookup m = some a) (ht : t.IsNormal) (hclass : isDescriptorName t.name = false)
    (hplaces : ids.Places (some m) t)
    (hkept : KeptIn a ModuleImage.classesFolder frontend.extension
      (ModuleImage.archivedClass? frontend.extension ids m) t w d) :
    Agrees i frontend sourceType ids t w m := by
  have hfile : ArchiveDirectory.isDirectoryName
      (ModuleImage.classesFolder ++ t.relativePath frontend.extension) = false := by
    rw [ClassType.relativePath, ← String.append_assoc]
    exact frontend.isDirectoryName_append _
  have hfind := hkept.find? (fun _ => ModuleImage.ofEntryName?_of_archivedClass?) fun hmem =>
    ModuleImage.archivedClass?_relativePath ht (hkept.named hmem).1 (hkept.named hmem).2 hclass
      hplaces
  have hcontains := Archive.contains_fst hkept.opened hkept.reached hfile
  refine ⟨_, by rw [ModuleImage.lookup_within hlayout hm, hcontains]; rfl,
    firstOf_listModule ?_ hfind⟩
  rw [ModuleImage.entries_within hlayout hm, Archive.names_fst hkept.opened, List.map_filterMap]
  simp only [Option.map_map]
  rfl

/-! ### All modules -/

/-- Only one of some modules has something. -/
theorem findSome?_eq_of_unique {β : Type} {f : ModuleName → Option β} {modules : List ModuleName}
    (hnone : ∀ n ∈ modules, n ≠ m → f n = none) :
    modules.findSome? f = if m ∈ modules then f m else none := by
  induction modules with
  | nil => rfl
  | cons n modules ih =>
    obtain ⟨hn, hmodules⟩ := List.forall_mem_cons.mp hnone
    rw [List.findSome?_cons, ih hmodules]
    by_cases hnm : n = m
    · subst hnm
      rcases f n with _ | b <;> simp
    · rw [hn hnm]
      simp [Ne.symm hnm]

/-- The first source that an image lists. -/
theorem first?_ofImage {listed : ModuleName → Option (Source World)} {modules : List ModuleName}
    (hi : i.ToldApart) (hmodules : i.modules w = .ok modules) (hlisted : ∀ m ∈ modules,
      firstOf t (listModule i frontend sourceType ids m w).1 = listed m) :
    (ofImage i frontend sourceType).first? ids t w = modules.findSome? listed := by
  rw [← firstOf_entries hi hlisted (.refl i w)]
  simp only [first?, Location.listed, ofImage, hmodules, Except.map]

theorem find_ofImage_fst (hclass : isDescriptorName t.name = false) :
    ((ofImage i frontend sourceType).find t w).1 =
      (match t.moduleName with
        | some m => (i.lookup m (t.relativePath frontend.extension) w).1
        | none =>
          match i.modules w with
          | .ok modules => (findInModules i (t.relativePath frontend.extension) modules w).1
          | .error e => .error e).map (Option.map (StoredClass.source frontend sourceType t)) := by
  simp only [ofImage, findInImage, hclass, Bool.false_eq_true, if_false]
  rcases t.moduleName with _ | m
  · rcases i.modules w with e | modules <;> rfl
  · rfl

/-- **An image finds what it lists first**, if every module does that can have the class, and if the
module of the class has none where it is not listed. -/
theorem find_ofImage_of_agrees {modules : List ModuleName} (hi : i.ToldApart)
    (hshape : t.moduleName.isSome = ids.moduleAware) (hmodules : i.modules w = .ok modules)
    (hagrees : isDescriptorName t.name = false →
      ∀ m ∈ modules, ids.Places (some m) t → Agrees i frontend sourceType ids t w m)
    (hmissing : ∀ m, t.moduleName = some m → m ∉ modules →
      (i.lookup m (t.relativePath frontend.extension) w).1 = .ok none) :
    ((ofImage i frontend sourceType).find t w).1 =
      .ok ((ofImage i frontend sourceType).first? ids t w) := by
  rcases hclass : isDescriptorName t.name with _ | _
  · have hagrees := hagrees hclass
    rw [find_ofImage_fst hclass]
    rcases hname : t.moduleName with _ | m
    -- every module can have a class that names none
    · rw [hname] at hshape
      have hplaces : ∀ m, ids.Places (some m) t := by
        intro m
        rw [Naming.Places, hname, ← hshape]
        rfl
      choose! held hheld hfirst using fun m hm => hagrees m hm (hplaces m)
      rw [first?_ofImage hi hmodules hfirst]
      simp only [hmodules, findInModules_fst hi hheld (.refl i w)]
      exact congrArg Except.ok List.map_findSome?
    -- only its own module can have a class that names one
    · rw [hname] at hshape
      have hplaces : ∀ n, ids.Places (some n) t ↔ n = m := by
        intro n
        rw [Naming.Places, hname, ← hshape]
        simp [eq_comm]
      have hother : ∀ n ∈ modules, n ≠ m →
          firstOf t (listModule i frontend sourceType ids n w).1 = none :=
        fun n _ hne => firstOf_listModule_eq_none fun h => absurd ((hplaces n).mp h) hne
      rw [first?_ofImage hi hmodules fun _ _ => rfl, findSome?_eq_of_unique hother]
      by_cases hm : m ∈ modules
      · obtain ⟨held, hlookup, hfirst⟩ := hagrees m hm ((hplaces m).mpr rfl)
        simp only [hlookup, if_pos hm, hfirst]
        rfl
      · simp only [hmissing m hname hm, if_neg hm]
        rfl
  · rw [first?_ofImage hi hmodules fun m _ => firstOf_listModule_eq_none fun _ => hclass]
    have hnone : modules.findSome? (fun _ => (none : Option (Source World))) = none :=
      List.findSome?_eq_none_iff.mpr fun _ _ => rfl
    rw [hnone]
    simp [ofImage, findInImage, hclass]

/-! ### Images -/

theorem find_ofImage_exploded {dir : Path} {modules : List ModuleName} (hi : i.ToldApart)
    (hw : w.files.WellFormed) (ht : t.IsNormal) (hshape : t.moduleName.isSome = ids.moduleAware)
    (hkept : KeptExploded i dir frontend.extension ids t w modules) :
    ((ofImage i frontend sourceType).find t w).1 =
      .ok ((ofImage i frontend sourceType).first? ids t w) := by
  refine find_ofImage_of_agrees hi hshape hkept.listed (fun hclass m hm hplaces => ?_)
    fun m hname hm => ?_
  · rcases hroot : ModuleImage.moduleRoot? dir m with _ | root
    · exact agrees_of_isMissing (.inl ⟨dir, hkept.layout, hroot⟩)
    · obtain ⟨keys, hkeys⟩ := hkept.below m hm hplaces root hroot
      exact agrees_below hkept.layout hroot hw ht hclass hplaces hkeys
  · rcases hroot : ModuleImage.moduleRoot? dir m with _ | root
    · rw [ModuleImage.IsMissing.lookup (.inl ⟨dir, hkept.layout, hroot⟩)]
    · obtain ⟨rfl, hplain, hslash⟩ := ModuleImage.of_moduleRoot? hroot
      obtain ⟨key, hkey, hmodules⟩ := ModuleImage.mem_modules hkept.layout hkept.listed
      have hother : w.files.node? (key ++ [m.text]) ≠ some .directory :=
        fun hdir => hm ((hmodules m).mpr (FileTree.mem_of_node? (by simp) hdir))
      have hfile : w.files.isFile
          ((dir.join ⟨m.text⟩).join ⟨t.relativePath frontend.extension⟩) = false := by
        rw [Bool.eq_false_iff]
        intro hfile
        obtain ⟨hs, hunlinked⟩ := hkept.aside m hname hm hfile
        rw [FileTree.isFile_join_join_eq_false hkey hplain hslash
          (isPlainName_of_mem ht.spelled.slashless hs frontend.slashless_extension) hother
          fun _ => hunlinked key hkey] at hfile
        cases hfile
      rw [ModuleImage.lookup_below hkept.layout hroot, hfile]
      rfl

theorem find_ofImage_archived {archives : List (ModuleName × Archive)} (hi : i.ToldApart)
    (ht : t.IsNormal) (hshape : t.moduleName.isSome = ids.moduleAware)
    (hkept : KeptArchived i archives frontend.extension ids t w) :
    ((ofImage i frontend sourceType).find t w).1 =
      .ok ((ofImage i frontend sourceType).first? ids t w) := by
  have hlisted : i.modules w = .ok (archives.map Prod.fst) := by
    rw [ModuleImage.modules, hkept.layout]
  refine find_ofImage_of_agrees hi hshape hlisted (fun hclass m hm hplaces => ?_)
    fun m hname hm => ?_
  · rcases hlookup : archives.lookup m with _ | a
    · exact agrees_of_isMissing (.inr ⟨archives, hkept.layout, hlookup⟩)
    · obtain ⟨d, hd⟩ := hkept.within m a hlookup hplaces
      exact agrees_within hkept.layout hlookup ht hclass hplaces hd
  · have hlookup : archives.lookup m = none := by
      rw [List.lookup_eq_none_iff]
      rintro e he
      simpa using ne_of_mem_of_not_mem (List.mem_map_of_mem he) hm |>.symm
    rw [ModuleImage.IsMissing.lookup (.inr ⟨archives, hkept.layout, hlookup⟩)]

/-- **An image finds what it lists first.** -/
theorem find_ofImage {root : Path} {w₀ : World} (hopen : (ModuleImage.open root w₀).1 = .ok i)
    (hw : w.files.WellFormed) (ht : t.IsNormal) (hshape : t.moduleName.isSome = ids.moduleAware)
    (hkept : KeptInImage i frontend.extension ids t w) :
    ((ofImage i frontend sourceType).find t w).1 =
      .ok ((ofImage i frontend sourceType).first? ids t w) := by
  have hi := ModuleImage.toldApart_of_open hopen
  obtain ⟨dir, modules, hexploded⟩ | ⟨archives, harchived⟩ := hkept
  · exact find_ofImage_exploded hi hw ht hshape hexploded
  · exact find_ofImage_archived hi ht hshape harchived

end Location

end Classpath

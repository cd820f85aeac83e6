import Mathlib.Data.List.Dedup
import Classpath.Proofs.ClassType
import Classpath.Proofs.Store.ClassPath

/-!
# The two layouts of a module image

The files of some modules can be stored below directories or in archives. The two layouts work on
different names: one walks over a tree and puts names together from the steps of the walk, the other
one takes names of entries apart. Both show what is stored, so nothing that is asked of an image
tells the layout.

* `Classpath.ModuleMap` – the files of some modules.
* `Classpath.ModuleMap.IsExploded`, `Classpath.ModuleMap.IsArchived` – images that store them.
* `Classpath.ModuleImage.Shows` – what an image answers that stores them.
* `Classpath.ModuleMap.StoredBelow.shows`, `Classpath.ModuleMap.shows_of_archives` – both layouts
  show what is stored.
* `Classpath.ModuleMap.StoredBelow.open_eq`, `Classpath.ModuleMap.StoredIn.open_eq` – what is opened
  at a root.
-/

namespace Classpath

/-! ### The files of modules -/

/-- **The files of some modules**, by their paths. -/
structure ModuleMap where
  modules : List (ModuleName × List (String × Bytes))
  named : ∀ e ∈ modules, IsModuleName e.1
  pathed : ∀ e ∈ modules, ∀ file ∈ e.2, IsClassPath file.1

/-- The bytes of a file. -/
def Node.bytes? : Node → Option Bytes
  | .file contents _ => some contents.bytes
  | _ => none

namespace ModuleMap

variable (c : ModuleMap)

/-- The names of the modules, in order. -/
def names : List ModuleName :=
  (c.modules.map Prod.fst).dedup.mergeSort ModuleName.le

/-- The archives of the modules in a directory. -/
def archives (dir : Path) : List (ModuleName × Path) :=
  c.names.map fun m => (m, dir.join ⟨m.text ++ ".jmod"⟩)

/-- The contents of a file. -/
def bytes? (m : ModuleName) (relative : String) : Option Bytes :=
  (c.modules.lookup m).bind (List.lookup relative)

/-- The module that has a class, and what it has: the module of the class, or the first one. -/
def find? (t : ClassType) (extension : String) : Option (ModuleName × Bytes) :=
  if isDescriptorName t.name then none
  else
    (t.moduleName.elim c.names fun m => [m]).findSome? fun m =>
      (c.bytes? m (t.relativePath extension)).map fun bytes => (m, bytes)

/-- **An image that stores the modules below directories**: the directories below `dir`, which is
the entry of a key, are the modules, the files below each are its files, there are no links, and no
path is too long to be followed. -/
structure StoredBelow (files : FileTree) (dir : Path) (key : Key) : Prop where
  wellFormed : files.WellFormed
  located : files.locate .target dir = .ok key
  directory : files.node? key = some .directory
  modules : ∀ m : ModuleName, files.node? (key ++ [m.text]) = some .directory ↔ m ∈ c.names
  unlinked : ∀ names target, files.node? (key ++ names) ≠ some (.link target)
  stored : ∀ m ∈ c.names, ∀ relative,
    (files.node? (key ++ m.text :: FileTree.names ⟨relative⟩)).bind Node.bytes? =
      c.bytes? m relative
  fits : ∀ m ∈ c.names, (dir.join ⟨m.text⟩).text.utf8ByteSize ≤ FileTree.maxPath
  fitsFile : ∀ m relative, (c.bytes? m relative).isSome →
    ((dir.join ⟨m.text⟩).join ⟨relative⟩).text.utf8ByteSize ≤ FileTree.maxPath

/-- **An archive that holds the files of a module** under the folder of classes, and nothing
else. -/
def HeldIn (m : ModuleName) (d : ArchiveDirectory) : Prop :=
  ∀ name, (d.find? name).map ArchivedFile.contents =
    ((ModuleImage.classesFolder.toList.isPrefixOf? name.toList).bind
      fun relative => c.bytes? m (String.ofList relative)).map .ok

/-- **An image that stores the modules in archives**: what is in `dir`, which is the entry of a key,
are archives of the modules, and each of these holds the files under the folder of classes. -/
structure StoredIn (files : FileTree) (dir : Path) (key : Key) : Prop where
  wellFormed : files.WellFormed
  located : files.locate .target dir = .ok key
  directory : files.node? key = some .directory
  listed : ∀ name node, (key ++ [name], node) ∈ files.nodes →
    ∃ m ∈ c.names, name = m.text ++ ".jmod"
  stored : ∀ m ∈ c.names, (∃ node, (key ++ [m.text ++ ".jmod"], node) ∈ files.nodes) ∧
    ∃ d, Archive.directory (dir.join ⟨m.text ++ ".jmod"⟩) files = .ok d ∧ c.HeldIn m d

/-- **A root at which the modules are stored below directories.** -/
def IsExploded (root : Path) (files : FileTree) : Prop :=
  ∃ key, c.StoredBelow files (root.join ⟨"modules"⟩) key

/-- **A root at which the modules are stored in archives.** -/
def IsArchived (root : Path) (files : FileTree) : Prop :=
  files.isDirectory (root.join ⟨"modules"⟩) = false ∧
    ∃ key, c.StoredIn files (root.join ⟨"jmods"⟩) key

variable {c}

theorem mem_names {m : ModuleName} : m ∈ c.names ↔ m ∈ c.modules.map Prod.fst := by
  rw [names, List.mem_mergeSort, List.mem_dedup]

theorem isModuleName_of_mem {m : ModuleName} (h : m ∈ c.names) : IsModuleName m := by
  obtain ⟨e, he, rfl⟩ := List.mem_map.mp (mem_names.mp h)
  exact c.named e he

/-- **The names of the modules are the one list in order that holds each of them once.** -/
theorem eq_names {modules : List ModuleName} (hnodup : modules.Nodup)
    (hmem : ∀ m, m ∈ modules ↔ m ∈ c.names)
    (hsorted : modules.Pairwise fun a b => a.le b) : modules = c.names := by
  have hnames : c.names.Nodup :=
    (List.mergeSort_perm _ ModuleName.le).nodup_iff.mpr (List.nodup_dedup _)
  refine ((List.perm_ext_iff_of_nodup hnodup hnames).mpr hmem).eq_of_pairwise ?_ hsorted
    (ModuleName.pairwise_mergeSort id _)
  exact fun a b _ _ => ModuleName.le_antisymm

theorem of_bytes?_isSome {m : ModuleName} {relative : String}
    (h : (c.bytes? m relative).isSome) : m ∈ c.names ∧ IsClassPath relative := by
  obtain ⟨bytes, hbytes⟩ := Option.isSome_iff_exists.mp h
  obtain ⟨files, hfiles, hfile⟩ := Option.bind_eq_some_iff.mp hbytes
  have hmodule : (m, files) ∈ c.modules := by
    obtain ⟨before, after, happend, -⟩ := List.lookup_eq_some_iff.mp hfiles
    simp [happend]
  have hmem : (relative, bytes) ∈ files := by
    obtain ⟨before, after, happend, -⟩ := List.lookup_eq_some_iff.mp hfile
    simp [happend]
  exact ⟨mem_names.mpr (List.mem_map_of_mem hmodule), c.pathed _ hmodule _ hmem⟩

theorem bytes?_of_not_mem {m : ModuleName} (hm : m ∉ c.names) (relative : String) :
    c.bytes? m relative = none := by
  rw [← Option.not_isSome_iff_eq_none]
  exact fun hsome => hm (of_bytes?_isSome hsome).1

end ModuleMap

/-! ### What an image shows -/

namespace ModuleImage

/-- Where an image keeps a file of a module. -/
def place? (i : ModuleImage) (m : ModuleName) (relative : String) : Option StoredClass :=
  match i.layout with
  | .exploded dir => (moduleRoot? dir m).map fun root => .file (root.join ⟨relative⟩)
  | .archived archives =>
    (archives.lookup m).map fun a => .entry a (classesFolder ++ relative)

/-- **What an image answers for a class**: nothing, or where the file of a module is kept and what
it holds. -/
def Finds (i : ModuleImage) (w : World) (frontend : Frontend) (sourceType : SourceType)
    (t : ClassType) : Option (ModuleName × Bytes) → Prop
  | none => ((Location.ofImage i frontend sourceType).find t w).1 = .ok none
  | some (m, bytes) => ∃ s, i.place? m (t.relativePath frontend.extension) = some s ∧
      ((Location.ofImage i frontend sourceType).find t w).1 =
        .ok (some (s.source frontend sourceType t)) ∧
      (s.read w).1 = .ok bytes

/-- **What a module lists**: the classes among its files, with the paths of these, and where they
are kept. -/
def Lists (i : ModuleImage) (c : ModuleMap) (m : ModuleName) (extension : String) (ids : Naming)
    (w : World) (found : List (ClassType × String)) : Prop :=
  (∃ place : String → StoredClass, (∀ relative, i.place? m relative = some (place relative)) ∧
    (i.entries m extension ids w).1 = .ok (found.map fun e => (e.1, place e.2))) ∧
  ∀ t relative, (t, relative) ∈ found ↔
    StoredAs ids m extension relative t ∧ (c.bytes? m relative).isSome

/-- **An image that shows the files of some modules**: it has these modules, finds in each what is
stored there and where, and lists it. -/
structure Shows (i : ModuleImage) (c : ModuleMap) (w : World) : Prop where
  toldApart : i.ToldApart
  modules : i.modules w = .ok c.names
  lookup : ∀ (t : ClassType) (frontend : Frontend) (m : ModuleName), t.IsWorded →
    (i.lookup m (t.relativePath frontend.extension) w).1 =
      .ok ((c.bytes? m (t.relativePath frontend.extension)).bind fun _ =>
        i.place? m (t.relativePath frontend.extension))
  read : ∀ m relative bytes, c.bytes? m relative = some bytes →
    ∃ s, i.place? m relative = some s ∧ (s.read w).1 = .ok bytes
  lists : ∀ m ∈ c.names, ∀ extension ids, ∃ found, i.Lists c m extension ids w found
  missing : ∀ m, m ∉ c.names → ∀ extension ids found,
    (i.entries m extension ids w).1 = .ok found → found = []

/-- **An image finds a class in its module**, or in the first one that has it. -/
theorem Shows.finds {i : ModuleImage} {c : ModuleMap} {w : World} {t : ClassType}
    (h : i.Shows c w) (ht : t.IsWorded) (frontend : Frontend) (sourceType : SourceType) :
    i.Finds w frontend sourceType t (c.find? t frontend.extension) := by
  rcases hclass : isDescriptorName t.name with _ | _
  · let relative := t.relativePath frontend.extension
    let held (m : ModuleName) := (c.bytes? m relative).bind fun _ => i.place? m relative
    have hfind : ((Location.ofImage i frontend sourceType).find t w).1 =
        .ok (((t.moduleName.elim c.names fun m => [m]).findSome? held).map
          (StoredClass.source frontend sourceType t)) := by
      rw [Location.find_ofImage_fst hclass]
      rcases t.moduleName with _ | m
      · simp only [h.modules, Location.findInModules_fst h.toldApart
          (fun m _ => h.lookup t frontend m ht) (.refl i w)]
        rfl
      · simp only [h.lookup t frontend m ht, Option.elim_some, List.findSome?_singleton]
        rfl
    rw [ModuleMap.find?, hclass, if_neg (by simp)]
    rcases hanswer : (t.moduleName.elim c.names fun m => [m]).findSome? fun m =>
        (c.bytes? m relative).map fun bytes => (m, bytes) with _ | ⟨m, bytes⟩
    · have hnone : (t.moduleName.elim c.names fun m => [m]).findSome? held = none := by
        rw [List.findSome?_eq_none_iff] at hanswer ⊢
        exact fun m hm => by simp [held, Option.map_eq_none_iff.mp (hanswer m hm)]
      rw [Finds, hfind, hnone]
      rfl
    · obtain ⟨before, m', after, happend, hm, hbefore⟩ := List.findSome?_eq_some_iff.mp hanswer
      obtain ⟨bytes', hbytes, heq⟩ := Option.map_eq_some_iff.mp hm
      obtain ⟨rfl, rfl⟩ := Prod.mk.inj heq
      obtain ⟨s, hs, hread⟩ := h.read _ _ _ hbytes
      have hsome : (t.moduleName.elim c.names fun m => [m]).findSome? held = some s := by
        refine List.findSome?_eq_some_iff.mpr ⟨before, m', after, happend, ?_, fun m hm => ?_⟩
        · simp only [held, hbytes, Option.bind_some, relative, hs]
        · simp [held, Option.map_eq_none_iff.mp (hbefore m hm)]
      refine ⟨s, hs, ?_, hread⟩
      rw [hfind, hsome]
      rfl
  · rw [ModuleMap.find?, hclass, if_pos rfl]
    simp [Finds, Location.ofImage, Location.findInImage, hclass, Except.map]

end ModuleImage

/-! ### Modules below directories -/

/-- The names below a directory are different ones. -/
theorem FileTree.WellFormed.pairwise_childrenOf {files : FileTree} (hw : files.WellFormed)
    (dir : Key) : (files.childrenOf dir).Pairwise fun a b => a.1 ≠ b.1 := by
  rw [childrenOf, List.pairwise_filterMap]
  refine (List.pairwise_map.mp hw.distinct).imp fun {e e'} hne found hfound found' hfound' heq => ?_
  -- a child comes from the entry that has its name below the directory
  have hkey : ∀ {e : Key × Node} {found : String × Node},
      found ∈ childrenOf ⟨[e], ⟨"/"⟩⟩ dir → e.1 = dir ++ [found.1] := fun hfound =>
    congrArg Prod.fst (List.mem_singleton.mp (mem_childrenOf.mp hfound)).symm
  have hchild : found ∈ childrenOf ⟨[e], ⟨"/"⟩⟩ dir :=
    List.mem_filterMap.mpr ⟨e, List.mem_singleton_self e, hfound⟩
  have hchild' : found' ∈ childrenOf ⟨[e'], ⟨"/"⟩⟩ dir :=
    List.mem_filterMap.mpr ⟨e', List.mem_singleton_self e', hfound'⟩
  exact hne ((hkey hchild).trans ((congrArg (dir ++ [·]) heq).trans (hkey hchild').symm))

namespace ModuleMap

variable {c : ModuleMap} {files : FileTree} {dir : Path} {key : Key} {m : ModuleName}
  {relative : String}

namespace StoredBelow

variable (h : c.StoredBelow files dir key)

include h

/-- A module is found in the directory of its name. -/
theorem locate_module (hm : m ∈ c.names) :
    files.locate .target (dir.join ⟨m.text⟩) = .ok (key ++ [m.text]) := by
  have hname := isModuleName_of_mem hm
  have hnames := FileTree.names_of_slashless (hname.not_mem (d := '/') (by simp))
  have hdir : (key ++ FileTree.names ⟨m.text⟩, Node.directory) ∈ files.nodes := by
    rw [hnames]
    exact FileTree.mem_of_node? (by simp) ((h.modules m).mpr hm)
  rw [h.wellFormed.locate_join_eq h.located hdir (by simp) (h.fits m hm), hnames]

theorem walk_module (hm : m ∈ c.names) :
    files.walk (dir.join ⟨m.text⟩) = .ok (files.filesBelow (key ++ [m.text])) :=
  FileTree.walk_of_locate (h.locate_module hm) ((h.modules m).mpr hm)

/-- What is below the directory of a module are its files. -/
theorem mem_filesBelow (hm : m ∈ c.names) :
    FileTree.names ⟨relative⟩ ∈ files.filesBelow (key ++ [m.text]) ↔
      (c.bytes? m relative).isSome := by
  rw [FileTree.mem_filesBelow, ← h.stored m hm relative, List.append_assoc, List.singleton_append]
  constructor
  · rintro ⟨-, contents, executable, hmem⟩
    rw [h.wellFormed.node?_eq hmem]
    rfl
  · intro hsome
    obtain ⟨bytes, hbytes⟩ := Option.isSome_iff_exists.mp hsome
    obtain ⟨node, hnode, hcontents⟩ := Option.bind_eq_some_iff.mp hbytes
    rcases node with ⟨contents, executable⟩ | _ | _
    · exact ⟨FileTree.names_ne_nil _, contents, executable,
        FileTree.mem_of_node? (by simp) hnode⟩
    · cases hcontents
    · cases hcontents

/-- **A file of a module is found below its directory**, and nothing else. -/
theorem isFile_iff (hm : m ∈ c.names)
    (hplain : ∀ name ∈ FileTree.names ⟨relative⟩, FileTree.IsPlainName name) :
    files.isFile ((dir.join ⟨m.text⟩).join ⟨relative⟩) = true ↔
      (c.bytes? m relative).isSome := by
  rw [← h.mem_filesBelow hm]
  refine FileTree.isFile_join_iff h.wellFormed (h.walk_module hm) hplain (fun _ found hfound => ?_)
    fun hmem => h.fitsFile m relative ((h.mem_filesBelow hm).mp hmem)
  obtain rfl : key ++ [m.text] = found := Except.ok.inj ((h.locate_module hm).symm.trans hfound)
  intro before _ _ target
  rw [List.append_assoc]
  exact h.unlinked _ target

/-- **A file of a module holds what it should.** -/
theorem read_file {bytes : Bytes} (hbytes : c.bytes? m relative = some bytes) :
    (files.read ((dir.join ⟨m.text⟩).join ⟨relative⟩)).map Contents.bytes = .ok bytes := by
  obtain ⟨hm, -⟩ := of_bytes?_isSome (by rw [hbytes]; rfl)
  have hfits := h.fitsFile m relative (by rw [hbytes]; rfl)
  have hstored := h.stored m hm relative
  rw [hbytes] at hstored
  obtain ⟨node, hnode, hcontents⟩ := Option.bind_eq_some_iff.mp hstored
  rcases node with ⟨contents, executable⟩ | _ | _
  · have hmem := FileTree.mem_of_node? (by simp) hnode
    have hbelow : (key ++ [m.text] ++ FileTree.names ⟨relative⟩,
        Node.file contents executable) ∈ files.nodes := by
      rwa [List.append_assoc]
    have hlocate : files.locate .target ((dir.join ⟨m.text⟩).join ⟨relative⟩) =
        .ok (key ++ m.text :: FileTree.names ⟨relative⟩) := by
      rw [h.wellFormed.locate_join_eq (h.locate_module hm) hbelow (by simp) hfits,
        List.append_assoc, List.singleton_append]
    simp only [FileTree.read, hlocate, bind, Except.bind, hnode]
    exact congrArg Except.ok (Option.some.inj hcontents)
  · cases hcontents
  · cases hcontents

/-- **The modules are the directories.** -/
theorem modules_eq {i : ModuleImage} {w : World} (hfiles : w.files = files)
    (hlayout : i.layout = .exploded dir) : i.modules w = .ok c.names := by
  have hentries : w.files.entryNames dir = .ok (files.childrenOf key) := by
    rw [hfiles]
    simp only [FileTree.entryNames, bind, Except.bind, h.located, h.directory]
  let found := (files.childrenOf key).filterMap fun e =>
    if e.2 = Node.directory then some (ModuleName.mk e.1) else none
  have hmodules : i.modules w = .ok (found.mergeSort ModuleName.le) := by
    rw [ModuleImage.modules, hlayout]
    simp only [hentries]
    rfl
  have hnodup : found.Nodup := by
    refine List.pairwise_filterMap.mpr ((h.wellFormed.pairwise_childrenOf key).imp ?_)
    intro e e' hne a ha b hb hab
    split_ifs at ha hb
    rw [← Option.some.inj ha, ← Option.some.inj hb] at hab
    exact hne (congrArg ModuleName.text hab)
  have hmem : ∀ m, m ∈ found ↔ m ∈ c.names := by
    intro m
    rw [← h.modules m, List.mem_filterMap]
    constructor
    · rintro ⟨⟨name, node⟩, he, hsome⟩
      split_ifs at hsome with hnode
      obtain rfl := Option.some.inj hsome
      simp only at hnode
      subst hnode
      exact h.wellFormed.node?_eq (FileTree.mem_childrenOf.mp he)
    · intro hdir
      exact ⟨(m.text, .directory), FileTree.mem_childrenOf.mpr
        (FileTree.mem_of_node? (by simp) hdir), by simp⟩
  refine hmodules.trans (congrArg Except.ok (eq_names ?_ (fun m => ?_) ?_))
  · exact (List.mergeSort_perm found _).nodup_iff.mpr hnodup
  · exact List.mem_mergeSort.trans (hmem m)
  · exact ModuleName.pairwise_mergeSort id found

/-- Below a name that is no module there is nothing to walk over. -/
theorem walk_missing (hm : m ∉ c.names) (hname : FileTree.IsPlainName m.text)
    (hslash : '/' ∉ m.text.toList) {keys : List Key}
    (hwalk : files.walk (dir.join ⟨m.text⟩) = .ok keys) : keys = [] := by
  have hnames := FileTree.names_of_slashless hslash
  have hplain : ∀ name ∈ FileTree.names ⟨m.text⟩, FileTree.IsPlainName name := by
    simpa [hnames] using hname
  obtain ⟨found, hfound, ⟨hdir, -⟩ | ⟨-, hkeys⟩⟩ := FileTree.walk_eq_ok hwalk
  · have hunlinked : files.Unlinked key (FileTree.names ⟨m.text⟩) :=
      fun before _ _ target => h.unlinked before target
    rw [hunlinked.eq_of_locate_join h.located hplain hfound, hnames] at hdir
    exact absurd ((h.modules m).mp hdir) hm
  · exact hkeys

section Image

variable {i : ModuleImage} {w : World}

omit h in
/-- A file of a module is kept below the directory of the module. -/
theorem place?_eq (hlayout : i.layout = .exploded dir) (hm : m ∈ c.names) (relative : String) :
    i.place? m relative = some (.file ((dir.join ⟨m.text⟩).join ⟨relative⟩)) := by
  simp only [ModuleImage.place?, hlayout, (isModuleName_of_mem hm).moduleRoot?_eq dir,
    Option.map_some]

/-- **A file is found where the module keeps it**, and in no other module. -/
theorem lookup_fst (hfiles : w.files = files) (hlayout : i.layout = .exploded dir)
    (hplain : ∀ name ∈ FileTree.names ⟨relative⟩, FileTree.IsPlainName name) (m : ModuleName) :
    (i.lookup m relative w).1 = .ok ((c.bytes? m relative).bind fun _ => i.place? m relative) := by
  by_cases hm : m ∈ c.names
  · have hroot := (isModuleName_of_mem hm).moduleRoot?_eq dir
    have hfile := h.isFile_iff hm hplain
    rw [ModuleImage.lookup_below hlayout hroot, hfiles, place?_eq hlayout hm]
    rcases hbytes : c.bytes? m relative with _ | bytes <;> rw [hbytes] at hfile
    · rw [if_neg (by simp [hfile])]
      rfl
    · rw [if_pos (hfile.mpr rfl)]
      rfl
  · rw [bytes?_of_not_mem hm, Option.bind_none]
    rcases hroot : ModuleImage.moduleRoot? dir m with _ | root
    · rw [ModuleImage.IsMissing.lookup (.inl ⟨dir, hlayout, hroot⟩)]
    · obtain ⟨rfl, hname, hslash⟩ := ModuleImage.of_moduleRoot? hroot
      have hfile := FileTree.isFile_join_join_eq_false h.located hname hslash hplain
        (fun hdir => hm ((h.modules m).mp hdir))
        fun _ before _ _ target => h.unlinked before target
      rw [ModuleImage.lookup_below hlayout hroot, hfiles, hfile]
      rfl

/-- **What a module lists** are the files below its directory that are read as classes. -/
theorem exists_lists (hfiles : w.files = files) (hlayout : i.layout = .exploded dir)
    (hm : m ∈ c.names) (extension : String) (ids : Naming) :
    ∃ found, i.Lists c m extension ids w found := by
  let read (names : Key) : Option (ClassType × String) :=
    (ids.ofPath? ⟨"/".intercalate names⟩ extension (some m)).map (·, "/".intercalate names)
  let found := (files.filesBelow (key ++ [m.text])).filterMap read
  refine ⟨found, ⟨_, place?_eq hlayout hm, ?_⟩, fun t relative => ?_⟩
  · have hroot := (isModuleName_of_mem hm).moduleRoot?_eq dir
    rw [ModuleImage.entries_below hlayout hroot, storedClasses, hfiles, h.walk_module hm]
    simp only [Except.map, found, read, List.map_filterMap, Option.map_map]
    rfl
  · simp only [found, read, List.mem_filterMap, Option.map_eq_some_iff, Prod.mk.injEq]
    constructor
    · rintro ⟨names, hnames, t, hread, rfl, rfl⟩
      obtain ⟨hne, hplain⟩ := h.wellFormed.plain_of_mem_walk (h.walk_module hm) hnames
      rw [← names_intercalate hne fun name hname => (hplain name hname).2] at hnames
      have hbytes := (h.mem_filesBelow hm).mp hnames
      exact ⟨((of_bytes?_isSome hbytes).2.ofPath?_eq_some_iff).mp hread, hbytes⟩
    · rintro ⟨hstored, hbytes⟩
      refine ⟨FileTree.names ⟨relative⟩, (h.mem_filesBelow hm).mpr hbytes, t, ?_, rfl,
        intercalate_names _⟩
      rw [intercalate_names]
      exact ((of_bytes?_isSome hbytes).2.ofPath?_eq_some_iff).mpr hstored

/-- What is no module lists nothing. -/
theorem entries_missing (hfiles : w.files = files) (hlayout : i.layout = .exploded dir)
    (hm : m ∉ c.names) {extension : String} {ids : Naming}
    {found : List (ClassType × StoredClass)}
    (hentries : (i.entries m extension ids w).1 = .ok found) : found = [] := by
  rcases hroot : ModuleImage.moduleRoot? dir m with _ | root
  · rw [ModuleImage.IsMissing.entries (.inl ⟨dir, hlayout, hroot⟩)] at hentries
    exact (Except.ok.inj hentries).symm
  · obtain ⟨rfl, hname, hslash⟩ := ModuleImage.of_moduleRoot? hroot
    rw [ModuleImage.entries_below hlayout hroot, storedClasses, hfiles] at hentries
    rcases hwalk : files.walk (dir.join ⟨m.text⟩) with fault | keys <;> rw [hwalk] at hentries
    · cases hentries
    · rw [h.walk_missing hm hname hslash hwalk] at hentries
      exact (Except.ok.inj hentries).symm

/-- **Modules below directories show their files.** -/
theorem shows (hfiles : w.files = files) (hlayout : i.layout = .exploded dir) : i.Shows c w where
  toldApart archives harchives := by
    rw [hlayout] at harchives
    cases harchives
  modules := h.modules_eq hfiles hlayout
  lookup t frontend m ht := h.lookup_fst hfiles hlayout (isPlainName_of_mem
    (ht.not_mem (c := '/') (by simp)) ht.isSegmented frontend.slashless_extension) m
  read m relative bytes hbytes := by
    have hm : m ∈ c.names := (of_bytes?_isSome (by rw [hbytes]; rfl)).1
    refine ⟨_, place?_eq hlayout hm relative, ?_⟩
    have hread := h.read_file hbytes
    rw [← hfiles] at hread
    simp only [StoredClass.read, hread, Except.mapError]
  lists m hm extension ids := h.exists_lists hfiles hlayout hm extension ids
  missing m hm extension ids found := h.entries_missing hfiles hlayout hm

end Image

end StoredBelow

/-! ### Modules in archives -/

section Archives

variable {i : ModuleImage} {w : World} {archives : List (ModuleName × Archive)} {a : Archive}
  {d : ArchiveDirectory}

theorem HeldIn.find?_append (hd : c.HeldIn m d) (relative : String) :
    (d.find? (ModuleImage.classesFolder ++ relative)).map ArchivedFile.contents =
      (c.bytes? m relative).map .ok := by
  rw [hd, String.toList_append, isPrefixOf?_append, Option.bind_some, String.ofList_toList]

theorem HeldIn.isSome_find? (hd : c.HeldIn m d) (relative : String) :
    (d.find? (ModuleImage.classesFolder ++ relative)).isSome = (c.bytes? m relative).isSome := by
  simpa using congrArg Option.isSome (hd.find?_append relative)

theorem HeldIn.inReach (hd : c.HeldIn m d) (name : String) : d.InReach name := by
  intro file hfile
  have hheld := hd name
  rw [hfile, Option.map_some] at hheld
  obtain ⟨bytes, -, hbytes⟩ := Option.map_eq_some_iff.mp hheld.symm
  exact file.reach_of_contents hbytes.symm

/-- An archive of contents as they are. -/
theorem heldIn_of_plain {entries : List (String × Bytes)}
    (h : ∀ name, entries.lookup name =
      (ModuleImage.classesFolder.toList.isPrefixOf? name.toList).bind
        fun relative => c.bytes? m (String.ofList relative)) :
    c.HeldIn m ⟨entries.map fun (name, bytes) => (name, .plain bytes)⟩ := by
  intro name
  rw [← h name, ArchiveDirectory.find?]
  clear h
  induction entries with
  | nil => rfl
  | cons e entries ih =>
    rw [List.map_cons, List.lookup_cons, List.lookup_cons]
    rcases name == e.1 with _ | _
    · exact ih
    · rfl

/-- What an archive of a module holds is a file of the module. -/
theorem HeldIn.exists_of_mem (hd : c.HeldIn m d) {name : String}
    (hname : name ∈ d.names) :
    ∃ relative, name = ModuleImage.classesFolder ++ relative ∧ (c.bytes? m relative).isSome := by
  have hsome := ArchiveDirectory.isSome_find?_iff.mpr hname
  rw [← Option.isSome_map (f := ArchivedFile.contents), hd, Option.isSome_map] at hsome
  rcases hstart : ModuleImage.classesFolder.toList.isPrefixOf? name.toList with _ | relative
  · rw [hstart] at hsome
    cases hsome
  · rw [hstart] at hsome
    refine ⟨String.ofList relative, String.toList_inj.mp ?_, hsome⟩
    rw [String.toList_append, String.toList_ofList]
    exact (List.isPrefixOf?_eq_some_iff_append_eq.mp hstart).symm

/-- **What an archive of a module lists.** -/
theorem HeldIn.exists_lists (hd : c.HeldIn m d) (hlayout : i.layout = .archived archives)
    (ha : archives.lookup m = some a) (hopened : (a.opened w).1 = .ok d) (extension : String)
    (ids : Naming) : ∃ found, i.Lists c m extension ids w found := by
  let read (relative : String) : Option (ClassType × String) :=
    (ids.ofPath? ⟨relative⟩ extension (some m)).map (·, relative)
  let found := d.names.filterMap fun name =>
    (ModuleImage.classesFolder.toList.isPrefixOf? name.toList).bind fun relative =>
      read (String.ofList relative)
  refine ⟨found, ⟨fun relative => .entry a (ModuleImage.classesFolder ++ relative),
    fun relative => ?_, ?_⟩, fun t relative => ?_⟩
  · simp only [ModuleImage.place?, hlayout, ha, Option.map_some]
  · rw [ModuleImage.entries_within hlayout ha, Archive.names_fst hopened]
    refine congrArg Except.ok ?_
    rw [List.map_filterMap]
    refine List.filterMap_congr fun name hname => ?_
    obtain ⟨relative, rfl, hbytes⟩ := hd.exists_of_mem hname
    rw [(of_bytes?_isSome hbytes).2.archivedClass?_eq, String.toList_append, isPrefixOf?_append,
      Option.bind_some, String.ofList_toList, Option.map_map]
    rfl
  · simp only [found, List.mem_filterMap]
    constructor
    · rintro ⟨name, hname, hread⟩
      obtain ⟨relative', rfl, hbytes⟩ := hd.exists_of_mem hname
      rw [String.toList_append, isPrefixOf?_append, Option.bind_some, String.ofList_toList] at hread
      obtain ⟨t', ht', heq⟩ := Option.map_eq_some_iff.mp hread
      obtain ⟨rfl, rfl⟩ := Prod.mk.inj heq
      exact ⟨((of_bytes?_isSome hbytes).2.ofPath?_eq_some_iff).mp ht', hbytes⟩
    · rintro ⟨hstored, hbytes⟩
      refine ⟨ModuleImage.classesFolder ++ relative, ?_, ?_⟩
      · rw [← ArchiveDirectory.isSome_find?_iff, hd.isSome_find?]
        exact hbytes
      · rw [String.toList_append, isPrefixOf?_append, Option.bind_some, String.ofList_toList]
        exact Option.map_eq_some_iff.mpr
          ⟨t, ((of_bytes?_isSome hbytes).2.ofPath?_eq_some_iff).mpr hstored, rfl⟩

/-- **A file is found in the archive that holds it.** -/
theorem HeldIn.lookup_fst (hd : c.HeldIn m d) (hlayout : i.layout = .archived archives)
    (ha : archives.lookup m = some a) (hopened : (a.opened w).1 = .ok d) (t : ClassType)
    (frontend : Frontend) : (i.lookup m (t.relativePath frontend.extension) w).1 =
      .ok ((c.bytes? m (t.relativePath frontend.extension)).bind fun _ =>
        i.place? m (t.relativePath frontend.extension)) := by
  have hfile : ArchiveDirectory.isDirectoryName
      (ModuleImage.classesFolder ++ t.relativePath frontend.extension) = false := by
    rw [ClassType.relativePath, ← String.append_assoc]
    exact frontend.isDirectoryName_append _
  rw [ModuleImage.lookup_within hlayout ha, Archive.contains_fst hopened (hd.inReach _) hfile,
    hd.isSome_find?]
  simp only [ModuleImage.place?, hlayout, ha, Option.map_some]
  rcases c.bytes? m (t.relativePath frontend.extension) with _ | bytes <;> rfl

/-- **The entry of a file holds what it should.** -/
theorem HeldIn.read_entry (hd : c.HeldIn m d) (hopened : (a.opened w).1 = .ok d) {bytes : Bytes}
    (hbytes : c.bytes? m relative = some bytes) :
    ((StoredClass.entry a (ModuleImage.classesFolder ++ relative)).read w).1 = .ok bytes := by
  have hread : (a.read (ModuleImage.classesFolder ++ relative) w).1 = .ok (some bytes) := by
    have hheld := hd.find?_append relative
    rw [hbytes] at hheld
    obtain ⟨file, hfile, hcontents⟩ := Option.map_eq_some_iff.mp hheld
    rw [Archive.read, Archive.ask_fst hopened, hfile]
    simp only [hcontents]
    rfl
  rcases hanswer : a.read (ModuleImage.classesFolder ++ relative) w with ⟨answer, w'⟩
  rw [hanswer] at hread
  subst hread
  simp only [StoredClass.read, hanswer]

/-- **Modules in archives show their files.** -/
theorem shows_of_archives (hlayout : i.layout = .archived archives) (hi : i.ToldApart)
    (hnames : archives.map Prod.fst = c.names)
    (hheld : ∀ e ∈ archives, ∃ d, (e.2.opened w).1 = .ok d ∧ c.HeldIn e.1 d) : i.Shows c w := by
  have hlookup : ∀ m ∈ c.names, ∃ a d, archives.lookup m = some a ∧
      (a.opened w).1 = .ok d ∧ c.HeldIn m d := by
    intro m hm
    rcases ha : archives.lookup m with _ | a
    · rw [← hnames] at hm
      obtain ⟨e, he, rfl⟩ := List.mem_map.mp hm
      have hne := List.lookup_eq_none_iff.mp ha e he
      simp at hne
    · obtain ⟨d, hopened, hd⟩ := hheld _ (ModuleImage.mem_of_lookup ha)
      exact ⟨a, d, rfl, hopened, hd⟩
  have hmissing : ∀ m, m ∉ c.names → i.IsMissing m := by
    intro m hm
    refine .inr ⟨archives, hlayout, List.lookup_eq_none_iff.mpr fun e he => ?_⟩
    rw [← hnames] at hm
    simpa using ne_of_mem_of_not_mem (List.mem_map_of_mem he) hm |>.symm
  refine { toldApart := hi, modules := ?_, lookup := ?_, read := ?_, lists := ?_, missing := ?_ }
  · rw [ModuleImage.modules, hlayout, ← hnames]
  · intro t frontend m _
    by_cases hm : m ∈ c.names
    · obtain ⟨a, d, ha, hopened, hd⟩ := hlookup m hm
      exact hd.lookup_fst hlayout ha hopened t frontend
    · rw [(hmissing m hm).lookup, bytes?_of_not_mem hm]
      rfl
  · intro m relative bytes hbytes
    obtain ⟨a, d, ha, hopened, hd⟩ := hlookup m (of_bytes?_isSome (by rw [hbytes]; rfl)).1
    refine ⟨.entry a (ModuleImage.classesFolder ++ relative), ?_, hd.read_entry hopened hbytes⟩
    simp only [ModuleImage.place?, hlayout, ha, Option.map_some]
  · intro m hm extension ids
    obtain ⟨a, d, ha, hopened, hd⟩ := hlookup m hm
    exact hd.exists_lists hlayout ha hopened extension ids
  · intro m hm extension ids found hentries
    rw [(hmissing m hm).entries] at hentries
    exact (Except.ok.inj hentries).symm

end Archives

/-! ### Opening an image -/

section Opening

variable {w : World} {root : Path}

/-- **Modules below directories are opened as such.** -/
theorem StoredBelow.open_eq (h : c.StoredBelow w.files (root.join ⟨"modules"⟩) key) :
    ModuleImage.open root w = (.ok ⟨root, .exploded (root.join ⟨"modules"⟩)⟩, w) := by
  have hdirectory : w.files.isDirectory (root.join ⟨"modules"⟩) = true := by
    simp only [FileTree.isDirectory, FileTree.target?, h.located, h.directory, decide_true]
  rw [ModuleImage.open, if_pos hdirectory]

theorem archiveModule?_eq (hm : IsModuleName m) :
    ModuleImage.archiveModule? (m.text ++ ".jmod") = some m := by
  have hsplit : Path.splitExtension (m.text ++ ".jmod").toList =
      (m.text.toList, some "jmod".toList) := by
    rw [String.toList_append]
    exact Path.splitExtension_append (by simpa using hm.isPlainName.1) (by decide)
  rw [ModuleImage.archiveModule?, hsplit]
  simp

namespace StoredIn

variable (h : c.StoredIn w.files dir key)

include h

/-- The archive of a module is a file. -/
theorem isFile_archive (hm : m ∈ c.names) :
    w.files.isFile (dir.join ⟨m.text ++ ".jmod"⟩) = true := by
  obtain ⟨-, d, hd, -⟩ := h.stored m hm
  rw [Archive.directory] at hd
  rcases hread : w.files.read (dir.join ⟨m.text ++ ".jmod"⟩) with fault | contents <;>
    rw [hread] at hd
  · cases hd
  · rw [FileTree.read] at hread
    rcases hlocate : w.files.locate .target (dir.join ⟨m.text ++ ".jmod"⟩) with fault | found <;>
      rw [hlocate] at hread
    · cases hread
    · simp only [bind, Except.bind] at hread
      split at hread
      · rename_i hnode
        exact FileTree.isFile_iff.mpr ⟨found, _, _, hlocate, hnode⟩
      · cases hread
      · cases hread

/-- The names in the directory are those of the archives. -/
theorem mem_childrenOf {name : String} : name ∈ (w.files.childrenOf key).map Prod.fst ↔
    ∃ m ∈ c.names, name = m.text ++ ".jmod" := by
  constructor
  · intro hname
    obtain ⟨⟨name, node⟩, hmem, rfl⟩ := List.mem_map.mp hname
    exact h.listed name node (FileTree.mem_childrenOf.mp hmem)
  · rintro ⟨m, hm, rfl⟩
    obtain ⟨⟨node, hnode⟩, -⟩ := h.stored m hm
    exact List.mem_map.mpr ⟨(m.text ++ ".jmod", node), FileTree.mem_childrenOf.mpr hnode, rfl⟩

/-- **The archives in a directory are those of the modules**, in the order of these. -/
theorem archivesIn_eq : ModuleImage.archivesIn dir w = .ok (c.archives dir) := by
  let names := (w.files.childrenOf key).map Prod.fst
  let read (name : String) : Option (ModuleName × Path) := do
    let m ← ModuleImage.archiveModule? name
    if w.files.isFile (dir.join ⟨name⟩) then some (m, dir.join ⟨name⟩) else none
  let found := (names.filterMap read).mergeSort fun a b => a.1.le b.1
  have harchives : ModuleImage.archivesIn dir w = .ok found := by
    have hentries : w.files.entryNames dir = .ok (w.files.childrenOf key) := by
      simp only [FileTree.entryNames, bind, Except.bind, h.located, h.directory]
    rw [ModuleImage.archivesIn, hentries]
    rfl
  have hread : ∀ m ∈ c.names,
      read (m.text ++ ".jmod") = some (m, dir.join ⟨m.text ++ ".jmod"⟩) := by
    intro m hm
    simp only [read, archiveModule?_eq (isModuleName_of_mem hm), h.isFile_archive hm, if_true,
      Option.bind_eq_bind, Option.bind_some]
  have hmem : ∀ e, e ∈ found ↔ e.1 ∈ c.names ∧ e.2 = dir.join ⟨e.1.text ++ ".jmod"⟩ := by
    rintro ⟨m, path⟩
    rw [List.mem_mergeSort, List.mem_filterMap]
    constructor
    · rintro ⟨name, hname, hsome⟩
      obtain ⟨m', hm', rfl⟩ := h.mem_childrenOf.mp hname
      obtain ⟨rfl, rfl⟩ := Prod.mk.inj (Option.some.inj ((hread m' hm').symm.trans hsome))
      exact ⟨hm', rfl⟩
    · rintro ⟨hm, hpath⟩
      refine ⟨m.text ++ ".jmod", h.mem_childrenOf.mpr ⟨m, hm, rfl⟩, ?_⟩
      rw [hread m hm, ← hpath]
  have hdistinct : (names.filterMap read).Pairwise fun a b => a.1 ≠ b.1 := by
    have hnames : names.Pairwise (· ≠ ·) :=
      List.pairwise_map.mpr (h.wellFormed.pairwise_childrenOf key)
    refine List.pairwise_filterMap.mpr (hnames.imp_of_mem ?_)
    intro name name' hname hname' hne e he e' he' heq
    obtain ⟨m, hm, rfl⟩ := h.mem_childrenOf.mp hname
    obtain ⟨m', hm', rfl⟩ := h.mem_childrenOf.mp hname'
    obtain rfl := Option.some.inj ((hread m hm).symm.trans he)
    obtain rfl := Option.some.inj ((hread m' hm').symm.trans he')
    exact hne (congrArg (fun m : ModuleName => m.text ++ ".jmod") heq)
  have hmodules : found.map Prod.fst = c.names := by
    refine eq_names ?_ (fun m => ?_) ?_
    · exact ((List.mergeSort_perm _ _).map Prod.fst).nodup_iff.mpr (List.pairwise_map.mpr hdistinct)
    · rw [List.mem_map]
      constructor
      · rintro ⟨e, he, rfl⟩
        exact ((hmem e).mp he).1
      · exact fun hm => ⟨(m, dir.join ⟨m.text ++ ".jmod"⟩), (hmem _).mpr ⟨hm, rfl⟩, rfl⟩
    · exact List.pairwise_map.mpr (ModuleName.pairwise_mergeSort Prod.fst _)
  rw [harchives, archives, ← hmodules, List.map_map]
  refine congrArg Except.ok ((List.map_id found).symm.trans (List.map_congr_left fun e he => ?_))
  exact Prod.ext rfl ((hmem e).mp he).2

end StoredIn

/-- **Modules in archives are opened as such.** -/
theorem StoredIn.open_eq (h : c.StoredIn w.files (root.join ⟨"jmods"⟩) key)
    (hmodules : w.files.isDirectory (root.join ⟨"modules"⟩) = false) :
    ModuleImage.open root w =
      (.ok ⟨root, .archived (ModuleImage.number (c.archives (root.join ⟨"jmods"⟩)) w).1⟩,
        (ModuleImage.number (c.archives (root.join ⟨"jmods"⟩)) w).2) := by
  have hdirectory : w.files.isDirectory (root.join ⟨"jmods"⟩) = true := by
    simp only [FileTree.isDirectory, FileTree.target?, h.located, h.directory, decide_true]
  rw [ModuleImage.open, hmodules, if_neg (by simp), if_pos hdirectory, h.archivesIn_eq]

end Opening

end ModuleMap

end Classpath

import Classpath.Proofs.Store.Containment

/-!
# Which module a class comes from

An image looks for a class in the module that the class names, or in all of its modules if the class
names none. The modules are asked in the order of their names, and the first one that stores the
path of the class answers, so the class comes from the least module that stores it. What a module
stores is said by what the image is made of: a file below the directory of the module, or an entry
in the folder of classes of its archive.

* `Classpath.ModuleImage.Stores` – that a module stores a path.
* `Classpath.ModuleImage.Readable` – images in which nothing is in the way of a lookup.
* `Classpath.ModuleImage.lookup_fst` – what one module answers.
* `Classpath.ModuleImage.exists_first` – the first of some modules in order is the least one.
* `Classpath.ModuleImage.resolution` – what the image finds.
-/

namespace Classpath

namespace ModuleImage

variable {i : ModuleImage} {m : ModuleName} {w w₀ : World} {dir root : Path} {key : Key}
  {relative : String} {modules : List ModuleName}

/-- **A module stores a path**: as a file below its directory, or as an entry of its archive. -/
def Stores (i : ModuleImage) (m : ModuleName) (relative : String) (w : World) : Prop :=
  match i.layout with
  | .exploded dir => ∃ key contents executable, w.files.locate .target dir = .ok key ∧
      w.files.node? (key ++ m.text :: FileTree.names ⟨relative⟩) =
        some (.file contents executable)
  | .archived archives => ∃ a d, archives.lookup m = some a ∧ (a.opened w).1 = .ok d ∧
      (d.find? (classesFolder ++ relative)).isSome

/-- **A directory of modules that can be read**: the directory is there, no links are below it, and
no file is too far down to be reached. -/
structure ReadableBelow (dir : Path) (w : World) (key : Key) : Prop where
  located : w.files.locate .target dir = .ok key
  directory : w.files.node? key = some .directory
  unlinked : ∀ names target, w.files.node? (key ++ names) ≠ some (.link target)
  fits : ∀ (m : ModuleName) (relative : String) contents executable,
    w.files.node? (key ++ m.text :: FileTree.names ⟨relative⟩) =
      some (.file contents executable) →
    ((dir.join ⟨m.text⟩).join ⟨relative⟩).text.utf8ByteSize ≤ FileTree.maxPath

/-- **An image that can be read**, in either layout: its directory of modules, or all of its
archives with what is in them. -/
def Readable (i : ModuleImage) (w : World) : Prop :=
  match i.layout with
  | .exploded dir => ∃ key, ReadableBelow dir w key
  | .archived archives => ∀ e ∈ archives, ∃ d, (e.2.opened w).1 = .ok d ∧ ∀ name, d.InReach name

theorem stores_exploded (hlayout : i.layout = .exploded dir) : i.Stores m relative w ↔
    ∃ key contents executable, w.files.locate .target dir = .ok key ∧
      w.files.node? (key ++ m.text :: FileTree.names ⟨relative⟩) =
        some (.file contents executable) := by
  rw [Stores, hlayout]

theorem stores_archived {archives : List (ModuleName × Archive)}
    (hlayout : i.layout = .archived archives) : i.Stores m relative w ↔
    ∃ a d, archives.lookup m = some a ∧ (a.opened w).1 = .ok d ∧
      (d.find? (classesFolder ++ relative)).isSome := by
  rw [Stores, hlayout]

/-! ### The modules -/

theorem exists_modules (h : i.Readable w) : ∃ modules, i.modules w = .ok modules := by
  rw [Readable] at h
  rw [ModuleImage.modules]
  rcases hlayout : i.layout with dir | archives <;> rw [hlayout] at h
  · obtain ⟨key, hkey⟩ := h
    have hentries : w.files.entryNames dir = .ok (w.files.childrenOf key) := by
      simp only [FileTree.entryNames, bind, Except.bind, hkey.located, hkey.directory]
    simp only [hentries]
    exact ⟨_, rfl⟩
  · exact ⟨_, rfl⟩

/-- **The modules are listed in order.** -/
theorem pairwise_modules (hopen : (ModuleImage.open root w₀).1 = .ok i)
    (h : i.modules w = .ok modules) : modules.Pairwise fun a b => a.le b := by
  obtain ⟨rfl, hlayout | ⟨found, hfound, hlayout⟩⟩ := of_open_eq_ok hopen
  · rw [ModuleImage.modules, hlayout] at h
    rcases hentries : w.files.entryNames (i.root.join ⟨"modules"⟩) with fault | entries
    · simp only [hentries] at h
      cases h
    · simp only [hentries] at h
      rw [← Except.ok.inj h]
      exact ModuleName.pairwise_mergeSort id _
  · rw [ModuleImage.modules, hlayout] at h
    have hnames : modules = found.map Prod.fst := by
      have hpaths := congrArg (List.map Prod.fst) (number_paths found w₀)
      rw [List.map_map] at hpaths
      exact (Except.ok.inj h).symm.trans hpaths
    rw [hnames, List.pairwise_map]
    rw [archivesIn] at hfound
    rcases hentries : w₀.files.entryNames (i.root.join ⟨"jmods"⟩) with fault | entries
    · rw [hentries] at hfound
      cases hfound
    · rw [hentries] at hfound
      rw [← Except.ok.inj hfound]
      exact ModuleName.pairwise_mergeSort Prod.fst _

/-! ### What one module answers -/

/-- **The files of a module are found below its directory**, and nothing else is. -/
theorem ReadableBelow.isFile_iff (h : ReadableBelow dir w key) (hw : w.files.WellFormed)
    (hname : FileTree.IsPlainName m.text) (hslash : '/' ∉ m.text.toList)
    (hplain : ∀ name ∈ FileTree.names ⟨relative⟩, FileTree.IsPlainName name) :
    w.files.isFile ((dir.join ⟨m.text⟩).join ⟨relative⟩) = true ↔
      ∃ contents executable, w.files.node? (key ++ m.text :: FileTree.names ⟨relative⟩) =
        some (.file contents executable) := by
  have hrelative := FileTree.isAbsolute_of_names hplain
  constructor
  · intro hfile
    obtain ⟨found, contents, executable, hlocate, hnode⟩ := FileTree.isFile_iff.mp hfile
    obtain ⟨n, names, hnames, hfrom⟩ := FileTree.exists_locateFrom_of_join_join h.located hname
      hslash (fun before _ _ => h.unlinked before) hrelative hlocate
    rw [FileTree.filter_names_of_plain hplain, or_self] at hnames
    have hunlinked : w.files.Unlinked (key ++ [m.text]) names := by
      intro before _ _ target
      rw [List.append_assoc]
      exact h.unlinked _ target
    rw [hunlinked.eq_append (hnames ▸ hplain) hfrom, hnames, List.append_assoc,
      List.singleton_append] at hnode
    exact ⟨contents, executable, hnode⟩
  · rintro ⟨contents, executable, hnode⟩
    have hmem := FileTree.mem_of_node? (by simp) hnode
    have hnames := FileTree.names_name_append hslash ⟨relative⟩
    have hjoin := FileTree.join_join (FileTree.of_locate_eq_ok h.located).1 hname.1 hslash hrelative
    have hfits := h.fits m relative contents executable hnode
    rw [hjoin] at hfits ⊢
    rw [← hnames] at hmem hnode
    exact FileTree.isFile_iff.mpr ⟨_, contents, executable,
      hw.locate_join_eq h.located hmem (by simp) hfits, hnode⟩

/-- **Only a module of the image stores anything.** -/
theorem Stores.mem_modules (h : i.Stores m relative w) (hw : w.files.WellFormed)
    (hmodules : i.modules w = .ok modules) : m ∈ modules := by
  rcases hlayout : i.layout with dir | archives
  · obtain ⟨key, contents, executable, hkey, hnode⟩ := (stores_exploded hlayout).mp h
    obtain ⟨key', hkey', hmem⟩ := ModuleImage.mem_modules hlayout hmodules
    obtain rfl := Except.ok.inj (hkey.symm.trans hkey')
    have hdir := hw.directory_of_below hnode (FileTree.names_ne_nil _)
    exact (hmem m).mpr (FileTree.mem_of_node? (by simp) hdir)
  · obtain ⟨a, d, hm, -⟩ := (stores_archived hlayout).mp h
    rw [ModuleImage.modules, hlayout] at hmodules
    rw [← Except.ok.inj hmodules]
    exact List.mem_map.mpr ⟨(m, a), mem_of_lookup hm, rfl⟩

/-- **What is stored has a place**, if no name of a module has a backslash, for which there are no
subtrees. -/
theorem Stores.exists_place? (h : i.Stores m relative w) (hw : w.files.WellFormed)
    (hmodules : i.modules w = .ok modules) (hback : ∀ m ∈ modules, '\\' ∉ m.text.toList) :
    ∃ s, i.place? m relative = some s := by
  have hm := h.mem_modules hw hmodules
  rcases hlayout : i.layout with dir | archives
  · obtain ⟨key, -, hmem⟩ := ModuleImage.mem_modules hlayout hmodules
    have hname := hw.named _ ((hmem m).mp hm) m.text (by simp)
    rw [place?, hlayout]
    simp only [moduleRoot?_of_isPlainName hname.1 hname.2.1 (hback m hm) dir]
    exact ⟨_, rfl⟩
  · obtain ⟨a, d, ha, -⟩ := (stores_archived hlayout).mp h
    rw [place?, hlayout]
    simp only [ha]
    exact ⟨_, rfl⟩

open Classical in
/-- **What one module answers**: where it keeps what it stores. -/
theorem lookup_fst (hw : w.files.WellFormed) (hread : i.Readable w)
    (hplain : ∀ name ∈ FileTree.names ⟨relative⟩, FileTree.IsPlainName name)
    (hfile : ArchiveDirectory.isDirectoryName (classesFolder ++ relative) = false)
    (m : ModuleName) : (i.lookup m relative w).1 =
      .ok (if i.Stores m relative w then i.place? m relative else none) := by
  obtain hmissing | ⟨dir, root, hlayout, hroot⟩ | ⟨archives, a, hlayout, hm⟩ := i.isMissing_or m
  · have hplace : i.place? m relative = none := by
      obtain ⟨dir, hlayout, hm⟩ | ⟨archives, hlayout, hm⟩ := hmissing <;>
      · rw [place?, hlayout]
        simp only [hm]
        rfl
    rw [hmissing.lookup, hplace, ite_self]
  · obtain ⟨rfl, hname, hslash⟩ := of_moduleRoot? hroot
    rw [Readable, hlayout] at hread
    obtain ⟨key, hkey⟩ := hread
    have hstores : i.Stores m relative w ↔
        w.files.isFile ((dir.join ⟨m.text⟩).join ⟨relative⟩) = true := by
      rw [stores_exploded hlayout, hkey.isFile_iff hw hname hslash hplain, hkey.located]
      constructor
      · rintro ⟨key', contents, executable, hsame, hnode⟩
        obtain rfl := Except.ok.inj hsame
        exact ⟨contents, executable, hnode⟩
      · rintro ⟨contents, executable, hnode⟩
        exact ⟨key, contents, executable, rfl, hnode⟩
    have hplace : i.place? m relative = some (.file ((dir.join ⟨m.text⟩).join ⟨relative⟩)) := by
      rw [place?, hlayout]
      simp only [hroot, Option.map_some]
    rw [lookup_below hlayout hroot, hplace]
    exact congrArg Except.ok (if_congr hstores.symm rfl rfl)
  · rw [Readable, hlayout] at hread
    obtain ⟨d, hopened, hreach⟩ := hread _ (mem_of_lookup hm)
    have hstores : i.Stores m relative w ↔ (d.find? (classesFolder ++ relative)).isSome := by
      rw [stores_archived hlayout]
      constructor
      · rintro ⟨a', d', ha, hd, hfound⟩
        obtain rfl := Option.some.inj (hm.symm.trans ha)
        obtain rfl := Except.ok.inj (hopened.symm.trans hd)
        exact hfound
      · exact fun hfound => ⟨a, d, hm, hopened, hfound⟩
    have hplace : i.place? m relative = some (.entry a (classesFolder ++ relative)) := by
      rw [place?, hlayout]
      simp only [hm, Option.map_some]
    rw [lookup_within hlayout hm, Archive.contains_fst hopened (hreach _) hfile, hplace]
    exact congrArg Except.ok (if_congr hstores.symm rfl rfl)

/-! ### The whole image -/

variable {t : ClassType} {frontend : Frontend} {sourceType : SourceType}

/-- **The class comes from a module**: the image finds a source of the type as it was asked for,
which is kept where the module stores the path of the class. -/
def FindsIn (i : ModuleImage) (m : ModuleName) (frontend : Frontend) (sourceType : SourceType)
    (t : ClassType) (w : World) : Prop :=
  ∃ s source, i.place? m (t.relativePath frontend.extension) = some s ∧
    source = s.source frontend sourceType t ∧ source.type = t ∧
    ((Location.ofImage i frontend sourceType).find t w).1 = .ok (some source)

/-- The image finds nothing. -/
def FindsNone (i : ModuleImage) (frontend : Frontend) (sourceType : SourceType) (t : ClassType)
    (w : World) : Prop :=
  ((Location.ofImage i frontend sourceType).find t w).1 = .ok none

open Classical in
/-- **The image finds what the first module stores**, of the one that the type names or of all. -/
theorem find_fst (hopen : (ModuleImage.open root w₀).1 = .ok i) (hw : w.files.WellFormed)
    (hread : i.Readable w) (hmodules : i.modules w = .ok modules) (hs : t.IsSegmented)
    (hslash : '/' ∉ t.name.toList) (hclass : isDescriptorName t.name = false)
    (frontend : Frontend) (sourceType : SourceType) :
    ((Location.ofImage i frontend sourceType).find t w).1 =
      .ok (((t.moduleName.elim modules fun m => [m]).findSome? fun m =>
        if i.Stores m (t.relativePath frontend.extension) w then
          i.place? m (t.relativePath frontend.extension) else none).map
        (StoredClass.source frontend sourceType t)) := by
  have hfile : ArchiveDirectory.isDirectoryName
      (classesFolder ++ t.relativePath frontend.extension) = false := by
    rw [ClassType.relativePath, ← String.append_assoc]
    exact frontend.isDirectoryName_append _
  have hlookup := fun m => lookup_fst hw hread
    (isPlainName_of_mem hslash hs frontend.slashless_extension) hfile m
  rw [Location.find_ofImage_fst hclass]
  rcases t.moduleName with _ | m
  · simp only [hmodules, Location.findInModules_fst (toldApart_of_open hopen)
      (fun m _ => hlookup m) (.refl i w)]
    rfl
  · simp only [hlookup m, Option.elim_some, List.findSome?_singleton]
    rfl

/-- **The first of some modules in order is the least one.** -/
theorem exists_first {stores : ModuleName → Prop} [DecidablePred stores]
    {place? : ModuleName → Option StoredClass} (hsorted : modules.Pairwise fun a b => a.le b)
    (hplace : ∀ m, stores m → ∃ s, place? m = some s) (h : ∃ m ∈ modules, stores m) :
    ∃ m ∈ modules, stores m ∧ (∀ n ∈ modules, stores n → m.le n) ∧
      modules.findSome? (fun m => if stores m then place? m else none) = place? m := by
  induction modules with
  | nil =>
    obtain ⟨m, hm, -⟩ := h
    cases hm
  | cons first modules ih =>
    obtain ⟨hfirst, hsorted⟩ := List.pairwise_cons.mp hsorted
    rw [List.findSome?_cons]
    by_cases hstores : stores first
    · obtain ⟨s, hs⟩ := hplace first hstores
      refine ⟨first, by simp, hstores, fun n hn _ => ?_, by rw [if_pos hstores, hs]⟩
      rcases List.mem_cons.mp hn with rfl | hn
      · exact n.le_refl
      · exact hfirst n hn
    · obtain ⟨m, hm, hmStores, hleast, hfind⟩ := ih hsorted <| by
        obtain ⟨m, hm, hmStores⟩ := h
        rcases List.mem_cons.mp hm with rfl | hm
        · exact absurd hmStores hstores
        · exact ⟨m, hm, hmStores⟩
      refine ⟨m, List.mem_cons_of_mem _ hm, hmStores, fun n hn hnStores => ?_, ?_⟩
      · rcases List.mem_cons.mp hn with rfl | hn
        · exact absurd hnStores hstores
        · exact hleast n hn hnStores
      · rw [if_neg hstores]
        exact hfind

/-- **Where a class is found.** A type that names a module is found in it exactly if it is a module
of the image and stores the path of the class; a type that names none is found in the first module
that stores the path, and nowhere if none does. Descriptors are never found. -/
theorem resolution (hopen : (ModuleImage.open root w₀).1 = .ok i) (hw : w.files.WellFormed)
    (hread : i.Readable w)
    (hback : ∀ modules, i.modules w = .ok modules → ∀ m ∈ modules, '\\' ∉ m.text.toList)
    (hs : t.IsSegmented) (hslash : '/' ∉ t.name.toList) (frontend : Frontend)
    (sourceType : SourceType) :
    ∃ modules, i.modules w = .ok modules ∧ modules.Pairwise (fun a b => a.le b) ∧
      (isDescriptorName t.name = true → i.FindsNone frontend sourceType t w) ∧
      (isDescriptorName t.name = false →
        (∀ m, t.moduleName = some m →
          (m ∈ modules ∧ i.Stores m (t.relativePath frontend.extension) w →
            i.FindsIn m frontend sourceType t w) ∧
          (¬ (m ∈ modules ∧ i.Stores m (t.relativePath frontend.extension) w) →
            i.FindsNone frontend sourceType t w)) ∧
        (t.moduleName = none →
          ((∃ m ∈ modules, i.Stores m (t.relativePath frontend.extension) w) →
            ∃ m ∈ modules, i.Stores m (t.relativePath frontend.extension) w ∧
              (∀ n ∈ modules, i.Stores n (t.relativePath frontend.extension) w → m.le n) ∧
              i.FindsIn m frontend sourceType t w) ∧
          ((∀ m ∈ modules, ¬ i.Stores m (t.relativePath frontend.extension) w) →
            i.FindsNone frontend sourceType t w))) := by
  classical
  obtain ⟨modules, hmodules⟩ := exists_modules hread
  have hback := hback modules hmodules
  have hplace : ∀ m, i.Stores m (t.relativePath frontend.extension) w →
      ∃ s, i.place? m (t.relativePath frontend.extension) = some s :=
    fun m hm => hm.exists_place? hw hmodules hback
  refine ⟨modules, hmodules, pairwise_modules hopen hmodules, fun hclass => ?_, fun hclass => ?_⟩
  · simp [FindsNone, Location.ofImage, Location.findInImage, hclass, Except.map]
  · have hfind := find_fst hopen hw hread hmodules hs hslash hclass frontend sourceType
    refine ⟨fun m hm => ?_, fun hnone => ?_⟩
    -- the module that the type names
    · rw [hm] at hfind
      simp only [Option.elim_some, List.findSome?_singleton] at hfind
      refine ⟨?_, fun hstores => ?_⟩
      · rintro ⟨-, hstores⟩
        obtain ⟨s, hs⟩ := hplace m hstores
        rw [if_pos hstores, hs] at hfind
        exact ⟨s, _, hs, rfl, rfl, hfind⟩
      · have hstores : ¬ i.Stores m (t.relativePath frontend.extension) w :=
          fun h => hstores ⟨h.mem_modules hw hmodules, h⟩
        rw [if_neg hstores] at hfind
        exact hfind
    -- all modules
    · rw [hnone] at hfind
      simp only [Option.elim_none] at hfind
      refine ⟨fun hstores => ?_, fun hstores => ?_⟩
      · obtain ⟨m, hm, hmStores, hleast, hfirst⟩ :=
          exists_first (pairwise_modules hopen hmodules) hplace hstores
        obtain ⟨s, hs⟩ := hplace m hmStores
        rw [hfirst, hs] at hfind
        exact ⟨m, hm, hmStores, hleast, s, _, hs, rfl, rfl, hfind⟩
      · have hnothing : (modules.findSome? fun m =>
            if i.Stores m (t.relativePath frontend.extension) w then
              i.place? m (t.relativePath frontend.extension) else none) = none :=
          List.findSome?_eq_none_iff.mpr fun m hm => if_neg (hstores m hm)
        rw [hnothing] at hfind
        exact hfind

end ModuleImage

/-! ### Two modules, one of which is empty -/

theorem ModuleMap.StoredBelow.readableBelow {c : ModuleMap} {w : World} {dir : Path} {key : Key}
    (h : c.StoredBelow w.files dir key) : ModuleImage.ReadableBelow dir w key where
  located := h.located
  directory := h.directory
  unlinked := h.unlinked
  fits m relative contents executable hnode := by
    have hdir := h.wellFormed.directory_of_below hnode (FileTree.names_ne_nil _)
    refine h.fitsFile m relative ?_
    rw [← h.stored m ((h.modules m).mp hdir) relative, hnode]
    rfl

namespace twoModules

theorem readable_image : image.Readable world :=
  let ⟨key, hstored⟩ := isExploded
  ⟨key, hstored.readableBelow⟩

theorem modules_image : image.modules world = .ok twoModules.names := by
  obtain ⟨key, hstored⟩ := isExploded
  exact (hstored.shows rfl rfl).modules

theorem stores_iff {m : ModuleName} :
    image.Stores m (type.relativePath Frontend.classFile.extension) world ↔ m = ⟨"m.x"⟩ := by
  have hnames : FileTree.names ⟨type.relativePath Frontend.classFile.extension⟩ =
      ["a", "B.class"] := by decide
  have hkey : world.files.locate .target ⟨"i/modules"⟩ = .ok ["i", "modules"] :=
    locate_directory (p := ⟨"i/modules"⟩) (by decide) (by decide)
  rw [ModuleImage.stores_exploded rfl, hnames, hkey]
  constructor
  · rintro ⟨key, contents, executable, hsame, hnode⟩
    obtain rfl := Except.ok.inj hsame
    have hmem := FileTree.mem_of_node? (by simp) hnode
    have hfile : m.text = "m.x" ∧ contents = .plain [1, 2] ∧ executable = false := by
      simpa [world] using hmem
    exact congrArg ModuleName.mk hfile.1
  · rintro rfl
    exact ⟨_, _, _, rfl, by rfl⟩

/-- The class is found in the first module, whether or not the type names it, and not in the second
one. -/
theorem resolution_type :
    ((ModuleImage.open ⟨"i"⟩ world).1 = .ok image ∧ world.files.WellFormed ∧
      image.Readable world ∧
      (∀ modules, image.modules world = .ok modules → ∀ m ∈ modules, '\\' ∉ m.text.toList) ∧
      type.IsSegmented ∧ '/' ∉ type.name.toList) ∧
    image.FindsIn ⟨"m.x"⟩ .classFile .application type world ∧
    image.FindsNone .classFile .application { type with moduleName := some ⟨"n"⟩ } world := by
  have hback : ∀ modules, image.modules world = .ok modules →
      ∀ m ∈ modules, '\\' ∉ m.text.toList := by
    intro modules hmodules m hm
    obtain rfl := Except.ok.inj (modules_image.symm.trans hmodules)
    exact (ModuleMap.isModuleName_of_mem hm).not_mem (by simp)
  have hs := isWorded.isSegmented
  have hresolution (t : ClassType) (hs : t.IsSegmented) (hslash : '/' ∉ t.name.toList) :=
    ModuleImage.resolution open_image wellFormed readable_image hback hs hslash .classFile
      .application
  refine ⟨⟨open_image, wellFormed, readable_image, hback, hs, by decide⟩, ?_, ?_⟩
  · obtain ⟨modules, hmodules, -, -, hfinds⟩ := hresolution type hs (by decide)
    obtain rfl := Except.ok.inj (modules_image.symm.trans hmodules)
    have hfirst := ((hfinds (by decide)).2 rfl).1
      ⟨⟨"m.x"⟩, mem_names.mpr (.inl rfl), stores_iff.mpr rfl⟩
    obtain ⟨m, -, hstores, -, hfound⟩ := hfirst
    rwa [stores_iff.mp hstores] at hfound
  · obtain ⟨modules, -, -, -, hfinds⟩ :=
      hresolution { type with moduleName := some ⟨"n"⟩ } hs (by decide)
    refine ((hfinds (by decide)).1 ⟨"n"⟩ rfl).2 fun ⟨_, hstores⟩ => ?_
    exact absurd (stores_iff.mp hstores) (by decide)

end twoModules

end Classpath

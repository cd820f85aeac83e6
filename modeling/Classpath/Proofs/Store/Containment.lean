import Classpath.Proofs.Store.Interchange

/-!
# What a module can give away

A module is asked for a file by two texts, its own name and a path relative to it. The name is
checked: only a single plain name has a subtree. The path is not, so below directories it may climb
out of the module with `..`, or start at the root of the file system. A path that never climbs above
the place where it starts stays in the module; the names of entries in an archive are no paths, and
what is listed comes from the module itself.

What stands below the directory of a module is stored there, also where it is a link; links are
followed, and only where there are none does a path lead to what its names say.

* `Classpath.FileTree.neverClimbs`, `Classpath.Path.StaysBelow` – paths that stay below.
* `Classpath.FileTree.exists_below` – where such paths lead.
* `Classpath.ModuleImage.Holds` – what is stored in a module.
* `Classpath.ModuleImage.contained` – what is found and listed is stored in the module.
-/

namespace Classpath

/-! ### Paths that stay below -/

namespace FileTree

variable {t : FileTree} {base key : Key} {names : List String} {links : Nat}

/-- Whether names never leave a directory when they are followed from a place that is some
directories below it. -/
def neverClimbs : (depth : Nat) → List String → Bool
  | _, [] => true
  | depth, name :: rest =>
    if name = "" ∨ name = "." then neverClimbs depth rest
    else if name = ".." then depth ≠ 0 && neverClimbs (depth - 1) rest
    else neverClimbs (depth + 1) rest

theorem neverClimbs_filter (depth : Nat) (names : List String) :
    neverClimbs depth (names.filter (· ≠ "")) = neverClimbs depth names := by
  induction names generalizing depth with
  | nil => rfl
  | cons name names ih =>
    by_cases hempty : name = ""
    · rw [List.filter_cons_of_neg (by simp [hempty]), ih, neverClimbs, if_pos (.inl hempty)]
    · rw [List.filter_cons_of_pos (by simp [hempty]), neverClimbs, neverClimbs]
      simp only [ih]

/-- Plain names never climb. -/
theorem neverClimbs_of_plain (h : ∀ name ∈ names, IsPlainName name) (depth : Nat) :
    neverClimbs depth names = true := by
  induction names generalizing depth with
  | nil => rfl
  | cons name names ih =>
    obtain ⟨⟨hempty, hdot, hdots⟩, hnames⟩ := List.forall_mem_cons.mp h
    rw [neverClimbs, if_neg (by simp [hempty, hdot]), if_neg hdots, ih hnames]

/-- **Names that never climb lead below the directory**, if no links are there. -/
theorem exists_below (path : Key)
    (hlinks : ∀ names target, t.node? (base ++ names) ≠ some (.link target))
    (hnames : neverClimbs path.length names = true)
    (h : t.locateFrom .target links (base ++ path) names = .ok key) :
    ∃ below, key = base ++ below := by
  induction names generalizing path links with
  | nil =>
    rw [locateFrom_nil] at h
    exact ⟨path, (Except.ok.inj h).symm⟩
  | cons name names ih =>
    have hunlinked : t.Unlinked (base ++ path) [name] := by
      intro before _ _ target
      rw [List.append_assoc]
      exact hlinks _ target
    rw [locateFrom_cons] at h
    rcases hstep : t.step links (base ++ path) name with fault | ⟨links', cur, more⟩
    · rw [hstep] at h
      cases h
    · rw [hstep] at h
      rw [neverClimbs] at hnames
      obtain ⟨rfl, rfl, ⟨hvoid, rfl⟩ | ⟨rfl, -, rfl⟩ | ⟨⟨hempty, hdot, hdots⟩, rfl⟩⟩ :=
        step_of_unlinked hunlinked hstep
      · rw [if_pos hvoid] at hnames
        exact ih _ hnames h
      -- going up leads one directory back on the way that was taken down
      · rcases List.eq_nil_or_concat path with rfl | ⟨init, last, rfl⟩
        · simp at hnames
        · rw [List.concat_eq_append] at h hnames
          rw [← List.append_assoc, List.dropLast_concat] at h
          exact ih _ (by simpa using hnames) h
      · rw [if_neg (by simp [hempty, hdot]), if_neg hdots] at hnames
        rw [List.append_assoc] at h
        exact ih _ (by simpa using hnames) h

end FileTree

/-- **A path that stays below what it is joined to**: it does not start at the root, and never
climbs above the place where it starts. -/
structure Path.StaysBelow (p : Path) : Prop where
  relative : p.isAbsolute = false
  names : FileTree.neverClimbs 0 (FileTree.names p) = true

theorem Path.staysBelow_of_plain {p : Path}
    (h : ∀ name ∈ FileTree.names p, FileTree.IsPlainName name) : p.StaysBelow :=
  ⟨FileTree.isAbsolute_of_names h, FileTree.neverClimbs_of_plain h 0⟩

namespace ModuleImage

variable {i : ModuleImage} {m : ModuleName} {w : World} {dir root p : Path} {relative : String}

/-! ### What is stored in a module -/

/-- **A file that is stored in a module of an image with directories**: its path stays below the
directory of the module. If there are no links below the directory of modules, it is a file below
the entry of the module, and its path leads to it unless it is too long. -/
structure HoldsFile (i : ModuleImage) (m : ModuleName) (w : World) (p : Path) : Prop where
  layout : i.layout = .exploded (i.root.join ⟨"modules"⟩)
  plain : FileTree.IsPlainName m.text
  slashless : '/' ∉ m.text.toList
  path : ∃ relative : Path, relative.StaysBelow ∧
    p = ((i.root.join ⟨"modules"⟩).join ⟨m.text⟩).join relative
  stored : ∀ key, w.files.locate .target (i.root.join ⟨"modules"⟩) = .ok key →
    (∀ names target, w.files.node? (key ++ names) ≠ some (.link target)) →
    ∃ below contents executable,
      w.files.node? (key ++ m.text :: below) = some (.file contents executable) ∧
      (p.text.utf8ByteSize ≤ FileTree.maxPath →
        w.files.locate .target p = .ok (key ++ m.text :: below))

/-- **An entry that is stored in a module of an image with archives**: the archive of the module has
it, in its folder of classes. -/
structure HoldsEntry (i : ModuleImage) (m : ModuleName) (w : World) (a : Archive) (name : String) :
    Prop where
  layout : ∃ archives, i.layout = .archived archives ∧ archives.lookup m = some a
  path : a.path = (i.root.join ⟨"jmods"⟩).join ⟨m.text ++ ".jmod"⟩
  folder : classesFolder.toList <+: name.toList
  stored : ∃ d, (a.opened w).1 = .ok d ∧ (d.find? name).isSome

/-- **What is stored in a module.** -/
def Holds (i : ModuleImage) (m : ModuleName) (w : World) : StoredClass → Prop
  | .file p => i.HoldsFile m w p
  | .entry a name => i.HoldsEntry m w a name

/-! ### Directories -/

section Exploded

variable (hlayout : i.layout = .exploded (i.root.join ⟨"modules"⟩))

include hlayout

theorem HoldsFile.of_isFile (hroot : moduleRoot? (i.root.join ⟨"modules"⟩) m = some root)
    (hbelow : (⟨relative⟩ : Path).StaysBelow)
    (hfile : w.files.isFile (root.join ⟨relative⟩) = true) :
    i.HoldsFile m w (root.join ⟨relative⟩) := by
  obtain ⟨rfl, hname, hslash⟩ := of_moduleRoot? hroot
  refine ⟨hlayout, hname, hslash, ⟨_, hbelow, rfl⟩, fun key hkey hlinks => ?_⟩
  obtain ⟨found, contents, executable, hlocate, hnode⟩ := FileTree.isFile_iff.mp hfile
  obtain ⟨n, names, hnames, hfrom⟩ := FileTree.exists_locateFrom_of_join_join hkey hname hslash
    (fun before _ _ => hlinks before) hbelow.relative hlocate
  have hclimbs : FileTree.neverClimbs 0 names = true := by
    rcases hnames with rfl | rfl
    · exact hbelow.names
    · rw [FileTree.neverClimbs_filter, hbelow.names]
  have hlinks' : ∀ below target, w.files.node? ((key ++ [m.text]) ++ below) ≠
      some (.link target) := by
    intro below target
    rw [List.append_assoc]
    exact hlinks _ target
  rw [← List.append_nil (key ++ [m.text])] at hfrom
  obtain ⟨below, rfl⟩ := FileTree.exists_below [] hlinks' hclimbs hfrom
  rw [List.append_assoc, List.singleton_append] at hlocate hnode
  exact ⟨below, contents, executable, hnode, fun _ => hlocate⟩

theorem HoldsFile.of_mem_walk (hw : w.files.WellFormed)
    (hroot : moduleRoot? (i.root.join ⟨"modules"⟩) m = some root) {keys : List Key}
    (hwalk : w.files.walk root = .ok keys) {names : Key} (hnames : names ∈ keys) :
    i.HoldsFile m w (root.join ⟨"/".intercalate names⟩) := by
  obtain ⟨rfl, hname, hslash⟩ := of_moduleRoot? hroot
  obtain ⟨here, hhere, hkeys⟩ := FileTree.walk_eq_ok hwalk
  obtain ⟨-, rfl⟩ | ⟨-, rfl⟩ := hkeys
  · obtain ⟨hne, contents, executable, hmem⟩ := FileTree.mem_filesBelow.mp hnames
    have hentries : ∀ name ∈ names, FileTree.IsEntryName name := fun name hmember =>
      hw.named _ hmem name (List.mem_append_right _ hmember)
    have hsplit : FileTree.names ⟨"/".intercalate names⟩ = names :=
      names_intercalate hne fun name hmember => (hentries name hmember).2.1
    have hplain : ∀ name ∈ FileTree.names ⟨"/".intercalate names⟩, FileTree.IsPlainName name := by
      rw [hsplit]
      exact fun name hmember => (hentries name hmember).1
    refine ⟨hlayout, hname, hslash, ⟨_, Path.staysBelow_of_plain hplain, rfl⟩,
      fun key hkey hlinks => ?_⟩
    have hsingle := FileTree.names_of_slashless hslash
    have hunlinked : w.files.Unlinked key (FileTree.names ⟨m.text⟩) :=
      fun before _ _ => hlinks before
    -- the directory of the module is its own entry, as it is no link
    obtain rfl : here = key ++ FileTree.names ⟨m.text⟩ :=
      hunlinked.eq_of_locate_join hkey (by simpa [hsingle] using hname) hhere
    have hkey' : key ++ FileTree.names ⟨m.text⟩ ++ names = key ++ m.text :: names := by
      simp [hsingle]
    refine ⟨names, contents, executable, hkey' ▸ hw.node?_eq hmem, fun hfits => ?_⟩
    rw [← hsplit] at hmem
    rw [hw.locate_join_eq hhere hmem (by simp) hfits, hsplit, hkey']
  · cases hnames

end Exploded

/-! ### Archives -/

section Archived

variable {found : List (ModuleName × Path)} {name : String}

/-- The archive of a module is called after it. -/
theorem eq_of_archiveModule? (h : archiveModule? name = some m) : name = m.text ++ ".jmod" := by
  rw [archiveModule?] at h
  split at h
  · rename_i stem hsplit
    obtain rfl := Option.some.inj h
    refine String.toList_inj.mp ?_
    rw [Path.eq_append_of_splitExtension hsplit, String.toList_append, String.toList_ofList]
    rfl
  · cases h

theorem path_of_mem_archivesIn (h : archivesIn dir w = .ok found) {e : ModuleName × Path}
    (he : e ∈ found) : e.2 = dir.join ⟨e.1.text ++ ".jmod"⟩ := by
  rw [archivesIn] at h
  rcases hentries : w.files.entryNames dir with fault | entries
  · rw [hentries] at h
    cases h
  · rw [hentries] at h
    rw [← Except.ok.inj h, List.mem_mergeSort] at he
    obtain ⟨name, -, hname⟩ := List.mem_filterMap.mp he
    obtain ⟨m, hm, hfile⟩ := Option.bind_eq_some_iff.mp hname
    simp only at hfile
    split_ifs at hfile
    obtain rfl := Option.some.inj hfile
    rw [eq_of_archiveModule? hm]

end Archived

/-! ### What is found and what is listed -/

section Opened

variable {w₀ : World} (hopen : (ModuleImage.open root w₀).1 = .ok i)

include hopen

/-- **What an opened image has of a module**: nothing, a directory below its directory of modules, or
an archive in its directory of archives. -/
theorem isMissing_or_of_open (m : ModuleName) : i.IsMissing m ∨
    (∃ below, i.layout = .exploded (i.root.join ⟨"modules"⟩) ∧
      moduleRoot? (i.root.join ⟨"modules"⟩) m = some below) ∨
    ∃ archives a, i.layout = .archived archives ∧ archives.lookup m = some a ∧
      a.path = (i.root.join ⟨"jmods"⟩).join ⟨m.text ++ ".jmod"⟩ := by
  obtain ⟨rfl, hlayout⟩ := of_open_eq_ok hopen
  obtain hmissing | ⟨dir, below, hexploded, hroot⟩ | ⟨archives, a, harchived, hm⟩ := i.isMissing_or m
  · exact .inl hmissing
  · obtain hlayout | ⟨found, -, hlayout⟩ := hlayout
    · obtain rfl := ModuleLayout.exploded.inj (hexploded.symm.trans hlayout)
      exact .inr (.inl ⟨below, hlayout, hroot⟩)
    · rw [hexploded] at hlayout
      cases hlayout
  · obtain hlayout | ⟨found, hfound, hlayout⟩ := hlayout
    · rw [harchived] at hlayout
      cases hlayout
    · obtain rfl := ModuleLayout.archived.inj (harchived.symm.trans hlayout)
      have hmem : (m, a.path) ∈ found := by
        rw [← number_paths found w₀]
        exact List.mem_map.mpr ⟨(m, a), mem_of_lookup hm, rfl⟩
      exact .inr (.inr ⟨_, a, hlayout, hm, path_of_mem_archivesIn hfound hmem⟩)

theorem holds_of_lookup
    (hbelow : (∃ dir, i.layout = .exploded dir) → (⟨relative⟩ : Path).StaysBelow)
    {s : StoredClass} (h : (i.lookup m relative w).1 = .ok (some s)) : i.Holds m w s := by
  obtain hmissing | ⟨below, hlayout, hroot⟩ | ⟨archives, a, hlayout, hm, hpath⟩ :=
    isMissing_or_of_open hopen m
  · rw [hmissing.lookup] at h
    cases h
  · rw [lookup_below hlayout hroot] at h
    have hfile := Except.ok.inj h
    split_ifs at hfile with hisFile
    obtain rfl := Option.some.inj hfile
    exact .of_isFile hlayout hroot (hbelow ⟨_, hlayout⟩) hisFile
  · rw [lookup_within hlayout hm] at h
    rcases hcontains : (a.contains (classesFolder ++ relative) w).1 with fault | held
    · rw [hcontains] at h
      cases h
    · rw [hcontains] at h
      have hentry := Except.ok.inj h
      simp only at hentry
      split_ifs at hentry with hheld
      obtain rfl := Option.some.inj hentry
      rw [hheld] at hcontains
      refine ⟨⟨archives, hlayout, hm⟩, hpath, ?_, Archive.isSome_of_contains hcontains⟩
      rw [String.toList_append]
      exact List.prefix_append ..

theorem holds_of_mem_entries (hw : w.files.WellFormed) {extension : String} {ids : Naming}
    {listed : List (ClassType × StoredClass)} (h : (i.entries m extension ids w).1 = .ok listed)
    {e : ClassType × StoredClass} (he : e ∈ listed) : i.Holds m w e.2 := by
  obtain hmissing | ⟨below, hlayout, hroot⟩ | ⟨archives, a, hlayout, hm, hpath⟩ :=
    isMissing_or_of_open hopen m
  · rw [hmissing.entries] at h
    rw [← Except.ok.inj h] at he
    cases he
  · rw [entries_below hlayout hroot, storedClasses] at h
    rcases hwalk : w.files.walk below with fault | keys
    · rw [hwalk] at h
      cases h
    · rw [hwalk] at h
      rw [← Except.ok.inj h] at he
      obtain ⟨stored, hstored, rfl⟩ := List.mem_map.mp he
      obtain ⟨names, hnames, hread⟩ := List.mem_filterMap.mp hstored
      obtain ⟨t, -, rfl⟩ := Option.map_eq_some_iff.mp hread
      exact .of_mem_walk hlayout hw hroot hwalk hnames
  · rw [entries_within hlayout hm] at h
    rcases hnames : (a.names w).1 with fault | names
    · rw [hnames] at h
      cases h
    · obtain ⟨d, hopened, hd⟩ := Archive.exists_of_ask hnames
      obtain rfl := Except.ok.inj hd
      rw [hnames] at h
      rw [← Except.ok.inj h] at he
      obtain ⟨name, hname, hread⟩ := List.mem_filterMap.mp he
      obtain ⟨t, ht, rfl⟩ := Option.map_eq_some_iff.mp hread
      obtain ⟨rest, hfolder, -⟩ := Option.bind_eq_some_iff.mp ht
      exact ⟨⟨archives, hlayout, hm⟩, hpath,
        ⟨rest, List.isPrefixOf?_eq_some_iff_append_eq.mp hfolder⟩, d, hopened,
        ArchiveDirectory.isSome_find?_iff.mpr hname⟩

/-- **What a module gives away is stored in it**: what is found in it at a path, which has to stay
below in an image with directories, and all that is listed of it. -/
theorem contained (hw : w.files.WellFormed) :
    (∀ (m : ModuleName) (relative : String) (s : StoredClass),
      ((∃ dir, i.layout = .exploded dir) → (⟨relative⟩ : Path).StaysBelow) →
      (i.lookup m relative w).1 = .ok (some s) → i.Holds m w s) ∧
    ∀ (m : ModuleName) (extension : String) (ids : Naming) (listed : List (ClassType × StoredClass)),
      (i.entries m extension ids w).1 = .ok listed → ∀ e ∈ listed, i.Holds m w e.2 :=
  ⟨fun _ _ _ hbelow h => holds_of_lookup hopen hbelow h,
    fun _ _ _ _ h _ he => holds_of_mem_entries hopen hw h he⟩

end Opened

end ModuleImage

/-! ### Two modules, one of which is empty -/

namespace twoModules

/-- The image with directories. -/
def image : ModuleImage := ⟨⟨"i"⟩, .exploded ⟨"i/modules"⟩⟩

theorem open_image : (ModuleImage.open ⟨"i"⟩ world).1 = .ok image := by
  obtain ⟨key, hstored⟩ := isExploded
  rw [hstored.open_eq]
  rfl

theorem linkless : ∀ e ∈ world.files.nodes, ∀ target, e.2 ≠ .link target := by
  simp [world]

/-- A file is found by any path that leads to it. -/
theorem lookup_eq {m : ModuleName} {relative : String} {key : Key} {contents : Contents}
    (hroot : ModuleImage.moduleRoot? ⟨"i/modules"⟩ m = some ⟨"i/modules/" ++ m.text⟩)
    (hlocate : world.files.locate .target ((⟨"i/modules/" ++ m.text⟩ : Path).join ⟨relative⟩) =
      .ok key) (hnode : world.files.node? key = some (.file contents false)) :
    (image.lookup m relative world).1 =
      .ok (some (.file ((⟨"i/modules/" ++ m.text⟩ : Path).join ⟨relative⟩))) := by
  have hfile : world.files.isFile ((⟨"i/modules/" ++ m.text⟩ : Path).join ⟨relative⟩) = true :=
    FileTree.isFile_iff.mpr ⟨key, contents, false, hlocate, hnode⟩
  rw [ModuleImage.lookup_below rfl hroot, hfile]
  rfl

theorem locate_up : world.files.locate .target ⟨"i/modules/n/../m.x/a/B.class"⟩ =
    .ok ["i", "modules", "m.x", "a", "B.class"] := by
  rw [FileTree.locate_of_relative (by decide) (by decide) (by decide) (by decide)]
  exact FileTree.locateFrom_of_followed? (n := 7) (by decide)

theorem locate_round : world.files.locate .target ⟨"i/modules/m.x/a/../a/B.class"⟩ =
    .ok ["i", "modules", "m.x", "a", "B.class"] := by
  rw [FileTree.locate_of_relative (by decide) (by decide) (by decide) (by decide)]
  exact FileTree.locateFrom_of_followed? (n := 7) (by decide)

/-- The class of the first module is found on a way that goes up and down, and is listed; both times
it is stored in the module. -/
theorem contained_round :
    (ModuleImage.open ⟨"i"⟩ world).1 = .ok image ∧ world.files.WellFormed ∧
    ((⟨"a/../a/B.class"⟩ : Path).StaysBelow ∧
      (image.lookup ⟨"m.x"⟩ "a/../a/B.class" world).1 =
        .ok (some (.file ⟨"i/modules/m.x/a/../a/B.class"⟩)) ∧
      image.Holds ⟨"m.x"⟩ world (.file ⟨"i/modules/m.x/a/../a/B.class"⟩)) ∧
    (image.entries ⟨"m.x"⟩ "class" .plain world).1 =
      .ok [(⟨"a.B", none⟩, .file ⟨"i/modules/m.x/a/B.class"⟩)] ∧
    image.Holds ⟨"m.x"⟩ world (.file ⟨"i/modules/m.x/a/B.class"⟩) := by
  have hbelow : (⟨"a/../a/B.class"⟩ : Path).StaysBelow := ⟨by decide, by decide⟩
  have hlookup : (image.lookup ⟨"m.x"⟩ "a/../a/B.class" world).1 =
      .ok (some (.file ⟨"i/modules/m.x/a/../a/B.class"⟩)) :=
    lookup_eq (by rfl) locate_round (by rfl)
  have hentries : (image.entries ⟨"m.x"⟩ "class" .plain world).1 =
      .ok [(⟨"a.B", none⟩, .file ⟨"i/modules/m.x/a/B.class"⟩)] := by
    have hwalk : world.files.walk ⟨"i/modules/m.x"⟩ = .ok [["a", "B.class"]] := by
      rw [wellFormed.walk_eq (by decide) (by decide)]
      decide +kernel
    have hroot : ModuleImage.moduleRoot? ⟨"i/modules"⟩ ⟨"m.x"⟩ = some ⟨"i/modules/m.x"⟩ := by rfl
    have hpath : "/".intercalate ["a", "B.class"] = "a/B.class" := by decide
    have hread : Naming.plain.ofPath? ⟨"a/B.class"⟩ "class" (some ⟨"m.x"⟩) = some ⟨"a.B", none⟩ := by
      decide
    rw [ModuleImage.entries_below rfl hroot, storedClasses, hwalk]
    simp only [List.filterMap_cons, hpath, hread, Option.map_some, List.filterMap_nil, Except.map,
      List.map_singleton]
    rfl
  have hcontained := ModuleImage.contained open_image wellFormed
  refine ⟨open_image, wellFormed, ⟨hbelow, hlookup, ?_⟩, hentries, ?_⟩
  · exact hcontained.1 _ _ _ (fun _ => hbelow) hlookup
  · exact hcontained.2 _ _ _ _ hentries _ (List.mem_singleton_self _)

/-- **A path that climbs leaves the module**: the class of the first module is found in the second
one. -/
theorem not_contained_up : ¬ ∀ (root : Path) (w₀ w : World) (i : ModuleImage) (m : ModuleName)
    (relative : String) (s : StoredClass), (ModuleImage.open root w₀).1 = .ok i →
    w.files.WellFormed → (∀ e ∈ w.files.nodes, ∀ target, e.2 ≠ .link target) →
    (i.lookup m relative w).1 = .ok (some s) → i.Holds m w s := by
  intro h
  have hlookup : (image.lookup ⟨"n"⟩ "../m.x/a/B.class" world).1 =
      .ok (some (.file ⟨"i/modules/n/../m.x/a/B.class"⟩)) :=
    lookup_eq (by rfl) locate_up (by rfl)
  have hheld : image.HoldsFile ⟨"n"⟩ world ⟨"i/modules/n/../m.x/a/B.class"⟩ :=
    h _ _ _ _ _ _ _ open_image wellFormed linkless hlookup
  obtain ⟨below, contents, executable, -, hlocate⟩ := hheld.stored ["i", "modules"]
    (locate_directory (p := ⟨"i/modules"⟩) (by decide) (by decide))
    fun names target hlink => linkless _ (FileTree.mem_of_node? (by simp) hlink) target rfl
  have hother := locate_up.symm.trans (hlocate (by decide))
  simp at hother

end twoModules

end Classpath

import Classpath.Proofs.Store.ModuleImage

/-!
# Listing and looking up agree

What a location finds of a class is what it lists of it first, whatever else is stored, as long as
the class is where it belongs: what is read as the class has a plain name, and what has its name is
not behind a link, none of an archive's own entries, and named without empty pieces.

None of this can be left out. Links, such entries and names with empty pieces are found and not
listed; what has a dot in its name is listed and not found.

* `Classpath.Location.find_eq_first_listed` – the agreement, for every kind of store.
* `Classpath.storedAside.listed_or_found_only` – the classes on which the two do not agree.
-/

namespace Classpath

namespace Location

/-- **Looking up agrees with listing.** In a directory, an archive or an image in which a class can
only be where it belongs, looking the class up gives the first source of it that is listed, and
nothing exactly if none is listed. -/
theorem find_eq_first_listed {w : World} {t : ClassType} (ids : Naming) (frontend : Frontend)
    (sourceType : SourceType) (hw : w.files.WellFormed) (ht : t.IsNormal) :
    (∀ root, t.moduleName = none → KeptInDirectory w.files root frontend.extension ids t →
      ((ofDirectory root frontend sourceType).find t w).1 =
        .ok ((ofDirectory root frontend sourceType).first? ids t w)) ∧
    (∀ a, t.moduleName = none → KeptInArchive a frontend.extension ids t w →
      ((ofArchive a frontend sourceType).find t w).1 =
        .ok ((ofArchive a frontend sourceType).first? ids t w)) ∧
    (∀ root w₀ i, (ModuleImage.open root w₀).1 = .ok i → t.moduleName.isSome = ids.moduleAware →
      KeptInImage i frontend.extension ids t w →
      ((ofImage i frontend sourceType).find t w).1 =
        .ok ((ofImage i frontend sourceType).first? ids t w)) :=
  ⟨fun _ hplain hkept => find_ofDirectory hw ht hplain hkept,
    fun _ hplain hkept => find_ofArchive ht hplain hkept,
    fun _ _ _ hopen hshape hkept => find_ofImage hopen hw ht hshape hkept⟩

end Location

/-! ### A class that is stored three times -/

/-- A directory, an archive and an image that all hold the class `a.B`. -/
def storedThrice : World where
  files := {
    nodes := [
      (["c"], .directory), (["c", "a"], .directory), (["c", "a", "B.class"], .file (.plain [])),
      (["x.jar"], .file (.archive [("a/B.class", [])])),
      (["i"], .directory), (["i", "modules"], .directory), (["i", "modules", "m"], .directory),
      (["i", "modules", "m", "a"], .directory),
      (["i", "modules", "m", "a", "B.class"], .file (.plain []))] }

namespace storedThrice

/-- The class. -/
def type : ClassType := ⟨"a.B", none⟩

/-- The archive, not opened yet. -/
def archive : Archive := ⟨⟨"x.jar"⟩, 0⟩

/-- The image, in subdirectories. -/
def image : ModuleImage := ⟨⟨"i"⟩, .exploded ⟨"i/modules"⟩⟩

/-- The directory as a location of class files. -/
def plain : Location World := .ofDirectory ⟨"c"⟩ .classFile .application

/-- The archive as a location of class files. -/
def packaged : Location World := .ofArchive archive .classFile .application

/-- The image as a location of class files. -/
def modular : Location World := .ofImage image .classFile .application

theorem wellFormed : storedThrice.files.WellFormed where
  distinct := by decide
  nonempty := by decide
  named := by decide
  directory := by decide

theorem linkless : ∀ e ∈ storedThrice.files.nodes, ∀ target, e.2 ≠ .link target := by
  simp [storedThrice]

theorem isNormal : type.IsNormal := by decide

theorem isSegmented : type.IsSegmented := by decide

/-- The name under which the class is stored. -/
theorem isPlainStem : IsPlainStem "a/B".toList where
  dotless := by decide
  tight := tight_of_all (by decide)
  not_descriptor := by
    intro middle h
    simp at h

theorem isFileStem : IsFileStem "a/B".toList :=
  ⟨isPlainStem, by decide⟩

theorem isEntryStem : IsEntryStem "a/B".toList :=
  ⟨isPlainStem, by decide⟩

theorem keptInDirectory : KeptInDirectory storedThrice.files ⟨"c"⟩ "class" .plain type := by
  have hwalk : storedThrice.files.walk ⟨"c"⟩ = .ok [["a", "B.class"]] := by
    rw [wellFormed.walk_eq (by decide) (by decide)]
    decide +kernel
  refine ⟨_, hwalk, fun key hkey _ => ?_, fun _ => isSegmented, fun _ _ _ => ?_,
    fun _ => by decide⟩
  · rw [List.mem_singleton.mp hkey]
    exact ⟨"a/B", by decide, isFileStem⟩
  · exact FileTree.unlinked_of_forall linkless

theorem keptInArchive : KeptInArchive archive "class" .plain type storedThrice := by
  have hmem : (FileTree.names archive.path, Node.file (.archive [("a/B.class", [])])) ∈
      storedThrice.files.nodes := by
    decide
  have hdirectory : Archive.directory archive.path storedThrice.files =
      .ok ⟨[("a/B.class", .plain [])]⟩ := by
    rw [Archive.directory, wellFormed.read_eq hmem (by decide)]
    rfl
  have hopened : (archive.opened storedThrice).1 = .ok ⟨[("a/B.class", .plain [])]⟩ := by
    rw [Archive.opened_fst]
    exact hdirectory
  refine ⟨_, ⟨hopened, fun name hname _ => ?_, fun _ => by decide, ?_⟩, fun _ => by decide⟩
  · rw [List.mem_singleton.mp hname]
    exact ⟨"a/B", by decide, isEntryStem⟩
  · exact ArchiveDirectory.inReach_of_plain (by simp)

theorem open_image : (ModuleImage.open ⟨"i"⟩ storedThrice).1 = .ok image := by
  have hmem : (FileTree.names ((⟨"i"⟩ : Path).join ⟨"modules"⟩), Node.directory) ∈
      storedThrice.files.nodes := by
    decide
  have htarget := wellFormed.target?_eq hmem (by simp) (by decide)
  rw [ModuleImage.open, FileTree.isDirectory, htarget]
  rfl

theorem keptInImage : KeptInImage image "class" .plain type storedThrice := by
  have hentries : storedThrice.files.entryNames ⟨"i/modules"⟩ = .ok [("m", .directory)] := by
    rw [wellFormed.entryNames_eq (by decide) (by decide)]
    decide +kernel
  have hmodules : image.modules storedThrice = .ok [⟨"m"⟩] := by
    rw [ModuleImage.modules, image]
    simp only [hentries]
    decide +kernel
  have hwalk : storedThrice.files.walk ⟨"i/modules/m"⟩ = .ok [["a", "B.class"]] := by
    rw [wellFormed.walk_eq (by decide) (by decide)]
    decide +kernel
  refine .inl ⟨_, _, rfl, hmodules, fun m hm _ root hroot => ?_, fun m hm => ?_⟩
  · rw [List.mem_singleton.mp hm] at hroot
    obtain ⟨rfl, -⟩ := ModuleImage.of_moduleRoot? hroot
    refine ⟨_, hwalk, fun key hkey _ => ?_, fun _ => isSegmented, fun _ _ _ => ?_,
      fun _ => by decide⟩
    · rw [List.mem_singleton.mp hkey]
      exact ⟨"a/B", by decide, isFileStem⟩
    · exact FileTree.unlinked_of_forall linkless
  · cases hm

theorem find_eq_first_listed_type :
    (plain.find type storedThrice).1 = .ok (plain.first? .plain type storedThrice) ∧
      (packaged.find type storedThrice).1 = .ok (packaged.first? .plain type storedThrice) ∧
      (modular.find type storedThrice).1 = .ok (modular.first? .plain type storedThrice) := by
  obtain ⟨hdirectory, harchive, himage⟩ :=
    Location.find_eq_first_listed .plain .classFile .application wellFormed isNormal
  exact ⟨hdirectory _ rfl keptInDirectory, harchive _ rfl keptInArchive,
    himage _ _ _ open_image rfl keptInImage⟩

end storedThrice

/-! ### What is found and not listed, or listed and not found -/

namespace Location

variable {w : World} {t : ClassType} {ids : Naming} {frontend : Frontend} {sourceType : SourceType}

/-- **A directory lists a class** if a file below it is read as the class. -/
theorem first?_ofDirectory_isSome {root : Path} {keys : List Key}
    (hwalk : w.files.walk root = .ok keys) :
    ((ofDirectory root frontend sourceType).first? ids t w).isSome ↔
      ∃ key ∈ keys, ids.ofPath? ⟨"/".intercalate key⟩ frontend.extension none = some t := by
  have hstored : storedClasses w.files root frontend.extension ids none =
      .ok (keys.filterMap fun key =>
        (ids.ofPath? ⟨"/".intercalate key⟩ frontend.extension none).map
          fun t => (t, root.join ⟨"/".intercalate key⟩)) := by
    rw [storedClasses, hwalk]
  rw [first?_ofDirectory hstored, Option.isSome_map, List.find?_isSome]
  simp only [List.mem_filterMap, Option.map_eq_some_iff, decide_eq_true_eq]
  constructor
  · rintro ⟨-, ⟨key, hkey, u, hread, rfl⟩, rfl⟩
    exact ⟨key, hkey, hread⟩
  · rintro ⟨key, hkey, hread⟩
    exact ⟨_, ⟨key, hkey, t, hread, rfl⟩, rfl⟩

/-- **An archive lists a class** if an entry is read as the class. -/
theorem first?_ofArchive_isSome {a : Archive} {d : ArchiveDirectory}
    (hopened : (a.opened w).1 = .ok d) :
    ((ofArchive a frontend sourceType).first? ids t w).isSome ↔
      ∃ name ∈ d.names, archivedClass? frontend.extension ids name = some t := by
  rw [first?_ofArchive hopened, Option.isSome_map, List.find?_isSome]
  simp only [List.mem_filterMap, Option.map_eq_some_iff, decide_eq_true_eq]
  constructor
  · rintro ⟨-, ⟨name, hname, u, hread, rfl⟩, rfl⟩
    exact ⟨name, hname, hread⟩
  · rintro ⟨name, hname, hread⟩
    exact ⟨_, ⟨name, hname, t, hread, rfl⟩, rfl⟩

/-- **A class that is found and not listed.** -/
def FoundOnly (l : Location World) (ids : Naming) (t : ClassType) (w : World) : Prop :=
  t.IsNormal ∧ (∃ s, (l.find t w).1 = .ok (some s)) ∧ l.first? ids t w = none

/-- **A class that is listed and not found.** -/
def ListedOnly (l : Location World) (ids : Naming) (t : ClassType) (w : World) : Prop :=
  t.IsNormal ∧ (l.find t w).1 = .ok none ∧ ∃ s, l.first? ids t w = some s

end Location

/-- Directories and archives that each store a class in an unusual way: behind a link, below a link
to a directory, among an archive's own entries, or under a name that is read as another one. -/
def storedAside : World where
  files := {
    nodes := [
      (["y"], .file (.plain [])),
      (["c"], .directory), (["c", "X.class"], .link ⟨"../y"⟩),
      (["d"], .directory), (["d", "a.B.class"], .file (.plain [])),
      (["e"], .directory), (["e", "a"], .directory), (["e", "a", "B.class"], .file (.plain [])),
      (["m"], .directory), (["m", "X.class"], .file (.plain [])),
      (["i"], .directory), (["i", "modules"], .directory),
      (["i", "modules", "n"], .link ⟨"../../m"⟩),
      (["own.jar"], .file (.archive [("META-INF/X.class", [])])),
      (["root.jar"], .file (.archive [("/X.class", [])])),
      (["dot.jar"], .file (.archive [("a.B.class", [])]))] }

namespace storedAside

open Location

/-- A directory as a location of class files. -/
def below (name : String) : Location World :=
  .ofDirectory ⟨name⟩ .classFile .application

/-- An archive, not opened yet, as a location of class files. -/
def packaged (name : String) : Location World :=
  .ofArchive ⟨⟨name⟩, 0⟩ .classFile .application

/-- The image with a link in the place of a module. -/
def image : ModuleImage := ⟨⟨"i"⟩, .exploded ⟨"i/modules"⟩⟩

/-- The image as a location of class files. -/
def modular : Location World := .ofImage image .classFile .application

theorem wellFormed : storedAside.files.WellFormed where
  distinct := by decide
  nonempty := by decide
  named := by decide
  directory := by decide

/-! #### Directories -/

theorem isFile_of_followed {p : Path} (key : Key) {n : Nat}
    (hfollowed : storedAside.files.followed? n FileTree.maxLinks [] (FileTree.names p) =
      some (.ok key))
    (hnode : storedAside.files.node? key = some (.file (.plain [])))
    (hne : p.text ≠ "") (hzero : '\x00' ∉ p.text.toList)
    (hfits : p.text.utf8ByteSize ≤ FileTree.maxPath) (hrelative : p.isAbsolute = false) :
    storedAside.files.isFile p = true := by
  refine FileTree.isFile_iff.mpr ⟨key, .plain [], false, ?_, hnode⟩
  rw [FileTree.locate_of_relative hne hzero hfits hrelative,
    FileTree.locateFrom_of_followed? hfollowed]

/-- A class in a directory is found where there is a file at its path. -/
theorem exists_find_below {name : String} {t : ClassType} {p : Path}
    (hpath : (⟨name⟩ : Path).join ⟨t.relativePath "class"⟩ = p)
    (hfile : storedAside.files.isFile p = true) (hqualified : t.isQualified = false)
    (hclass : isDescriptorName t.name = false) :
    ∃ s, ((below name).find t storedAside).1 = .ok (some s) := by
  have hfind : ((below name).find t storedAside).1 = _ := find_ofDirectory_fst hqualified hclass
  rw [Frontend.extension, hpath, if_pos hfile] at hfind
  exact ⟨_, hfind⟩

/-- What is behind a link. -/
theorem foundOnly_linked : FoundOnly (below "c") .plain ⟨"X", none⟩ storedAside := by
  refine ⟨by decide, ?_, ?_⟩
  · refine exists_find_below (p := ⟨"c/X.class"⟩) (by decide) ?_ rfl (by decide)
    exact isFile_of_followed ["y"] (n := 4) (by decide) (by decide) (by decide) (by decide)
      (by decide) (by decide)
  · have hwalk : storedAside.files.walk ⟨"c"⟩ = .ok [] := by
      rw [wellFormed.walk_eq (by decide) (by decide)]
      decide +kernel
    rw [← Option.not_isSome_iff_eq_none, below, first?_ofDirectory_isSome hwalk]
    simp

/-- What has an empty piece in its name. -/
theorem foundOnly_doubled : FoundOnly (below "e") .plain ⟨"a..B", none⟩ storedAside := by
  refine ⟨by decide, ?_, ?_⟩
  · refine exists_find_below (p := ⟨"e/a//B.class"⟩) (by decide) ?_ rfl (by decide)
    exact isFile_of_followed ["e", "a", "B.class"] (n := 4) (by decide) (by decide) (by decide)
      (by decide) (by decide) (by decide)
  · have hwalk : storedAside.files.walk ⟨"e"⟩ = .ok [["a", "B.class"]] := by
      rw [wellFormed.walk_eq (by decide) (by decide)]
      decide +kernel
    have hread : Naming.plain.ofPath? ⟨"/".intercalate ["a", "B.class"]⟩ "class" none ≠
        some ⟨"a..B", none⟩ := by decide +kernel
    rw [← Option.not_isSome_iff_eq_none, below, first?_ofDirectory_isSome hwalk]
    simpa [Frontend.extension] using hread

/-- What has a dot in the name of its file. -/
theorem listedOnly_dotted : ListedOnly (below "d") .plain ⟨"a.B", none⟩ storedAside := by
  refine ⟨by decide, ?_, ?_⟩
  · have hpath : (⟨"d"⟩ : Path).join ⟨(⟨"a.B", none⟩ : ClassType).relativePath "class"⟩ =
        ⟨"d/a/B.class"⟩ := by decide
    have hlocate : storedAside.files.locateFrom .target FileTree.maxLinks []
        (FileTree.names ⟨"d/a/B.class"⟩) = .error .notFound :=
      FileTree.locateFrom_of_followed? (n := 3) (by decide)
    have hfile : storedAside.files.isFile ⟨"d/a/B.class"⟩ = false := by
      rw [FileTree.isFile, FileTree.target?, FileTree.locate_of_relative (by decide) (by decide)
        (by decide) (by decide), hlocate]
    refine (find_ofDirectory_fst rfl (by decide)).trans ?_
    rw [Frontend.extension, hpath, hfile]
    rfl
  · have hwalk : storedAside.files.walk ⟨"d"⟩ = .ok [["a.B.class"]] := by
      rw [wellFormed.walk_eq (by decide) (by decide)]
      decide +kernel
    have hread : Naming.plain.ofPath? ⟨"/".intercalate ["a.B.class"]⟩ "class" none =
        some ⟨"a.B", none⟩ := by decide +kernel
    exact Option.isSome_iff_exists.mp ((first?_ofDirectory_isSome hwalk).mpr
      ⟨_, List.mem_singleton_self _, hread⟩)

/-! #### Archives -/

/-- What an archive holds. -/
theorem opened (name entry : String)
    (h : (FileTree.names ⟨name⟩, Node.file (.archive [(entry, [])])) ∈ storedAside.files.nodes)
    (hfits : name.utf8ByteSize ≤ FileTree.maxPath) :
    ((⟨⟨name⟩, 0⟩ : Archive).opened storedAside).1 = .ok ⟨[(entry, .plain [])]⟩ := by
  have hdirectory : Archive.directory ⟨name⟩ storedAside.files = .ok ⟨[(entry, .plain [])]⟩ := by
    rw [Archive.directory, wellFormed.read_eq h hfits]
    rfl
  rw [Archive.opened_fst]
  exact hdirectory

theorem inReach (entry name : String) :
    ArchiveDirectory.InReach ⟨[(entry, .plain [])]⟩ name :=
  ArchiveDirectory.inReach_of_plain (by simp)

theorem foundOnly_packaged {name : String} (entry : String) {t : ClassType}
    (h : (FileTree.names ⟨name⟩, Node.file (.archive [(entry, [])])) ∈ storedAside.files.nodes)
    (hfits : name.utf8ByteSize ≤ FileTree.maxPath) (ht : t.IsNormal)
    (hpath : t.relativePath "class" = entry) (hqualified : t.isQualified = false)
    (hclass : isDescriptorName t.name = false)
    (hread : archivedClass? "class" .plain entry ≠ some t) :
    FoundOnly (packaged name) .plain t storedAside := by
  have hopened := opened name entry h hfits
  refine ⟨ht, ?_, ?_⟩
  · have hfind : ((packaged name).find t storedAside).1 = _ :=
      find_ofArchive_fst hopened (inReach _ _) hqualified hclass
    have hheld : (ArchiveDirectory.find? ⟨[(entry, .plain [])]⟩ entry).isSome = true := by
      rw [ArchiveDirectory.find?, List.lookup_cons_self]
      rfl
    rw [Frontend.extension, hpath, if_pos hheld] at hfind
    exact ⟨_, hfind⟩
  · rw [← Option.not_isSome_iff_eq_none, packaged, first?_ofArchive_isSome hopened]
    simpa [ArchiveDirectory.names, Frontend.extension] using hread

/-- What is among an archive's own entries. -/
theorem foundOnly_own : FoundOnly (packaged "own.jar") .plain ⟨"META-INF.X", none⟩ storedAside :=
  foundOnly_packaged "META-INF/X.class" (by decide) (by decide)
    (by decide) (by decide) rfl (by decide) (by decide +kernel)

/-- What is at the root of an archive. -/
theorem foundOnly_root : FoundOnly (packaged "root.jar") .plain ⟨".X", none⟩ storedAside :=
  foundOnly_packaged "/X.class" (by decide) (by decide)
    (by decide) (by decide) rfl (by decide) (by decide +kernel)

/-- What has a dot in the name of its entry. -/
theorem listedOnly_packaged :
    ListedOnly (packaged "dot.jar") .plain ⟨"a.B", none⟩ storedAside := by
  have hopened := opened "dot.jar" "a.B.class" (by decide) (by decide)
  refine ⟨by decide,
    (find_ofArchive_fst hopened (inReach _ _) rfl (by decide)).trans ?_, ?_⟩
  · have hnone : ArchiveDirectory.find? ⟨[("a.B.class", .plain [])]⟩
        ((⟨"a.B", none⟩ : ClassType).relativePath Frontend.classFile.extension) = none := by decide
    rw [hnone]
    rfl
  · have hread : archivedClass? "class" .plain "a.B.class" = some ⟨"a.B", none⟩ := by
      decide +kernel
    exact Option.isSome_iff_exists.mp ((first?_ofArchive_isSome hopened).mpr
      ⟨_, List.mem_singleton_self _, hread⟩)

/-! #### Images -/

/-- What is below a link in the place of a module. -/
theorem foundOnly_module : FoundOnly modular .qualified ⟨"X", some ⟨"n"⟩⟩ storedAside := by
  refine ⟨by decide, ?_, ?_⟩
  · have hfile : storedAside.files.isFile ⟨"i/modules/n/X.class"⟩ = true :=
      isFile_of_followed ["m", "X.class"] (n := 7) (by decide) (by decide) (by decide) (by decide)
        (by decide) (by decide)
    have hroot : ModuleImage.moduleRoot? ⟨"i/modules"⟩ ⟨"n"⟩ = some ⟨"i/modules/n"⟩ := by decide
    have hpath : (⟨"i/modules/n"⟩ : Path).join
        ⟨(⟨"X", some ⟨"n"⟩⟩ : ClassType).relativePath Frontend.classFile.extension⟩ =
        ⟨"i/modules/n/X.class"⟩ := by decide
    have hfind : (modular.find ⟨"X", some ⟨"n"⟩⟩ storedAside).1 = _ := find_ofImage_fst (by decide)
    simp only [ModuleImage.lookup_below (i := image) rfl hroot, hpath, hfile] at hfind
    exact ⟨_, hfind⟩
  · have hentries : storedAside.files.entryNames ⟨"i/modules"⟩ =
        .ok [("n", .link ⟨"../../m"⟩)] := by
      rw [wellFormed.entryNames_eq (by decide) (by decide)]
      decide +kernel
    have hmodules : image.modules storedAside = .ok [] := by
      rw [ModuleImage.modules, image]
      simp only [hentries]
      decide +kernel
    simp [modular, first?, listed, ofImage, hmodules, Except.map, Listing.entries, firstOf]

/-- **What is found and not listed, and what is listed and not found.** -/
theorem listed_or_found_only : storedAside.files.WellFormed ∧
    (FoundOnly (below "c") .plain ⟨"X", none⟩ storedAside ∧
      FoundOnly (below "e") .plain ⟨"a..B", none⟩ storedAside ∧
      ListedOnly (below "d") .plain ⟨"a.B", none⟩ storedAside) ∧
    (FoundOnly (packaged "own.jar") .plain ⟨"META-INF.X", none⟩ storedAside ∧
      FoundOnly (packaged "root.jar") .plain ⟨".X", none⟩ storedAside ∧
      ListedOnly (packaged "dot.jar") .plain ⟨"a.B", none⟩ storedAside) ∧
    FoundOnly modular .qualified ⟨"X", some ⟨"n"⟩⟩ storedAside :=
  ⟨wellFormed, ⟨foundOnly_linked, foundOnly_doubled, listedOnly_dotted⟩,
    ⟨foundOnly_own, foundOnly_root, listedOnly_packaged⟩, foundOnly_module⟩

end storedAside

end Classpath

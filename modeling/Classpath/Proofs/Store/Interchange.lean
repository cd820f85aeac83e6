import Classpath.Proofs.Store.Layouts

/-!
# Images of the same modules

Two images that store the same modules answer alike, whichever of the two layouts each of them has.

* `Classpath.ModuleMap.IsExploded.exists_shows`, `Classpath.ModuleMap.IsArchived.exists_shows` – an
  image that is opened shows what is stored, whatever was asked of it before.
* `Classpath.ModuleMap.interchangeable` – **the layouts are interchangeable**.
-/

namespace Classpath

namespace ModuleMap

variable {c : ModuleMap}

/-- **The modules below directories show their files.** -/
theorem IsExploded.exists_shows {root : Path} {w : World} (h : c.IsExploded root w.files) :
    ∃ i, (ModuleImage.open root w).1 = .ok i ∧
      ∀ v, i.SameFor (ModuleImage.open root w).2 v → i.Shows c v := by
  obtain ⟨key, hstored⟩ := h
  rw [hstored.open_eq]
  exact ⟨_, rfl, fun v hv => hstored.shows hv.files rfl⟩

/-- **The modules in archives show their files**, if no number was given to an archive before its
turn. -/
theorem IsArchived.exists_shows {root : Path} {w : World} (h : c.IsArchived root w.files)
    (hnumbered : ∀ e ∈ w.opened, e.1 < w.archives) :
    ∃ i, (ModuleImage.open root w).1 = .ok i ∧
      ∀ v, i.SameFor (ModuleImage.open root w).2 v → i.Shows c v := by
  obtain ⟨hmodules, key, hstored⟩ := h
  have hopen := hstored.open_eq hmodules
  have htold := ModuleImage.toldApart_of_open (congrArg Prod.fst hopen)
  rw [hopen]
  let dir := root.join ⟨"jmods"⟩
  have hpaths := ModuleImage.number_paths (c.archives dir) w
  obtain ⟨hfiles, hopened⟩ := ModuleImage.number_world (c.archives dir) w
  refine ⟨_, rfl, fun v hv => shows_of_archives rfl htold ?_ fun e he => ?_⟩
  · have hnames := congrArg (List.map Prod.fst) hpaths
    simpa [archives, List.map_map, Function.comp_def] using hnames
  · have hmem : (e.1, e.2.path) ∈ c.archives dir := by
      rw [← hpaths]
      exact List.mem_map.mpr ⟨e, he, rfl⟩
    obtain ⟨m, hm, heq⟩ := List.mem_map.mp hmem
    obtain ⟨hmodule, hpath⟩ := Prod.mk.inj heq
    obtain ⟨-, d, hd, hheld⟩ := hstored.stored m hm
    have hid : w.archives ≤ e.2.id := by
      have hids : e.2.id ∈ List.range' w.archives (c.archives dir).length := by
        rw [← ModuleImage.number_ids]
        exact List.mem_map.mpr ⟨e, he, rfl⟩
      exact (List.mem_range'_1.mp hids).1
    have hnew : w.opened.lookup e.2.id = none := by
      refine List.lookup_eq_none_iff.mpr fun other hother => ?_
      have hlt := hnumbered other hother
      simp
      omega
    refine ⟨d, ?_, hmodule ▸ hheld⟩
    rw [hv.opened _ rfl e he, Archive.opened_fst, hopened, hnew, hfiles, ← hpath]
    exact hd

/-- **The layouts are interchangeable.** An image that stores modules below directories and one that
stores the same modules in archives have the same modules, find a class in the same module and with
the same contents or not at all, and list the same classes of a module under the same paths, none of
which is a descriptor. -/
theorem interchangeable (c : ModuleMap) {w₁ w₂ : World} {root₁ root₂ : Path}
    (h₁ : c.IsExploded root₁ w₁.files) (h₂ : c.IsArchived root₂ w₂.files)
    (hnumbered : ∀ e ∈ w₂.opened, e.1 < w₂.archives) :
    ∃ i₁ i₂, (ModuleImage.open root₁ w₁).1 = .ok i₁ ∧ (ModuleImage.open root₂ w₂).1 = .ok i₂ ∧
      ∀ v₁ v₂, i₁.SameFor (ModuleImage.open root₁ w₁).2 v₁ →
        i₂.SameFor (ModuleImage.open root₂ w₂).2 v₂ →
          i₁.modules v₁ = .ok c.names ∧ i₂.modules v₂ = .ok c.names ∧
          (∀ frontend sourceType (t : ClassType), t.IsWorded →
            i₁.Finds v₁ frontend sourceType t (c.find? t frontend.extension) ∧
              i₂.Finds v₂ frontend sourceType t (c.find? t frontend.extension)) ∧
          (∀ m ∈ c.names, ∀ extension ids, ∃ found₁ found₂,
            i₁.Lists c m extension ids v₁ found₁ ∧ i₂.Lists c m extension ids v₂ found₂ ∧
              (∀ e, e ∈ found₁ ↔ e ∈ found₂) ∧
              ∀ e ∈ found₁, isDescriptorName e.1.name = false) ∧
          ∀ m, m ∉ c.names → ∀ extension ids found,
            (i₁.entries m extension ids v₁).1 = .ok found ∨
              (i₂.entries m extension ids v₂).1 = .ok found → found = [] := by
  obtain ⟨i₁, hopen₁, hshows₁⟩ := h₁.exists_shows
  obtain ⟨i₂, hopen₂, hshows₂⟩ := h₂.exists_shows hnumbered
  refine ⟨i₁, i₂, hopen₁, hopen₂, fun v₁ v₂ hv₁ hv₂ => ?_⟩
  have hi₁ := hshows₁ v₁ hv₁
  have hi₂ := hshows₂ v₂ hv₂
  refine ⟨hi₁.modules, hi₂.modules, fun frontend sourceType t ht => ?_,
    fun m hm extension ids => ?_, fun m hm extension ids found hfound => ?_⟩
  · exact ⟨hi₁.finds ht frontend sourceType, hi₂.finds ht frontend sourceType⟩
  · obtain ⟨found₁, hfound₁⟩ := hi₁.lists m hm extension ids
    obtain ⟨found₂, hfound₂⟩ := hi₂.lists m hm extension ids
    refine ⟨found₁, found₂, hfound₁, hfound₂, fun e => ?_, fun e he => ?_⟩
    · exact (hfound₁.2 e.1 e.2).trans (hfound₂.2 e.1 e.2).symm
    · exact ((hfound₁.2 e.1 e.2).mp he).1.isClass
  · exact hfound.elim (hi₁.missing m hm extension ids found) (hi₂.missing m hm extension ids found)

/-! ### Two modules, stored in both ways -/

end ModuleMap

/-- A module with a class and one without any. -/
def twoModules : ModuleMap where
  modules := [(⟨"m.x"⟩, [("a/B.class", [1, 2])]), (⟨"n"⟩, [])]
  named := by
    have hname : ∀ c : Char, ∀ rest : List Char, c.isAlphanum = true →
        (∀ d ∈ rest, d.isAlphanum = true ∨ d = '.') → IsModuleName ⟨String.ofList (c :: rest)⟩ := by
      intro c rest hc hrest
      refine ⟨c, rest, String.toList_ofList, isWordChar_of_isAlphanum (.inl hc), fun d hd => ?_⟩
      exact (hrest d hd).imp (fun hd => isWordChar_of_isAlphanum (.inl hd)) id
    simp only [List.forall_mem_cons, List.not_mem_nil, false_implies, implies_true, and_true]
    exact ⟨hname 'm' ['.', 'x'] rfl (by simp), hname 'n' [] rfl (by simp)⟩
  pathed := by
    have hword : ∀ piece : List Char, piece ≠ [] → (∀ c ∈ piece, c.isAlphanum = true) →
        IsWord piece :=
      fun piece hne h => ⟨hne, fun c hc => isWordChar_of_isAlphanum (.inl (h c hc))⟩
    have hpath : IsClassPath "a/B.class" := by
      refine ⟨["a".toList], "B".toList, "class".toList, by decide, ?_,
        hword _ (by decide) (by simp), by decide⟩
      simp only [List.cons_append, List.nil_append, List.forall_mem_cons, List.not_mem_nil,
        false_implies, implies_true, and_true]
      exact ⟨hword _ (by decide) (by simp), hword _ (by decide) (by simp)⟩
    simpa using hpath

namespace twoModules

/-- An image of either layout. -/
def world : World where
  files := { nodes := [
    (["i"], .directory), (["i", "modules"], .directory), (["i", "modules", "m.x"], .directory),
    (["i", "modules", "m.x", "a"], .directory),
    (["i", "modules", "m.x", "a", "B.class"], .file (.plain [1, 2])),
    (["i", "modules", "n"], .directory),
    (["j"], .directory), (["j", "jmods"], .directory),
    (["j", "jmods", "m.x.jmod"], .file (.archive [("classes/a/B.class", [1, 2])])),
    (["j", "jmods", "n.jmod"], .file (.archive []))] }

theorem wellFormed : world.files.WellFormed where
  distinct := by decide
  nonempty := by decide
  named := by decide
  directory := by decide

theorem names_eq : twoModules.names = [⟨"m.x"⟩, ⟨"n"⟩] := by
  have hdedup : (twoModules.modules.map Prod.fst).dedup = [⟨"m.x"⟩, ⟨"n"⟩] := by decide
  rw [ModuleMap.names, hdedup]
  exact List.mergeSort_of_pairwise (by decide)

theorem mem_names {m : ModuleName} : m ∈ twoModules.names ↔ m = ⟨"m.x"⟩ ∨ m = ⟨"n"⟩ := by
  simp [names_eq]

/-- There is one file. -/
theorem bytes?_eq_some {m : ModuleName} {relative : String} {bytes : Bytes} :
    twoModules.bytes? m relative = some bytes ↔
      m = ⟨"m.x"⟩ ∧ relative = "a/B.class" ∧ [1, 2] = bytes := by
  rw [ModuleMap.bytes?, twoModules, List.lookup_cons, List.lookup_cons, List.lookup_nil]
  by_cases hm : m = ⟨"m.x"⟩
  · subst hm
    rw [beq_self_eq_true]
    by_cases hrelative : relative = "a/B.class"
    · simp [hrelative]
    · simp [List.lookup_cons, beq_false_of_ne hrelative, hrelative]
  · rw [beq_false_of_ne hm]
    by_cases hn : m = ⟨"n"⟩
    · simp [hn]
    · simp [beq_false_of_ne hn, hm]

theorem locate_directory {p : Path}
    (h : (FileTree.names p, Node.directory) ∈ world.files.nodes)
    (hfits : p.text.utf8ByteSize ≤ FileTree.maxPath) :
    world.files.locate .target p = .ok (FileTree.names p) :=
  wellFormed.locate_eq h (by simp) hfits

theorem isExploded : twoModules.IsExploded ⟨"i"⟩ world.files := by
  have hnode : ∀ {key : Key} {node : Node},
      world.files.node? (["i", "modules"] ++ key) = some node →
      (["i", "modules"] ++ key, node) ∈ world.files.nodes :=
    fun h => FileTree.mem_of_node? (by simp) h
  refine ⟨["i", "modules"], wellFormed, ?_, by decide, fun m => ?_, fun names target hlink => ?_,
    fun m hm relative => ?_, fun m hm => ?_, fun m relative hsome => ?_⟩
  · exact locate_directory (p := ⟨"i/modules"⟩) (by decide) (by decide)
  · rw [mem_names]
    constructor
    · intro hdir
      simpa [world, ← ModuleName.mk.injEq] using hnode hdir
    · rintro (rfl | rfl) <;> decide
  · simpa [world] using hnode hlink
  · refine Option.ext fun bytes => ?_
    rw [bytes?_eq_some, Option.bind_eq_some_iff]
    constructor
    · rintro ⟨node, hnode', hbytes⟩
      have hmem := hnode hnode'
      have hne := FileTree.names_ne_nil ⟨relative⟩
      simp only [world, List.cons_append, List.nil_append, List.mem_cons, Prod.mk.injEq,
        List.cons.injEq, List.not_mem_nil, or_false, true_and, reduceCtorEq, false_and, and_false,
        false_or, hne] at hmem
      obtain ⟨-, rfl⟩ | ⟨⟨hname, hnames⟩, rfl⟩ := hmem
      · cases hbytes
      · refine ⟨congrArg ModuleName.mk hname, ?_, Option.some.inj hbytes⟩
        exact (intercalate_names ⟨relative⟩).symm.trans (by rw [hnames]; decide)
    · rintro ⟨rfl, rfl, rfl⟩
      exact ⟨.file (.plain [1, 2]), by decide, rfl⟩
  · rcases mem_names.mp hm with rfl | rfl <;> decide
  · obtain ⟨bytes, hbytes⟩ := Option.isSome_iff_exists.mp hsome
    obtain ⟨rfl, rfl, -⟩ := bytes?_eq_some.mp hbytes
    decide

/-- What an archive below the second image holds. -/
theorem directory_eq (name : String) (entries : List (String × Bytes))
    (h : (FileTree.names ⟨"j/jmods/" ++ name⟩, Node.file (.archive entries)) ∈ world.files.nodes)
    (hfits : ("j/jmods/" ++ name).utf8ByteSize ≤ FileTree.maxPath)
    (hordered : ArchiveDirectory.ofEntries (entries.map fun (name, bytes) => (name, .plain bytes)) =
      ⟨entries.map fun (name, bytes) => (name, .plain bytes)⟩) :
    Archive.directory ⟨"j/jmods/" ++ name⟩ world.files =
      .ok ⟨entries.map fun (name, bytes) => (name, .plain bytes)⟩ := by
  have hread : world.files.read ⟨"j/jmods/" ++ name⟩ = .ok (.archive entries) := by
    simp only [FileTree.read, wellFormed.locate_eq h (by simp) hfits, bind, Except.bind,
      wellFormed.node?_eq h]
  rw [Archive.directory, hread, ← hordered]

theorem isArchived : twoModules.IsArchived ⟨"j"⟩ world.files := by
  have hmodules : world.files.isDirectory ((⟨"j"⟩ : Path).join ⟨"modules"⟩) = false := by
    rw [FileTree.isDirectory, FileTree.target?_join_eq_none
      (locate_directory (p := ⟨"j"⟩) (by decide) (by decide)) (by decide) (by decide) (by decide)
      (by decide)]
    rfl
  refine ⟨hmodules, ["j", "jmods"], wellFormed, ?_, by decide, fun name node hmem => ?_,
    fun m hm => ?_⟩
  · exact locate_directory (p := ⟨"j/jmods"⟩) (by decide) (by decide)
  · have hname : name = "m.x.jmod" ∨ name = "n.jmod" := by
      have hkey := List.mem_map_of_mem (f := Prod.fst) hmem
      simpa [world] using hkey
    rcases hname with rfl | rfl
    · exact ⟨⟨"m.x"⟩, mem_names.mpr (.inl rfl), by decide⟩
    · exact ⟨⟨"n"⟩, mem_names.mpr (.inr rfl), by decide⟩
  · rcases mem_names.mp hm with rfl | rfl
    · refine ⟨⟨.file (.archive [("classes/a/B.class", [1, 2])]), by decide⟩, _,
        directory_eq "m.x.jmod" [("classes/a/B.class", [1, 2])] (by decide) (by decide)
          rfl,
        ModuleMap.heldIn_of_plain fun name => Option.ext fun bytes => ?_⟩
      have hfind : [("classes/a/B.class", [1, 2])].lookup name = some bytes ↔
          name = "classes/a/B.class" ∧ [1, 2] = bytes := by
        rw [List.lookup_cons]
        by_cases hname : name = "classes/a/B.class"
        · simp [hname]
        · simp [beq_false_of_ne hname, hname]
      rw [hfind, Option.bind_eq_some_iff]
      constructor
      · rintro ⟨rfl, rfl⟩
        exact ⟨"a/B.class".toList, by decide, bytes?_eq_some.mpr ⟨rfl, by decide, rfl⟩⟩
      · rintro ⟨relative, hstart, hbytes⟩
        obtain ⟨-, hrelative, rfl⟩ := bytes?_eq_some.mp hbytes
        refine ⟨String.toList_inj.mp ?_, rfl⟩
        rw [← List.isPrefixOf?_eq_some_iff_append_eq.mp hstart,
          ← String.toList_ofList (l := relative), hrelative]
        decide
    · refine ⟨⟨.file (.archive []), by decide⟩, _,
        directory_eq "n.jmod" [] (by decide) (by decide) rfl,
        ModuleMap.heldIn_of_plain fun name => ?_⟩
      symm
      rw [List.lookup_nil, Option.bind_eq_none_iff]
      intro relative _
      rw [← Option.not_isSome_iff_eq_none, Option.isSome_iff_exists]
      rintro ⟨bytes, hbytes⟩
      have hname := congrArg ModuleName.text (bytes?_eq_some.mp hbytes).1
      revert hname
      decide

/-- The class of the first module. -/
def type : ClassType := ⟨"a.B", none⟩

theorem isWorded : type.IsWorded := by
  have hsplit : type.name.toList.splitOn '.' = [['a'], ['B']] := by decide
  intro piece hpiece
  rw [hsplit] at hpiece
  have halphanum : ∀ piece ∈ [['a'], ['B']], piece ≠ [] ∧ ∀ c ∈ piece, c.isAlphanum = true := by
    simp
  obtain ⟨hne, hchars⟩ := halphanum piece hpiece
  exact ⟨hne, fun c hc => isWordChar_of_isAlphanum (.inl (hchars c hc))⟩

theorem find?_type : twoModules.find? type "class" = some (⟨"m.x"⟩, [1, 2]) := by
  have hbytes : twoModules.bytes? ⟨"m.x"⟩ (type.relativePath "class") = some [1, 2] :=
    bytes?_eq_some.mpr ⟨rfl, by decide, rfl⟩
  have hplain : type.moduleName.elim twoModules.names (fun m => [m]) = [⟨"m.x"⟩, ⟨"n"⟩] := names_eq
  rw [ModuleMap.find?, if_neg (by decide), hplain, List.findSome?_cons, hbytes]
  rfl

end twoModules

theorem interchangeable_twoModules : ∃ i₁ i₂,
    (ModuleImage.open ⟨"i"⟩ twoModules.world).1 = .ok i₁ ∧
      (ModuleImage.open ⟨"j"⟩ twoModules.world).1 = .ok i₂ ∧
      i₁.Finds twoModules.world .classFile .application twoModules.type
        (some (⟨"m.x"⟩, [1, 2])) ∧
      i₂.Finds (ModuleImage.open ⟨"j"⟩ twoModules.world).2 .classFile .application twoModules.type
        (some (⟨"m.x"⟩, [1, 2])) := by
  obtain ⟨i₁, i₂, hopen₁, hopen₂, hagree⟩ := twoModules.interchangeable
    twoModules.isExploded twoModules.isArchived (by simp [twoModules.world])
  have hworld : (ModuleImage.open ⟨"i"⟩ twoModules.world).2 = twoModules.world := by
    obtain ⟨key, hstored⟩ := twoModules.isExploded
    rw [hstored.open_eq]
  have hsame : i₁.SameFor (ModuleImage.open ⟨"i"⟩ twoModules.world).2 twoModules.world := by
    rw [hworld]
    exact .refl i₁ _
  obtain ⟨-, -, hfinds, -⟩ := hagree _ _ hsame (.refl i₂ _)
  obtain ⟨hfinds₁, hfinds₂⟩ := hfinds .classFile .application twoModules.type twoModules.isWorded
  rw [← twoModules.find?_type]
  exact ⟨i₁, i₂, hopen₁, hopen₂, hfinds₁, hfinds₂⟩

end Classpath

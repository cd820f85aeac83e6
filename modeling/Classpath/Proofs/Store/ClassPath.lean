import Classpath.Proofs.Store.ModuleImage

/-!
# Paths of classes, read in two ways

What is stored under a path is read as a class in two ways: below a directory the name is put
together from what the path names, in an archive it is what is left of the name of an entry without
the folder and the extension. The two agree on paths that are made of words, in which no separator
of either spelling stands.

* `Classpath.IsWord` – a piece of a name or of a path.
* `Classpath.IsClassPath`, `Classpath.IsClassPath.exists_type` – paths made of words, which are
  those of types with worded names.
* `Classpath.IsClassPath.ofPath?_eq_some_iff`, `Classpath.IsClassPath.archivedClass?_eq` – what a
  path is read as.
* `Classpath.IsModuleName` – a name of a module, which is a single step of a path.
-/

namespace Classpath

variable {piece last : List Char} {init : List (List Char)} {extension relative : String}
  {t u : ClassType} {ids : Naming} {m : ModuleName}

/-! ### Words -/

/-- A character that is no separator of any spelling of a name. -/
def IsWordChar (c : Char) : Prop :=
  isBlank c = false ∧ c ∉ ['.', '/', '\\', ';', '\x00']

instance (c : Char) : Decidable (IsWordChar c) :=
  inferInstanceAs (Decidable (_ ∧ _))

/-- **Letters, digits, `_`, `$` and `-` are no separators.** -/
theorem isWordChar_of_isAlphanum {c : Char} (h : c.isAlphanum = true ∨ c ∈ ['_', '$', '-']) :
    IsWordChar c := by
  rcases h with h | h
  · have hrange : 48 ≤ c.toNat ∧ c.toNat ≤ 57 ∨ 65 ≤ c.toNat ∧ c.toNat ≤ 90 ∨
        97 ≤ c.toNat ∧ c.toNat ≤ 122 := by
      have hc : c.val.toNat = c.toNat := rfl
      change (decide (65 ≤ c.val ∧ c.val ≤ 90) || (decide (97 ≤ c.val) && decide (c.val ≤ 122)) ||
        (decide (48 ≤ c.val) && decide (c.val ≤ 57))) = true at h
      simp only [Bool.or_eq_true, Bool.and_eq_true, decide_eq_true_eq,
        UInt32.le_iff_toNat_le] at h
      simp at h
      omega
    refine ⟨?_, fun hmem => ?_⟩
    · rw [← Bool.not_eq_true]
      simp only [isBlank, Bool.or_eq_true, Bool.and_eq_true, decide_eq_true_eq, beq_iff_eq]
      omega
    · simp only [List.mem_cons, List.not_mem_nil, or_false] at hmem
      rcases hmem with rfl | rfl | rfl | rfl | rfl <;> revert hrange <;> decide
  · simp only [List.mem_cons, List.not_mem_nil, or_false] at h
    rcases h with rfl | rfl | rfl <;> decide

/-- **A piece of a name or of a path.** -/
structure IsWord (piece : List Char) : Prop where
  nonempty : piece ≠ []
  chars : ∀ c ∈ piece, IsWordChar c

theorem IsWord.not_mem (h : IsWord piece) {c : Char} (hc : c ∈ ['.', '/', '\\', ';', '\x00']) :
    c ∉ piece :=
  fun hmem => (h.chars c hmem).2 hc

namespace ClassType

/-- **A type whose name is made of words.** -/
def IsWorded (t : ClassType) : Prop :=
  ∀ piece ∈ t.name.toList.splitOn '.', IsWord piece

theorem IsWorded.isSegmented (h : t.IsWorded) : t.IsSegmented :=
  fun hmem => (h [] hmem).nonempty rfl

theorem IsWorded.intercalate_eq (h : t.IsWorded) :
    ∃ init last, t.name.toList = ['.'].intercalate (init ++ [last]) ∧
      ∀ piece ∈ init ++ [last], IsWord piece := by
  rcases List.eq_nil_or_concat (t.name.toList.splitOn '.') with hnil | ⟨init, last, hpieces⟩
  · exact absurd hnil (List.splitOn_ne_nil '.' _)
  · rw [List.concat_eq_append] at hpieces
    refine ⟨init, last, ?_, hpieces ▸ h⟩
    rw [← hpieces, List.intercalate_splitOn]

theorem isWorded_of_eq (hname : t.name.toList = ['.'].intercalate (init ++ [last]))
    (hwords : ∀ piece ∈ init ++ [last], IsWord piece) : t.IsWorded := by
  have hdotless : ∀ piece ∈ init ++ [last], '.' ∉ piece :=
    fun piece hpiece => (hwords piece hpiece).not_mem (by simp)
  rw [IsWorded, hname, List.splitOn_intercalate '.' hdotless (by simp)]
  exact hwords

theorem IsWorded.not_mem (h : t.IsWorded) {c : Char} (hc : c ∈ ['/', '\\', ';', '\x00']) :
    c ∉ t.name.toList := by
  obtain ⟨init, last, hname, hwords⟩ := h.intercalate_eq
  rw [hname]
  refine not_mem_intercalate (fun hdot => ?_) fun piece hpiece =>
    (hwords piece hpiece).not_mem (List.mem_cons_of_mem _ hc)
  rw [List.mem_singleton.mp hdot] at hc
  revert hc
  decide

/-- **A name made of words is its own normal spelling** unless it ends like a class literal. -/
theorem isNormal_of_words (hname : t.name.toList = ['.'].intercalate (init ++ [last]))
    (hwords : ∀ piece ∈ init ++ [last], IsWord piece) (hlast : last ≠ "class".toList) :
    t.IsNormal := by
  have hworded := isWorded_of_eq hname hwords
  have hlastWord := hwords last (by simp)
  have hblank : ∀ c ∈ t.name.toList, isBlank c = false := by
    rw [hname]
    exact forall_mem_intercalate (List.forall_mem_singleton.mpr rfl) fun piece hpiece c hc =>
      ((hwords piece hpiece).chars c hc).1
  have hclass : ".class".toList.isSuffixOf? t.name.toList = none := by
    refine isSuffixOf?_eq_none ?_
    rintro ⟨before, hbefore⟩
    have hcut : cutAtLast? '.' t.name.toList = some (before, "class".toList) := by
      rw [← hbefore]
      exact cutAtLast?_append before (by decide)
    rw [hname] at hcut
    rcases init with _ | ⟨first, init⟩
    · rw [List.nil_append, List.intercalate_singleton,
        cutAtLast?_eq_none (hlastWord.not_mem (by simp))] at hcut
      cases hcut
    · rw [intercalate_append (by simp) (by simp), List.intercalate_singleton, List.append_assoc,
        List.singleton_append, cutAtLast?_append _ (hlastWord.not_mem (by simp))] at hcut
      exact hlast (congrArg Prod.snd (Option.some.inj hcut))
  exact Spelled.normalizedName_eq ⟨tight_of_forall hblank, hclass,
    not_descriptor_of_not_mem (hworded.not_mem (by simp)), hworded.not_mem (by simp)⟩

end ClassType

/-! ### Paths -/

/-- **A path made of words**, the last one with an extension. What ends like a class literal is
left out: the end would be taken off its name. -/
def IsClassPath (relative : String) : Prop :=
  ∃ init last extension, (⟨relative⟩ : Path).segments = init ++ [last ++ '.' :: extension] ∧
    (∀ piece ∈ init ++ [last], IsWord piece) ∧ IsWord extension ∧ last ≠ "class".toList

/-- A path made of words is that of a type and of an extension. -/
theorem IsClassPath.exists_type (h : IsClassPath relative) :
    ∃ t : ClassType, ∃ extension : String, relative = t.relativePath extension ∧ t.IsWorded ∧
      t.IsNormal ∧ IsWord extension.toList := by
  obtain ⟨init, last, extension, hsegments, hwords, hextension, hlast⟩ := h
  let t : ClassType := ⟨String.ofList (['.'].intercalate (init ++ [last])), none⟩
  have hname : t.name.toList = ['.'].intercalate (init ++ [last]) := String.toList_ofList
  refine ⟨t, String.ofList extension, String.toList_inj.mp ?_,
    ClassType.isWorded_of_eq hname hwords, ClassType.isNormal_of_words hname hwords hlast, ?_⟩
  · have hdotless : ∀ piece ∈ init ++ [last], '.' ∉ piece :=
      fun piece hpiece => (hwords piece hpiece).not_mem (by simp)
    have htext : relative.toList = ['/'].intercalate (init ++ [last ++ '.' :: extension]) := by
      rw [← hsegments, Path.segments, List.intercalate_splitOn]
    rw [htext, ← intercalate_concat, ← replaceChar_intercalate hdotless, ← hname]
    simp [ClassType.relativePath, ClassType.internalName]
  · rwa [String.toList_ofList]

/-- A path has one type and one extension. -/
theorem ClassType.relativePath_inj {e e' : String} (ht : '/' ∉ t.name.toList)
    (hu : '/' ∉ u.name.toList) (h : t.relativePath e = u.relativePath e') :
    t.name = u.name ∧ e = e' := by
  have htext : t.internalName.toList ++ '.' :: e.toList =
      u.internalName.toList ++ '.' :: e'.toList := by
    simpa [relativePath] using congrArg String.toList h
  have hcut := (cutAt?_append t.dotless_internalName e.toList).symm.trans
    ((congrArg (cutAt? '.') htext).trans (cutAt?_append u.dotless_internalName e'.toList))
  obtain ⟨hinternal, hextension⟩ := Prod.mk.inj (Option.some.inj hcut)
  refine ⟨String.toList_inj.mp ?_, String.toList_inj.mp hextension⟩
  rw [← replaceChar_internalName ht, ← replaceChar_internalName hu, hinternal]

/-- **What a module stores under a path is a class**: its path is this one, and it belongs to the
module. -/
structure StoredAs (ids : Naming) (m : ModuleName) (extension relative : String) (t : ClassType) :
    Prop where
  path : relative = t.relativePath extension
  isNormal : t.IsNormal
  places : ids.Places (some m) t
  isClass : isDescriptorName t.name = false

/-- **Below a directory a path made of words is read as the class that it stands for.** -/
theorem IsClassPath.ofPath?_eq_some_iff (h : IsClassPath relative) :
    ids.ofPath? ⟨relative⟩ extension (some m) = some t ↔ StoredAs ids m extension relative t := by
  obtain ⟨u, e, rfl, hworded, hnormal, he⟩ := h.exists_type
  have hslash := hnormal.spelled.slashless
  rw [Naming.ofPath?_relativePath_eq hslash hworded.isSegmented (he.not_mem (by simp))
    (he.not_mem (by simp))]
  constructor
  · intro hread
    split_ifs at hread with hextension
    have hname : t.name = u.name :=
      String.toList_inj.mp ((Naming.name_of_ofEntryName? hread).trans hnormal)
    obtain ⟨hplaces, hclass⟩ := Naming.ofEntryName?_eq_some hread
    refine ⟨?_, ?_, hplaces, hclass⟩
    · rw [ClassType.relativePath, ClassType.relativePath, ClassType.internalName,
        ClassType.internalName, hname, hextension]
    · rw [ClassType.IsNormal, hname]
      exact hnormal
  · rintro ⟨hpath, htnormal, hplaces, hclass⟩
    obtain ⟨hname, hextension⟩ :=
      ClassType.relativePath_inj hslash htnormal.spelled.slashless hpath
    rw [if_pos hextension]
    refine Naming.ofEntryName?_of_eq ?_ (hname ▸ hworded.isSegmented.ne_empty.1) hclass hplaces
    rw [hname]
    exact htnormal

/-- **In an archive a path made of words is read as below a directory.** -/
theorem IsClassPath.archivedClass?_eq (h : IsClassPath relative) :
    ModuleImage.archivedClass? extension ids m (ModuleImage.classesFolder ++ relative) =
      ids.ofPath? ⟨relative⟩ extension (some m) := by
  obtain ⟨u, e, rfl, hworded, hnormal, he⟩ := h.exists_type
  rw [Naming.ofPath?_relativePath_eq hnormal.spelled.slashless hworded.isSegmented
    (he.not_mem (by simp)) (he.not_mem (by simp)), ModuleImage.archivedClass?,
    String.toList_append, isPrefixOf?_append, Option.bind_eq_bind, Option.bind_some]
  have hspelling : ∀ entry : String, normalizedName entry.toList = u.name.toList →
      ids.ofEntryName? entry (some m) = ids.ofEntryName? u.name (some m) := by
    intro entry hentry
    rw [Naming.ofEntryName?, Naming.ofEntryName?, Naming.classType, Naming.classType, hentry,
      hnormal]
  by_cases hextension : e = extension
  · subst hextension
    rw [if_pos rfl, ClassType.relativePath, isSuffixOf?_extension, Option.bind_some,
      String.ofList_toList]
    exact hspelling _ (hnormal.normalizedName_internalName hworded.isSegmented.ne_empty.2)
  · rw [if_neg hextension, isSuffixOf?_eq_none, Option.bind_none]
    rintro ⟨stem, hstem⟩
    -- the path has one dot, so what follows it is the extension
    have htext : stem ++ '.' :: extension.toList = u.internalName.toList ++ '.' :: e.toList := by
      simpa [ClassType.relativePath] using hstem
    have hcount := congrArg (List.count '.') htext
    have hnone := List.count_eq_zero.mpr u.dotless_internalName
    have hnoneMore := List.count_eq_zero.mpr (he.not_mem (c := '.') (by simp))
    simp only [List.count_append, List.count_cons_self, hnone, hnoneMore] at hcount
    have hdotless : '.' ∉ stem := List.count_eq_zero.mp (by omega)
    have hcut := (cutAt?_append hdotless extension.toList).symm.trans
      ((congrArg (cutAt? '.') htext).trans (cutAt?_append u.dotless_internalName e.toList))
    exact hextension (String.toList_inj.mp (Prod.mk.inj (Option.some.inj hcut)).2.symm)

/-! ### Modules -/

/-- A name of a module: it is made of words with dots between them, and does not start with one. -/
def IsModuleName (m : ModuleName) : Prop :=
  ∃ c rest, m.text.toList = c :: rest ∧ IsWordChar c ∧ ∀ d ∈ rest, IsWordChar d ∨ d = '.'

namespace IsModuleName

theorem isWordChar_or (hm : IsModuleName m) {d : Char} (hd : d ∈ m.text.toList) :
    IsWordChar d ∨ d = '.' := by
  obtain ⟨a, rest, htext, ha, hrest⟩ := hm
  rw [htext] at hd
  rcases List.mem_cons.mp hd with rfl | hd
  · exact .inl ha
  · exact hrest d hd

theorem not_mem (hm : IsModuleName m) {d : Char} (hd : d ∈ ['/', '\\', ';', '\x00']) :
    d ∉ m.text.toList := by
  intro hmem
  rcases hm.isWordChar_or hmem with hword | rfl
  · exact hword.2 (List.mem_cons_of_mem _ hd)
  · revert hd
    decide

theorem isPlainName (hm : IsModuleName m) : FileTree.IsPlainName m.text := by
  obtain ⟨a, rest, htext, ha, -⟩ := hm
  have hhead : m.text.toList.head? = some a := by rw [htext, List.head?_cons]
  have hdot : a ≠ '.' := by
    rintro rfl
    exact ha.2 (by simp)
  refine ⟨fun h => ?_, fun h => hdot ?_, fun h => hdot ?_⟩ <;> rw [h] at hhead
  · cases hhead
  · exact (Option.some.inj hhead).symm
  · exact (Option.some.inj hhead).symm

theorem moduleRoot?_eq (hm : IsModuleName m) (dir : Path) :
    ModuleImage.moduleRoot? dir m = some (dir.join ⟨m.text⟩) :=
  ModuleImage.moduleRoot?_of_isPlainName hm.isPlainName (hm.not_mem (by simp))
    (hm.not_mem (by simp)) dir

end IsModuleName

end Classpath

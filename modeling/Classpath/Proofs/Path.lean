import Classpath.Path
import Classpath.Proofs.Text

/-!
# Where classes are stored

The path of a class in a store is made from its name, and the file at that path is read as the class
again. This needs a name in its normal spelling; for files in directories it also needs that no piece
of the name between dots is empty, because paths do not keep empty pieces.

* `Classpath.ClassType.IsNormal`, `Classpath.ClassType.IsSegmented` – names as they should be.
* `Classpath.ClassType.spelled_of_eq`, `Classpath.ClassType.tight_internalName_iff` – what a name is
  like from which the reader of spelled names takes nothing off.
* `Classpath.Naming.ofEntryName?_internalName`, `Classpath.Naming.ofPath?_relativePath` – reading a
  path back, as an entry of an archive and as a file.
* `Classpath.Naming.Places` – the types that files of a module are read as.
-/

namespace Classpath

variable {s : List Char} {c : Char}

/-! ### Characters -/

theorem replaceChar_eq_self {old new : Char} (h : old ∉ s) : replaceChar old new s = s := by
  have hkeep : ∀ c ∈ s, (if c = old then new else c) = c := by
    intro c hc
    exact if_neg (ne_of_mem_of_not_mem hc h)
  exact (List.map_congr_left hkeep).trans (List.map_id' s)

theorem not_mem_replaceChar {old new : Char} (h : old ≠ new) : old ∉ replaceChar old new s := by
  intro hmem
  obtain ⟨c, -, heq⟩ := List.mem_map.mp hmem
  split at heq
  · exact h heq.symm
  · rename_i hc
    exact hc heq

theorem replaceChar_append (old new : Char) (a b : List Char) :
    replaceChar old new (a ++ b) = replaceChar old new a ++ replaceChar old new b :=
  List.map_append

/-- Replacing separators between pieces that do not have them. -/
theorem replaceChar_intercalate {old new : Char} {pieces : List (List Char)}
    (h : ∀ piece ∈ pieces, old ∉ piece) :
    replaceChar old new ([old].intercalate pieces) = [new].intercalate pieces := by
  induction pieces with
  | nil => rfl
  | cons piece pieces ih =>
    obtain ⟨hpiece, hpieces⟩ := List.forall_mem_cons.mp h
    rcases pieces with _ | ⟨next, pieces⟩
    · simpa using replaceChar_eq_self hpiece
    · have hsep : replaceChar old new [old] = [new] := by simp [replaceChar]
      rw [List.intercalate_cons_cons, List.intercalate_cons_cons, replaceChar_append,
        replaceChar_append, ih hpieces, replaceChar_eq_self hpiece, hsep]

theorem intercalate_concat (sep : List Char) (pieces : List (List Char)) (last t : List Char) :
    sep.intercalate (pieces ++ [last]) ++ t = sep.intercalate (pieces ++ [last ++ t]) := by
  rcases pieces with _ | ⟨first, pieces⟩
  · simp
  · rw [intercalate_append (by simp) (by simp), intercalate_append (by simp) (by simp)]
    simp

namespace ClassType

/-! ### Names in their normal spelling -/

/-- **A type whose name is its own normal spelling.** -/
def IsNormal (t : ClassType) : Prop :=
  normalizedName t.name.toList = t.name.toList

instance (t : ClassType) : Decidable t.IsNormal :=
  inferInstanceAs (Decidable (normalizedName t.name.toList = t.name.toList))

/-- **A type whose name has no empty pieces** between dots. -/
def IsSegmented (t : ClassType) : Prop :=
  [] ∉ t.name.toList.splitOn '.'

instance (t : ClassType) : Decidable t.IsSegmented :=
  inferInstanceAs (Decidable ([] ∉ t.name.toList.splitOn '.'))

/-- A name without empty pieces does not start with a dot, nor is it empty. -/
theorem IsSegmented.ne_empty {t : ClassType} (h : t.IsSegmented) :
    t.name ≠ "" ∧ t.name.toList.head? ≠ some '.' := by
  have hne : t.name ≠ "" := by
    intro hempty
    refine h ?_
    simp [hempty]
  refine ⟨hne, fun hdot => h ?_⟩
  obtain ⟨rest, hrest⟩ : ∃ rest, t.name.toList = '.' :: rest := by
    rcases hname : t.name.toList with _ | ⟨c, rest⟩ <;> rw [hname] at hdot
    · cases hdot
    · exact ⟨rest, by rw [Option.some.inj hdot]⟩
  rw [hrest, List.splitOn, List.splitOnP_cons_eq_if_modifyHead]
  simp

/-- Without semicolons there is no descriptor. -/
theorem not_descriptor_of_not_mem (h : ';' ∉ s) :
    (['L'].isPrefixOf? s).bind (fun rest => [';'].isSuffixOf? rest) = none := by
  rw [Option.bind_eq_none_iff]
  intro rest hstart
  rw [List.isPrefixOf?_eq_some_iff_append_eq] at hstart
  refine isSuffixOf?_eq_none fun hend => h ?_
  rw [← hstart]
  exact List.mem_append_right _ (hend.subset (by simp))

/-- What a normal spelling is: nothing is taken from it. -/
structure Spelled (s : List Char) : Prop where
  tight : Tight s
  not_classLiteral : ".class".toList.isSuffixOf? s = none
  not_descriptor : (['L'].isPrefixOf? s).bind (fun rest => [';'].isSuffixOf? rest) = none
  slashless : '/' ∉ s

/-- Taking a piece off a text makes it shorter. -/
theorem length_getD_le {x : Option (List Char)} {s : List Char}
    (h : ∀ rest, x = some rest → rest.length < s.length) : (x.getD s).length ≤ s.length := by
  rcases x with _ | rest
  · exact le_rfl
  · exact (h rest rfl).le

theorem length_lt_of_isSuffixOf? {suffix rest : List Char} (hne : suffix ≠ [])
    (h : suffix.isSuffixOf? s = some rest) : rest.length < s.length := by
  rw [← List.isSuffixOf?_eq_some_iff_append_eq.mp h, List.length_append]
  exact Nat.lt_add_of_pos_right (List.length_pos_iff.mpr hne)

theorem length_lt_of_isPrefixOf? {start rest : List Char} (hne : start ≠ [])
    (h : start.isPrefixOf? s = some rest) : rest.length < s.length := by
  rw [← List.isPrefixOf?_eq_some_iff_append_eq.mp h, List.length_append]
  exact Nat.lt_add_of_pos_left (List.length_pos_iff.mpr hne)

theorem length_lt_of_descriptor {rest : List Char}
    (h : (['L'].isPrefixOf? s).bind (fun rest => [';'].isSuffixOf? rest) = some rest) :
    rest.length < s.length := by
  obtain ⟨tail, hstart, hend⟩ := Option.bind_eq_some_iff.mp h
  exact (length_lt_of_isSuffixOf? (by decide) hend).trans
    (length_lt_of_isPrefixOf? (by decide) hstart)

/-- **A normal spelling is not longer** than what it is the spelling of. -/
theorem length_normalizedName_le (s : List Char) : (normalizedName s).length ≤ s.length := by
  rw [normalizedName, replaceChar, List.length_map]
  refine (length_getD_le fun rest => length_lt_of_isPrefixOf? (by decide)).trans ?_
  refine (length_getD_le fun rest => length_lt_of_descriptor).trans ?_
  refine (length_getD_le fun rest => length_lt_of_isSuffixOf? (by decide)).trans ?_
  exact (trim_isInfix s).length_le

theorem eq_none_of_length {x : Option (List Char)} {s : List Char}
    (h : ∀ rest, x = some rest → rest.length < s.length) (hle : s.length ≤ (x.getD s).length) :
    x = none := by
  rcases x with _ | rest
  · rfl
  · exact absurd (h rest rfl) (not_lt.mpr hle)

/-- **Nothing is taken from a text whose normal spelling is as long as the text**. -/
theorem kept_of_length_le (h : s.length ≤ (normalizedName s).length) :
    Tight s ∧ ".class".toList.isSuffixOf? s = none ∧
      (['L'].isPrefixOf? s).bind (fun rest => [';'].isSuffixOf? rest) = none ∧
      ['/'].isPrefixOf? s = none := by
  obtain ⟨trimmed, htrimmed⟩ : ∃ trimmed, trim s = trimmed := ⟨_, rfl⟩
  obtain ⟨plain, hplain⟩ : ∃ plain,
      (".class".toList.isSuffixOf? trimmed).getD trimmed = plain := ⟨_, rfl⟩
  obtain ⟨bare, hbare⟩ : ∃ bare, ((['L'].isPrefixOf? plain).bind
      fun rest => [';'].isSuffixOf? rest).getD plain = bare := ⟨_, rfl⟩
  obtain ⟨relative, hrelative⟩ : ∃ relative, (['/'].isPrefixOf? bare).getD bare = relative :=
    ⟨_, rfl⟩
  have hlength : s.length ≤ relative.length := by
    rw [normalizedName, htrimmed] at h
    simpa only [hplain, hbare, hrelative, replaceChar, List.length_map] using h
  have hclass : ∀ rest, ".class".toList.isSuffixOf? trimmed = some rest →
      rest.length < trimmed.length := fun rest => length_lt_of_isSuffixOf? (by decide)
  have hdescriptor : ∀ rest, ((['L'].isPrefixOf? plain).bind fun rest => [';'].isSuffixOf? rest) =
      some rest → rest.length < plain.length := fun rest => length_lt_of_descriptor
  have hroot : ∀ rest, ['/'].isPrefixOf? bare = some rest → rest.length < bare.length :=
    fun rest => length_lt_of_isPrefixOf? (by decide)
  have hle : trimmed.length ≤ s.length := htrimmed ▸ (trim_isInfix s).length_le
  have hleTrimmed : plain.length ≤ trimmed.length := hplain ▸ length_getD_le hclass
  have hlePlain : bare.length ≤ plain.length := hbare ▸ length_getD_le hdescriptor
  have hleBare : relative.length ≤ bare.length := hrelative ▸ length_getD_le hroot
  have htrim : trimmed = s := by
    subst htrimmed
    exact (trim_isInfix s).eq_of_length (by omega)
  have hclassNone : ".class".toList.isSuffixOf? trimmed = none :=
    eq_none_of_length hclass (by rw [hplain]; omega)
  have hdescriptorNone := eq_none_of_length hdescriptor (by rw [hbare]; omega)
  have hrootNone : ['/'].isPrefixOf? bare = none :=
    eq_none_of_length hroot (by rw [hrelative]; omega)
  rw [hclassNone, Option.getD_none, htrim] at hplain
  rw [hdescriptorNone, Option.getD_none, ← hplain] at hbare
  rw [htrim] at hclassNone
  rw [← hplain] at hdescriptorNone
  rw [← hbare] at hrootNone
  refine ⟨?_, hclassNone, hdescriptorNone, hrootNone⟩
  rw [← htrim, ← htrimmed]
  exact tight_trim s

/-- Nothing is taken from a normal spelling. -/
theorem spelled_of_eq (h : normalizedName s = s) : Spelled s := by
  obtain ⟨htight, hclass, hdescriptor, -⟩ := kept_of_length_le (by rw [h])
  refine ⟨htight, hclass, hdescriptor, ?_⟩
  rw [← h, normalizedName]
  exact not_mem_replaceChar (by decide)

/-- **A text from which nothing is taken is its own normal spelling.** -/
theorem Spelled.normalizedName_eq (h : Spelled s) : normalizedName s = s := by
  have hroot : ['/'].isPrefixOf? s = none :=
    isPrefixOf?_eq_none fun hstart => h.slashless (hstart.subset (by simp))
  simp only [normalizedName, h.tight.trim_eq, h.not_classLiteral, Option.getD_none,
    h.not_descriptor, hroot, replaceChar_eq_self h.slashless]

variable {t : ClassType}

theorem IsNormal.spelled (h : t.IsNormal) : Spelled t.name.toList :=
  spelled_of_eq h

theorem isBlank_replaceChar (c : Char) : isBlank (if c = '.' then '/' else c) = isBlank c := by
  split
  · rename_i hc
    rw [hc]
    decide
  · rfl

theorem dotless_internalName (t : ClassType) : '.' ∉ t.internalName.toList := by
  rw [internalName, String.toList_ofList]
  exact not_mem_replaceChar (by decide)

/-- A name without slashes is known from its path. -/
theorem replaceChar_internalName (hslash : '/' ∉ t.name.toList) :
    replaceChar '/' '.' t.internalName.toList = t.name.toList := by
  have hkeep : ∀ c ∈ t.name.toList,
      (if (if c = '.' then '/' else c) = '/' then '.' else if c = '.' then '/' else c) = c := by
    intro c hc
    have hne : c ≠ '/' := ne_of_mem_of_not_mem hc hslash
    split_ifs <;> simp_all
  rw [internalName, String.toList_ofList, replaceChar, replaceChar, List.map_map]
  exact (List.map_congr_left hkeep).trans (List.map_id' _)

/-- The path of a class has the blanks at its ends that the name has. -/
theorem tight_internalName_iff : Tight t.internalName.toList ↔ Tight t.name.toList := by
  have hends : ∀ c? : Option Char,
      (∀ c ∈ c?.map fun c => if c = '.' then '/' else c, isBlank c = false) ↔
        ∀ c ∈ c?, isBlank c = false := by
    rintro (_ | c)
    · simp
    · simp [isBlank_replaceChar]
  rw [internalName, String.toList_ofList, replaceChar]
  refine ⟨fun h => ⟨?_, ?_⟩, fun h => ⟨?_, ?_⟩⟩
  · exact (hends _).mp (by simpa using h.head)
  · exact (hends _).mp (by simpa using h.last)
  · exact List.head?_map ▸ (hends _).mpr h.head
  · exact List.getLast?_map ▸ (hends _).mpr h.last

/-- **The path of a class is a spelling of its name**, unless it would start at the root. -/
theorem normalizedName_internalName (htight : Tight t.name.toList)
    (hdescriptor : (['L'].isPrefixOf? t.name.toList).bind (fun rest => [';'].isSuffixOf? rest) = none)
    (hslash : '/' ∉ t.name.toList) (hdot : t.name.toList.head? ≠ some '.') :
    normalizedName t.internalName.toList = t.name.toList := by
  have hback := replaceChar_internalName hslash
  have htrim : trim t.internalName.toList = t.internalName.toList :=
    (tight_internalName_iff.mpr htight).trim_eq
  have hclass : ".class".toList.isSuffixOf? t.internalName.toList = none :=
    isSuffixOf?_eq_none fun hsuffix => t.dotless_internalName (hsuffix.subset (by simp))
  -- an `L` and a semicolon at the ends of the path are those of the name
  have hkeeps : (['L'].isPrefixOf? t.internalName.toList).bind
      (fun rest => [';'].isSuffixOf? rest) = none := by
    rw [Option.bind_eq_none_iff]
    intro rest hstart
    refine isSuffixOf?_eq_none ?_
    rintro ⟨middle, rfl⟩
    rw [List.isPrefixOf?_eq_some_iff_append_eq] at hstart
    have hends : t.name.toList = ['L'] ++ (replaceChar '/' '.' middle ++ [';']) := by
      rw [← hback, ← hstart, replaceChar_append, replaceChar_append]
      rfl
    rw [hends, isPrefixOf?_append, Option.bind_some, isSuffixOf?_append] at hdescriptor
    cases hdescriptor
  have hroot : ['/'].isPrefixOf? t.internalName.toList = none := by
    refine isPrefixOf?_eq_none ?_
    rintro ⟨rest, hrest⟩
    refine hdot ?_
    rw [← hback, ← hrest]
    rfl
  simp only [normalizedName, htrim, hclass, Option.getD_none, hkeeps, hroot, hback]

theorem IsNormal.normalizedName_internalName (h : t.IsNormal)
    (hdot : t.name.toList.head? ≠ some '.') :
    normalizedName t.internalName.toList = t.name.toList :=
  ClassType.normalizedName_internalName h.spelled.tight h.spelled.not_descriptor
    h.spelled.slashless hdot

end ClassType

namespace Naming

variable {ids : Naming} {m : Option ModuleName} {t : ClassType} {entry : String}

/-- **The types that what a module stores is read as**: they name the module if modules are kept,
and none otherwise. -/
def Places (ids : Naming) (m : Option ModuleName) (t : ClassType) : Prop :=
  t.moduleName = if ids.moduleAware then m else none

theorem name_of_ofEntryName? (h : ids.ofEntryName? entry m = some t) :
    t.name.toList = normalizedName entry.toList := by
  rw [ofEntryName?] at h
  split at h
  · cases h
  · obtain rfl := Option.some.inj h
    rw [← String.toList_ofList (l := normalizedName entry.toList)]
    split_ifs <;> rfl

theorem ofEntryName?_eq_some (h : ids.ofEntryName? entry m = some t) :
    ids.Places m t ∧ isDescriptorName t.name = false := by
  rw [ofEntryName?] at h
  split at h
  · cases h
  · rename_i hname
    rw [Bool.or_eq_true, not_or] at hname
    obtain rfl := Option.some.inj h
    refine ⟨?_, ?_⟩
    · rw [Places]
      split_ifs <;> rfl
    · rw [← Bool.not_eq_true]
      split_ifs <;> exact hname.2

/-- Every entry whose name is a spelling of a class is read as the class. -/
theorem ofEntryName?_of_eq (h : normalizedName entry.toList = t.name.toList) (hne : t.name ≠ "")
    (hclass : isDescriptorName t.name = false) (hplaces : ids.Places m t) :
    ids.ofEntryName? entry m = some t := by
  have htype : ids.classType entry = ⟨t.name, none⟩ := by
    rw [classType, h, String.ofList_toList]
  have hempty : t.name.isEmpty = false := by
    rw [← Bool.not_eq_true]
    simpa using hne
  rw [ofEntryName?, htype]
  simp only [hempty, hclass, Bool.or_self, Bool.false_eq_true, if_false]
  rw [Places] at hplaces
  split_ifs at hplaces ⊢ <;> rw [← hplaces]

/-- **The path of a class is read as the class** where it is the name of an entry. -/
theorem ofEntryName?_internalName (ht : t.IsNormal) (hne : t.name ≠ "")
    (hdot : t.name.toList.head? ≠ some '.') (hclass : isDescriptorName t.name = false)
    (hplaces : ids.Places m t) : ids.ofEntryName? t.internalName m = some t :=
  ofEntryName?_of_eq (ht.normalizedName_internalName hdot) hne hclass hplaces

end Naming

/-! ### Paths of pieces -/

/-- **A piece of a name**: it is not empty and has neither dots nor slashes. -/
structure IsPiece (piece : List Char) : Prop where
  nonempty : piece ≠ []
  dotless : '.' ∉ piece
  slashless : '/' ∉ piece

namespace Path

variable {p : Path} {init pieces : List (List Char)} {last extension : List Char}

theorem ne_of_dot_mem {piece t : List Char} (h : '.' ∉ piece) (ht : '.' ∈ t) : piece ≠ t := by
  rintro rfl
  exact h ht

theorem isVoid_of_ne {piece : List Char} (hne : piece ≠ []) (hdot : piece ≠ ['.']) :
    isVoid piece = false := by
  simp [isVoid, hne, hdot]

theorem isVoid_of_isPiece {piece : List Char} (h : IsPiece piece) : isVoid piece = false :=
  isVoid_of_ne h.nonempty (ne_of_dot_mem h.dotless (by simp))

theorem component?_of_isPiece {piece : List Char} (h : IsPiece piece) :
    component? piece = some (.entry piece) := by
  have hdots := ne_of_dot_mem h.dotless (t := ['.', '.']) (by simp)
  rw [component?, isVoid_of_isPiece h, if_neg hdots]
  rfl

theorem segments_ofSegments (hne : pieces ≠ []) (h : ∀ piece ∈ pieces, '/' ∉ piece) :
    (ofSegments pieces).segments = pieces := by
  rw [segments, ofSegments, String.toList_ofList, List.splitOn_intercalate '/' h hne]

/-- Each piece of a path names an entry. -/
theorem components_ofSegments (hne : pieces ≠ []) (h : ∀ piece ∈ pieces, IsPiece piece) :
    (ofSegments pieces).components = pieces.map .entry := by
  obtain ⟨first, rest, rfl⟩ := List.exists_cons_of_ne_nil hne
  obtain ⟨hfirst, hrest⟩ := List.forall_mem_cons.mp h
  have hdot := ne_of_dot_mem hfirst.dotless (t := ['.']) (by simp)
  have hempty : first.isEmpty = false := by simpa using hfirst.nonempty
  have hentries : rest.filterMap component? = rest.map .entry := by
    rw [← List.filterMap_eq_map]
    exact List.filterMap_congr fun piece hpiece => component?_of_isPiece (hrest piece hpiece)
  rw [components, segments_ofSegments hne fun piece hpiece => (h piece hpiece).slashless]
  simp only [hempty, Bool.false_eq_true, if_false, hdot, component?_of_isPiece hfirst, hentries]
  rfl

theorem dropVoid_concat (hlast : isVoid last = false) :
    dropVoid (init ++ [last]) = init ++ [last] := by
  rw [dropVoid, List.reverse_append, List.reverse_singleton, List.singleton_append,
    List.dropWhile_cons_of_neg (by simp [hlast]), List.reverse_cons, List.reverse_reverse]

theorem dropVoid_of_forall (h : ∀ piece ∈ pieces, isVoid piece = false) :
    dropVoid pieces = pieces := by
  rcases List.eq_nil_or_concat pieces with rfl | ⟨init, last, rfl⟩
  · rfl
  · rw [List.concat_eq_append] at h ⊢
    exact dropVoid_concat (h last (by simp))

/-- The last piece is the file name. -/
theorem splitLast?_of_segments (hp : p.segments = init ++ [last])
    (hinit : ∀ piece ∈ init, isVoid piece = false) (hlast : last ≠ []) (hdot : last ≠ ['.']) :
    p.splitLast? = some (init, last) := by
  rw [splitLast?, hp]
  rcases init with _ | ⟨first, rest⟩
  · simp [dropVoid, hlast]
  · have hrest : ∀ piece ∈ rest, isVoid piece = false := fun piece hpiece =>
      hinit piece (List.mem_cons_of_mem first hpiece)
    simp only [List.cons_append, dropVoid_concat (isVoid_of_ne hlast hdot), List.getLast?_append,
      List.getLast?_singleton, Option.some_or, List.dropLast_concat, dropVoid_of_forall hrest]

/-- **A file whose name has an extension.** -/
theorem fileName?_of_segments (hp : p.segments = init ++ [last ++ '.' :: extension])
    (hinit : ∀ piece ∈ init, IsPiece piece) (hlast : IsPiece last) :
    p.fileName? = some (last ++ '.' :: extension) := by
  obtain ⟨c, tail, rfl⟩ := List.exists_cons_of_ne_nil hlast.nonempty
  have hc : c ≠ '.' := by
    rintro rfl
    exact hlast.dotless (by simp)
  have hsplit := splitLast?_of_segments hp (fun piece hpiece => isVoid_of_isPiece (hinit piece hpiece))
    (by simp) (by simp [hc])
  rw [fileName?, hsplit]
  simp [hc]

theorem splitExtension_append (hlast : last ≠ []) (hextension : '.' ∉ extension) :
    splitExtension (last ++ '.' :: extension) = (last, some extension) := by
  rw [splitExtension, cutAtLast?_append last hextension]
  simp [hlast]

/-- A name that has an extension ends with it. -/
theorem eq_append_of_splitExtension {name stem : List Char}
    (h : splitExtension name = (stem, some extension)) : name = stem ++ '.' :: extension := by
  rw [splitExtension] at h
  rcases hcut : cutAtLast? '.' name with _ | ⟨before, after⟩
  · rw [hcut] at h
    cases h
  · simp only [hcut] at h
    split_ifs at h
    · cases h
    · obtain ⟨rfl, heq⟩ := Prod.mk.inj h
      obtain rfl := Option.some.inj heq
      exact eq_append_of_cutAtLast?_eq_some hcut

theorem extension?_of_segments (hp : p.segments = init ++ [last ++ '.' :: extension])
    (hinit : ∀ piece ∈ init, IsPiece piece) (hlast : IsPiece last) (hextension : '.' ∉ extension) :
    p.extension? = some extension := by
  rw [extension?, fileName?_of_segments hp hinit hlast, Option.bind_some,
    splitExtension_append hlast.nonempty hextension]

theorem withoutExtension_of_segments (hp : p.segments = init ++ [last ++ '.' :: extension])
    (hinit : ∀ piece ∈ init, IsPiece piece) (hlast : IsPiece last) (hextension : '.' ∉ extension) :
    p.withoutExtension = ofSegments (init ++ [last]) := by
  rw [withoutExtension, fileName?_of_segments hp hinit hlast]
  simp only [hp, splitExtension_append hlast.nonempty hextension, List.reverse_append,
    List.reverse_singleton, List.singleton_append]
  rw [List.dropWhile_cons_of_neg (by simp), List.drop_one, List.tail_cons, List.reverse_reverse]

end Path

namespace ClassType

variable {t : ClassType} {extension : String}

/-- **The pieces of a path are those of the name**, the last one with the extension. -/
theorem exists_pieces (hslash : '/' ∉ t.name.toList) (hextension : '/' ∉ extension.toList) :
    ∃ init last, t.name.toList.splitOn '.' = init ++ [last] ∧
      (∀ piece ∈ init ++ [last], '.' ∉ piece ∧ '/' ∉ piece) ∧
      (⟨t.relativePath extension⟩ : Path).segments = init ++ [last ++ '.' :: extension.toList] := by
  rcases List.eq_nil_or_concat (t.name.toList.splitOn '.') with hnil | ⟨init, last, hpieces⟩
  · exact absurd hnil (List.splitOn_ne_nil '.' _)
  · rw [List.concat_eq_append] at hpieces
    have hname : ['.'].intercalate (init ++ [last]) = t.name.toList := by
      rw [← hpieces, List.intercalate_splitOn]
    have hdotless : ∀ piece ∈ init ++ [last], '.' ∉ piece := by
      intro piece hpiece
      rw [← hpieces] at hpiece
      exact not_mem_of_mem_splitOn hpiece
    have hslashless : ∀ piece ∈ init ++ [last], '/' ∉ piece := by
      intro piece hpiece hmem
      exact hslash (hname ▸ mem_intercalate_of_mem hpiece hmem)
    refine ⟨init, last, hpieces, fun piece h => ⟨hdotless piece h, hslashless piece h⟩, ?_⟩
    have htext : (t.relativePath extension).toList =
        ['/'].intercalate (init ++ [last ++ '.' :: extension.toList]) := by
      rw [← intercalate_concat, ← replaceChar_intercalate hdotless, hname]
      simp [relativePath, internalName]
    rw [Path.segments, htext, List.splitOn_intercalate '/' _ (by simp)]
    rw [List.forall_mem_append, List.forall_mem_singleton]
    refine ⟨fun piece h => hslashless piece (List.mem_append_left _ h), ?_⟩
    have hlast := hslashless last (by simp)
    simp [hlast, hextension]

/-- A name without empty pieces has pieces. -/
theorem exists_segments (hslash : '/' ∉ t.name.toList) (hs : t.IsSegmented)
    (hextension : '/' ∉ extension.toList) :
    ∃ init last, t.name.toList = ['.'].intercalate (init ++ [last]) ∧
      (∀ piece ∈ init ++ [last], IsPiece piece) ∧
      (⟨t.relativePath extension⟩ : Path).segments = init ++ [last ++ '.' :: extension.toList] := by
  obtain ⟨init, last, hname, hpieces, hsegments⟩ := exists_pieces hslash hextension
  refine ⟨init, last, ?_, fun piece hpiece => ?_, hsegments⟩
  · rw [← hname, List.intercalate_splitOn]
  · obtain ⟨hdot, hslash⟩ := hpieces piece hpiece
    refine ⟨?_, hdot, hslash⟩
    rintro rfl
    rw [IsSegmented, hname] at hs
    exact hs hpiece

/-- **What is not void in a path with an extension is not empty in the name.** -/
theorem isSegmented_of_extension? (hslash : '/' ∉ t.name.toList) (hdot : '.' ∉ extension.toList)
    (hextension : '/' ∉ extension.toList)
    (hvoid : ∀ piece ∈ (⟨t.relativePath extension⟩ : Path).segments, Path.isVoid piece = false)
    (h : (⟨t.relativePath extension⟩ : Path).extension? = some extension.toList) :
    t.IsSegmented := by
  obtain ⟨init, last, hname, hpieces, hsegments⟩ := exists_pieces hslash hextension
  rw [hsegments] at hvoid
  obtain ⟨hinit, hlast⟩ := List.forall_mem_append.mp hvoid
  have hlast : Path.isVoid (last ++ '.' :: extension.toList) = false := hlast _ (by simp)
  rw [IsSegmented, hname]
  intro hempty
  rcases List.mem_append.mp hempty with hempty | hempty
  · exact absurd (hinit [] hempty) (by decide)
  · -- a file whose name is only an extension has none
    obtain rfl : [] = last := List.mem_singleton.mp hempty
    have hsplit := Path.splitLast?_of_segments hsegments hinit (by simp) fun heq => by
      rw [heq] at hlast
      exact absurd hlast (by decide)
    have hcut : Path.splitExtension ('.' :: extension.toList) = ('.' :: extension.toList, none) := by
      rw [Path.splitExtension, ← List.nil_append ('.' :: extension.toList),
        cutAtLast?_append [] hdot]
      rfl
    rw [Path.extension?, Path.fileName?, hsplit] at h
    simp only [List.nil_append] at h
    split_ifs at h
    · cases h
    · rw [Option.bind_some, hcut] at h
      cases h

end ClassType

/-- **The file at the path of a class is read by the name of the class**, if its extension is asked
for. -/
theorem Naming.ofPath?_relativePath_eq {ids : Naming} {m : Option ModuleName} {t : ClassType}
    {extension asked : String} (ht : '/' ∉ t.name.toList) (hs : t.IsSegmented)
    (hdot : '.' ∉ extension.toList) (hslash : '/' ∉ extension.toList) :
    ids.ofPath? ⟨t.relativePath extension⟩ asked m =
      if extension = asked then ids.ofEntryName? t.name m else none := by
  obtain ⟨init, last, hname, hpieces, hsegments⟩ := ClassType.exists_segments ht hs hslash
  obtain ⟨hinit, hlast⟩ := List.forall_mem_append.mp hpieces
  have hlast := hlast last (by simp)
  have hentries : ∀ name? : Path.Component → Option (List Char),
      (∀ piece, name? (.entry piece) = some piece) →
      ((init ++ [last]).map Path.Component.entry).filterMap name? = init ++ [last] := by
    intro name? hname?
    rw [List.filterMap_map]
    exact (List.filterMap_congr fun piece _ => hname? piece).trans List.filterMap_some
  rw [ofPath?, Path.extension?_of_segments hsegments hinit hlast hdot,
    Path.withoutExtension_of_segments hsegments hinit hlast hdot,
    Path.components_ofSegments (by simp) hpieces, hentries _ fun _ => rfl]
  have hspelled : String.ofList (['.'].intercalate (init ++ [last])) = t.name := by
    rw [← hname, String.ofList_toList]
  exact if_congr (by simp [String.toList_inj]) (congrArg (ids.ofEntryName? · m) hspelled) rfl

/-- **The file at the path of a class is read as the class.** -/
theorem Naming.ofPath?_relativePath {ids : Naming} {m : Option ModuleName} {t : ClassType}
    {extension : String} (ht : t.IsNormal) (hs : t.IsSegmented)
    (hclass : isDescriptorName t.name = false) (hplaces : ids.Places m t)
    (hdot : '.' ∉ extension.toList) (hslash : '/' ∉ extension.toList) :
    ids.ofPath? ⟨t.relativePath extension⟩ extension m = some t := by
  rw [ofPath?_relativePath_eq ht.spelled.slashless hs hdot hslash, if_pos rfl]
  exact ofEntryName?_of_eq ht hs.ne_empty.1 hclass hplaces

end Classpath

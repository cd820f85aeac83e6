import Classpath.Proofs.Path

/-!
# Names of classes in stores

A store keeps a class at a path that is made from its name, and knows the class again by that path.
Files in directories and entries of archives are both read by the reader of spelled names, which
takes off what people write around a name: blanks, a `.class` at the end, the ends of a descriptor.
A path has none of these, so whatever is taken off is part of the name.

Of the names without semicolons, brackets and slashes that a class can have, an entry gives back
those without blanks at their ends. A file is read by the name with its dots, where a last piece
`class` is taken for an ending; it gives back those that do not end in it either.

The same question can be asked the other way round: what is read as a class need not be stored where
the class belongs, since there are many ways to write a name. It is exactly if nothing is taken off
and nothing is replaced, that is if the name is plain.

* `Classpath.Path.slash_not_mem_extension` – what no extension has.
* `Classpath.Naming.read_back_iff` – the names that a file and an entry give back.
* `Classpath.Naming.eq_internalName_iff`, `Classpath.Naming.eq_relativePath_iff` – the entries and
  files that are where the class belongs that they are read as.
-/

namespace Classpath

namespace Path

variable {p : Path} {extension : List Char}

/-- The last piece of a path is one of its pieces. -/
theorem slash_not_mem_last {before : List (List Char)} {last : List Char}
    (h : p.splitLast? = some (before, last)) : '/' ∉ last := by
  have hpiece : ∀ piece ∈ p.segments, '/' ∉ piece := fun piece hpiece =>
    not_mem_of_mem_splitOn hpiece
  rw [splitLast?] at h
  rcases hsegments : p.segments with _ | ⟨first, rest⟩
  · rw [hsegments] at h
    cases h
  · rw [hsegments] at h hpiece
    obtain ⟨hfirst, hrest⟩ := List.forall_mem_cons.mp hpiece
    have hkept : ∀ piece ∈ dropVoid rest, piece ∈ rest := by
      intro piece hmem
      rw [dropVoid, List.mem_reverse] at hmem
      exact List.mem_reverse.mp ((List.dropWhile_suffix isVoid).subset hmem)
    rcases hlast : (dropVoid rest).getLast? with _ | piece
    · simp only [hlast] at h
      split_ifs at h
      obtain ⟨-, rfl⟩ := Prod.mk.inj (Option.some.inj h)
      exact hfirst
    · simp only [hlast] at h
      obtain ⟨-, rfl⟩ := Prod.mk.inj (Option.some.inj h)
      exact hrest _ (hkept _ (List.mem_of_getLast? hlast))

/-- **No extension has a slash.** -/
theorem slash_not_mem_extension (h : p.extension? = some extension) : '/' ∉ extension := by
  obtain ⟨name, hname, hextension⟩ := Option.bind_eq_some_iff.mp h
  have hslash : '/' ∉ name := by
    rw [fileName?] at hname
    rcases hsplit : p.splitLast? with _ | ⟨before, last⟩
    · rw [hsplit] at hname
      cases hname
    · simp only [hsplit] at hname
      split_ifs at hname
      obtain rfl := Option.some.inj hname
      exact slash_not_mem_last hsplit
  have hend := eq_append_of_splitExtension (Prod.ext rfl hextension)
  exact fun hmem => hslash (hend ▸ by simp [hmem])

end Path

namespace Naming

variable {ids : Naming} {m : Option ModuleName} {t : ClassType} {extension : String}

/-- **A name that an entry gives back** has no blanks at its ends. -/
theorem ofEntryName?_internalName_iff (hsemicolon : ';' ∉ t.name.toList)
    (hslash : '/' ∉ t.name.toList) (hs : t.IsSegmented) (hclass : isDescriptorName t.name = false)
    (hplaces : ids.Places m t) :
    ids.ofEntryName? t.internalName m = some t ↔ Tight t.name.toList := by
  constructor
  · intro h
    have hlength : t.internalName.toList.length ≤
        (normalizedName t.internalName.toList).length := by
      rw [← name_of_ofEntryName? h, ClassType.internalName, String.toList_ofList, replaceChar,
        List.length_map]
    exact ClassType.tight_internalName_iff.mp (ClassType.kept_of_length_le hlength).1
  · intro htight
    refine ofEntryName?_of_eq ?_ hs.ne_empty.1 hclass hplaces
    exact ClassType.normalizedName_internalName htight
      (ClassType.not_descriptor_of_not_mem hsemicolon) hslash hs.ne_empty.2

/-- **A name that is read as itself** has neither blanks at its ends nor the ending `.class`. -/
theorem ofEntryName?_name_iff (hsemicolon : ';' ∉ t.name.toList) (hslash : '/' ∉ t.name.toList)
    (hs : t.IsSegmented) (hclass : isDescriptorName t.name = false) (hplaces : ids.Places m t) :
    ids.ofEntryName? t.name m = some t ↔
      Tight t.name.toList ∧ ¬ ".class".toList <:+ t.name.toList := by
  constructor
  · intro h
    obtain ⟨htight, hnone, -, -⟩ := ClassType.spelled_of_eq (name_of_ofEntryName? h).symm
    refine ⟨htight, ?_⟩
    rintro ⟨rest, hrest⟩
    rw [← hrest, isSuffixOf?_append] at hnone
    cases hnone
  · rintro ⟨htight, hending⟩
    have hspelled : ClassType.Spelled t.name.toList :=
      ⟨htight, isSuffixOf?_eq_none hending, ClassType.not_descriptor_of_not_mem hsemicolon, hslash⟩
    exact ofEntryName?_of_eq hspelled.normalizedName_eq hs.ne_empty.1 hclass hplaces

/-- **The names that stores give back.** The file at the path of a class is read as the class
exactly if its extension is one, and the name has neither blanks at its ends nor the ending `.class`;
the entry of its path is read as the class exactly if the name has no blanks at its ends. -/
theorem read_back_iff (hsemicolon : ';' ∉ t.name.toList) (hslash : '/' ∉ t.name.toList)
    (hs : t.IsSegmented) (hclass : isDescriptorName t.name = false) (hplaces : ids.Places m t)
    (hdot : '.' ∉ extension.toList) :
    (ids.ofPath? ⟨t.relativePath extension⟩ extension m = some t ↔
      '/' ∉ extension.toList ∧ Tight t.name.toList ∧ ¬ ".class".toList <:+ t.name.toList) ∧
    (ids.ofEntryName? t.internalName m = some t ↔ Tight t.name.toList) := by
  refine ⟨?_, ofEntryName?_internalName_iff hsemicolon hslash hs hclass hplaces⟩
  have hname := ofEntryName?_name_iff hsemicolon hslash hs hclass hplaces
  by_cases hfile : '/' ∈ extension.toList
  · refine iff_of_false (fun h => ?_) fun h => h.1 hfile
    rw [ofPath?] at h
    split_ifs at h with hextension
    exact Path.slash_not_mem_extension hextension hfile
  · rw [ofPath?_relativePath_eq hslash hs hdot hfile, if_pos rfl, hname]
    exact (and_iff_right hfile).symm

/-- A name of two pieces is given back by both. -/
theorem read_back_bed :
    (';' ∉ "garden.Bed".toList ∧ '/' ∉ "garden.Bed".toList ∧
      (⟨"garden.Bed", some ⟨"m"⟩⟩ : ClassType).IsSegmented ∧
      isDescriptorName "garden.Bed" = false ∧
      qualified.Places (some ⟨"m"⟩) ⟨"garden.Bed", some ⟨"m"⟩⟩ ∧ '.' ∉ "class".toList) ∧
    qualified.ofPath? ⟨"garden/Bed.class"⟩ "class" (some ⟨"m"⟩) =
      some ⟨"garden.Bed", some ⟨"m"⟩⟩ ∧
    qualified.ofEntryName? "garden/Bed" (some ⟨"m"⟩) = some ⟨"garden.Bed", some ⟨"m"⟩⟩ := by
  have hs : (⟨"garden.Bed", some ⟨"m"⟩⟩ : ClassType).IsSegmented := by decide
  have htight : Tight "garden.Bed".toList := tight_of_all (by decide)
  have hreads := @read_back_iff qualified (some ⟨"m"⟩) ⟨"garden.Bed", some ⟨"m"⟩⟩ "class"
    (by decide) (by decide) hs (by decide) rfl (by decide)
  refine ⟨⟨by decide, by decide, hs, by decide, rfl, by decide⟩, ?_, ?_⟩
  · exact hreads.1.mpr ⟨by decide, htight, by decide⟩
  · exact hreads.2.mpr htight

/-- **A class that is called `class`** is not given back by its file, which is read as what is
before it, though its entry gives it back. -/
theorem read_back_class : ¬ ∀ (ids : Naming) (m : Option ModuleName) (t : ClassType)
    (extension : String), ';' ∉ t.name.toList → '[' ∉ t.name.toList → '/' ∉ t.name.toList →
    t.IsSegmented → isDescriptorName t.name = false → ids.Places m t → extension ≠ "" →
    '.' ∉ extension.toList → ids.ofPath? ⟨t.relativePath extension⟩ extension m = some t ∧
      ids.ofEntryName? t.internalName m = some t := by
  intro h
  obtain ⟨hfile, -⟩ := h .plain none ⟨"a.class", none⟩ "class" (by decide) (by decide) (by decide)
    (by decide) (by decide) rfl (by decide) (by decide)
  have hread : Naming.plain.ofPath? ⟨"a/class.class"⟩ "class" none = some ⟨"a", none⟩ := by decide
  exact absurd (hread.symm.trans hfile) (by decide)

end Naming

/-! ### Plain names -/

/-- **A path without its extension that is read as it is**: it has no dots, no blanks at its ends,
and is not between the ends of a descriptor. -/
structure IsPlainStem (s : List Char) : Prop where
  dotless : '.' ∉ s
  tight : Tight s
  not_descriptor : ∀ middle, s ≠ 'L' :: (middle ++ [';'])

/-- **A path of a file that is read as it is**, without its extension. -/
structure IsFileStem (s : List Char) : Prop extends IsPlainStem s where
  not_ending : ¬ "/class".toList <:+ s

/-- **A name of an entry that is read as it is**, without its extension. -/
structure IsEntryStem (s : List Char) : Prop extends IsPlainStem s where
  relative : s.head? ≠ some '/'

namespace ClassType

variable {s : List Char} {stem extension : String} {t : ClassType}

/-- The class that a path is of, as far as nothing is taken off it. -/
def ofStem (stem : String) : ClassType :=
  ⟨String.ofList (replaceChar '/' '.' stem.toList), none⟩

theorem slashless_ofStem : '/' ∉ (ofStem stem).name.toList := by
  rw [ofStem, String.toList_ofList]
  exact not_mem_replaceChar (by decide)

theorem replaceChar_dotted (h : '.' ∉ s) : replaceChar '.' '/' (replaceChar '/' '.' s) = s := by
  have hkeep : ∀ c ∈ s,
      (if (if c = '/' then '.' else c) = '.' then '/' else if c = '/' then '.' else c) = c := by
    intro c hc
    have hne : c ≠ '.' := ne_of_mem_of_not_mem hc h
    split_ifs <;> simp_all
  rw [replaceChar, replaceChar, List.map_map]
  exact (List.map_congr_left hkeep).trans (List.map_id' _)

theorem internalName_ofStem (h : '.' ∉ stem.toList) : (ofStem stem).internalName = stem := by
  rw [internalName, ofStem, String.toList_ofList, replaceChar_dotted h, String.ofList_toList]

theorem relativePath_ofStem (h : '.' ∉ stem.toList) :
    (ofStem stem).relativePath extension = stem ++ "." ++ extension := by
  rw [relativePath, internalName_ofStem h]

/-- A text between the ends of a descriptor. -/
theorem descriptor_eq_none_iff :
    (['L'].isPrefixOf? s).bind (fun rest => [';'].isSuffixOf? rest) = none ↔
      ∀ middle, s ≠ 'L' :: (middle ++ [';']) := by
  rw [Option.bind_eq_none_iff]
  constructor
  · rintro h middle rfl
    have hnone := h (middle ++ [';']) (isPrefixOf?_append ['L'] _)
    rw [isSuffixOf?_append] at hnone
    cases hnone
  · intro h rest hstart
    rw [List.isPrefixOf?_eq_some_iff_append_eq] at hstart
    refine isSuffixOf?_eq_none ?_
    rintro ⟨middle, rfl⟩
    exact h middle hstart.symm

/-- **The dotted name of a path is its own normal spelling** exactly if the path is read as it is. -/
theorem spelled_ofStem_iff (h : '.' ∉ stem.toList) :
    Spelled (ofStem stem).name.toList ↔ IsFileStem stem.toList := by
  obtain ⟨name, hname⟩ : ∃ name, (ofStem stem).name.toList = name := ⟨_, rfl⟩
  have hdotted : name = replaceChar '/' '.' stem.toList := by
    rw [← hname, ofStem, String.toList_ofList]
  have hback : stem.toList = replaceChar '.' '/' name := by
    rw [hdotted, replaceChar_dotted h]
  have htight : Tight stem.toList ↔ Tight name := by
    rw [← hname, ← tight_internalName_iff, internalName_ofStem h]
  rw [hname]
  constructor
  · rintro ⟨hends, hclass, hdescriptor, -⟩
    refine ⟨⟨h, htight.mpr hends, fun middle hmiddle => ?_⟩, ?_⟩
    · refine descriptor_eq_none_iff.mp hdescriptor (replaceChar '/' '.' middle) ?_
      simp [hdotted, hmiddle, replaceChar]
    · rintro ⟨rest, hrest⟩
      have hending : replaceChar '/' '.' "/class".toList = ".class".toList := rfl
      rw [hdotted, ← hrest, replaceChar_append, hending, isSuffixOf?_append] at hclass
      cases hclass
  · rintro ⟨⟨-, hends, hdescriptor⟩, hclass⟩
    refine ⟨htight.mp hends, isSuffixOf?_eq_none ?_,
      descriptor_eq_none_iff.mpr fun middle hmiddle => ?_, ?_⟩
    · rintro ⟨rest, hrest⟩
      refine hclass ?_
      rw [hback, ← hrest, replaceChar_append]
      exact List.suffix_append _ _
    · refine hdescriptor (replaceChar '.' '/' middle) ?_
      simp [hback, hmiddle, replaceChar]
    · rw [← hname]
      exact slashless_ofStem

end ClassType

namespace Naming

variable {ids : Naming} {m : Option ModuleName} {t : ClassType} {stem extension : String}

/-- **An entry that is read as a class has the name of the class** exactly if it is read as it
is. -/
theorem eq_internalName_iff (h : ids.ofEntryName? stem m = some t) :
    stem = t.internalName ↔ IsEntryStem stem.toList := by
  have hname := name_of_ofEntryName? h
  constructor
  · intro hstem
    have hlength : stem.toList.length ≤ (normalizedName stem.toList).length := by
      rw [← hname, hstem, ClassType.internalName, String.toList_ofList, replaceChar,
        List.length_map]
    obtain ⟨htight, -, hdescriptor, hroot⟩ := ClassType.kept_of_length_le hlength
    refine ⟨⟨hstem ▸ t.dotless_internalName, htight,
      ClassType.descriptor_eq_none_iff.mp hdescriptor⟩, fun hhead => ?_⟩
    obtain ⟨rest, hrest⟩ := List.head?_eq_some_iff.mp hhead
    rw [hrest] at hroot
    cases hroot
  · rintro ⟨⟨hdot, htight, hdescriptor⟩, hroot⟩
    have hclass : ".class".toList.isSuffixOf? stem.toList = none :=
      isSuffixOf?_eq_none fun hsuffix => hdot (hsuffix.subset (by simp))
    have hnone : ['/'].isPrefixOf? stem.toList = none := by
      refine isPrefixOf?_eq_none ?_
      rintro ⟨rest, hrest⟩
      exact hroot (by rw [← hrest]; rfl)
    have hdotted : t.name.toList = (ClassType.ofStem stem).name.toList := by
      rw [hname, ClassType.ofStem, String.toList_ofList]
      simp only [normalizedName, htight.trim_eq, hclass, Option.getD_none,
        ClassType.descriptor_eq_none_iff.mpr hdescriptor, hnone]
    rw [← ClassType.internalName_ofStem hdot, ClassType.internalName, ClassType.internalName,
      hdotted]

/-- **A file that is read as a class has the path of the class** exactly if it is read as it is. A
class that has the path of a file has a name without empty pieces. -/
theorem eq_relativePath_iff {p : Path} (hdot : '.' ∉ extension.toList)
    (hslash : '/' ∉ extension.toList) (hvoid : ∀ piece ∈ p.segments, Path.isVoid piece = false)
    (h : ids.ofPath? p extension m = some t) :
    (p.text = t.relativePath extension ↔
      ∃ stem, p.text = stem ++ "." ++ extension ∧ IsFileStem stem.toList) ∧
    (p.text = t.relativePath extension → t.IsSegmented) := by
  have hextension : p.extension? = some extension.toList := by
    rw [ofPath?] at h
    split_ifs at h with hextension
    exact hextension
  -- a path without dots but the one of its extension is read by its dotted name
  have hread : ∀ u : ClassType, '/' ∉ u.name.toList → p = ⟨u.relativePath extension⟩ →
      u.IsSegmented ∧ t.name.toList = normalizedName u.name.toList := by
    rintro u hu rfl
    have hs := ClassType.isSegmented_of_extension? hu hdot hslash hvoid hextension
    rw [ofPath?_relativePath_eq hu hs hdot hslash, if_pos rfl] at h
    exact ⟨hs, name_of_ofEntryName? h⟩
  have hplain : '/' ∉ t.name.toList := by
    rw [ofPath?] at h
    split_ifs at h
    rw [name_of_ofEntryName? h, normalizedName]
    exact not_mem_replaceChar (by decide)
  refine ⟨⟨fun hown => ⟨t.internalName, hown, ?_⟩, ?_⟩, fun hown => ?_⟩
  · obtain ⟨-, hname⟩ := hread t hplain (congrArg Path.mk hown)
    refine (ClassType.spelled_ofStem_iff t.dotless_internalName).mp ?_
    rw [ClassType.ofStem, String.toList_ofList, ClassType.replaceChar_internalName hplain]
    exact ClassType.spelled_of_eq hname.symm
  · rintro ⟨stem, hp, hstem⟩
    have hpath : p = ⟨(ClassType.ofStem stem).relativePath extension⟩ := by
      rw [ClassType.relativePath_ofStem hstem.dotless, ← hp]
    obtain ⟨-, hname⟩ := hread _ ClassType.slashless_ofStem hpath
    rw [((ClassType.spelled_ofStem_iff hstem.dotless).mpr hstem).normalizedName_eq,
      String.toList_inj] at hname
    rw [hpath, ClassType.relativePath, ClassType.relativePath, ClassType.internalName,
      ClassType.internalName, hname]
  · exact (hread t hplain (congrArg Path.mk hown)).1

end Naming

end Classpath

import Classpath.Proofs.TextClass.Literals

/-!
# Literals that are cut

What a line does not keep together is seen. A parenthesis in the initial value of a field makes the
field a method; and a literal that is cut at a comma is no literal in any of its pieces, because
each of them has one of its quotes.

* `Classpath.TextClass.two_le_count_of_value` – a string constant is written with two quotes.
* `Classpath.TextClass.opaque_literals` – the contents of literals that are opaque.
* `Classpath.TextClass.literals_seen` – not all are.
-/

namespace Classpath.TextClass

variable {ids : Naming} {s t : List Char}

/-! ### A field and an annotation -/

/-- A class without members. -/
def emptyClass : ClassInfo where
  type := ⟨"A", none⟩
  flags := 0
  superclass := some ⟨"java.lang.Object", none⟩
  interfaces := ClassType.sortedSet []

/-- The line that begins it. -/
def emptyStart : List Char :=
  "class A \x7b".toList

theorem step_emptyStart (annotations : List (AnnotationUse ClassType)) :
    (Stage.head annotations).step ids emptyStart =
      .ok (.inside { emptyClass with annotations } [] (.members [])) := rfl

theorem not_mem_line {p q : List Char} {c : Char} (hp : c ∉ p) (hs : c ∉ s) (hq : c ∉ q)
    (hquote : c ≠ '"') : c ∉ p ++ literal s ++ q := by
  simp [literal, hp, hs, hq, hquote]

/-- A class whose one field has a literal as its initial value. -/
def fieldText (s : List Char) : String :=
  ofLines [emptyStart, "int x = ".toList ++ literal s ++ [';'], ['}']]

/-- A class whose one annotation has a literal as its argument. -/
def annotationText (s : List Char) : String :=
  ofLines ["@B(x = ".toList ++ literal s ++ [')'], emptyStart, ['}']]

theorem stands_field : Stands .initial "int x = ".toList [';'] :=
  @Stands.initial "int x ".toList [' '] [] (by simp [isBlank]) (by decide) (by decide) (by decide)
    (by simp [isBlank]) (by simp)

theorem pieces_fieldText (hs : '\n' ∉ s) : pieces (fieldText s) =
    [emptyStart] ++ ([] ++ ("int x = ".toList ++ literal s ++ [';']) ++ []) :: [['}']] := by
  have hline := not_mem_line (p := "int x = ".toList) (q := [';']) (by decide) hs (by decide)
    (by decide)
  have hlines : ∀ line ∈ [emptyStart, "int x = ".toList ++ literal s ++ [';'], ['}']],
      '\n' ∉ line := by
    rintro line (_ | ⟨_, _ | ⟨_, _ | ⟨_, _ | _⟩⟩⟩)
    · decide
    · exact hline
    · decide
  rw [fieldText, pieces_ofLines (by simp) hlines]
  simp only [List.nil_append, List.append_nil, List.singleton_append]

theorem stands_argument : Stands .argument "@B(x = ".toList [')'] :=
  @Stands.argument ['B'] [] "x ".toList [' '] [] [] (by decide) (by simp) (by simp) (by decide)
    (by decide) (by simp [isBlank]) (by simp)

theorem pieces_annotationText (hs : '\n' ∉ s) : pieces (annotationText s) =
    [] ++ ([] ++ ("@B(x = ".toList ++ literal s ++ [')']) ++ []) :: [emptyStart, ['}']] := by
  have hline := not_mem_line (p := "@B(x = ".toList) (q := [')']) (by decide) hs (by decide)
    (by decide)
  have hlines : ∀ line ∈ ["@B(x = ".toList ++ literal s ++ [')'], emptyStart, ['}']],
      '\n' ∉ line := by
    rintro line (_ | ⟨_, _ | ⟨_, _ | ⟨_, _ | _⟩⟩⟩)
    · exact hline
    · decide
    · decide
  rw [annotationText, pieces_ofLines (by simp) hlines]
  simp only [List.nil_append, List.append_nil]

theorem differ_annotationText (ids : Naming) (hs : '\n' ∉ s) (ht : '\n' ∉ t) :
    DifferInLiteral ids .argument s t (annotationText s) (annotationText t) := by
  refine ⟨stands_argument, by decide, by simp, ?_, pieces_annotationText hs,
    pieces_annotationText ht⟩
  intro st hst
  obtain rfl := Except.ok.inj hst
  trivial

theorem differ_fieldText (ids : Naming) (hs : '\n' ∉ s) (ht : '\n' ∉ t) :
    DifferInLiteral ids .initial s t (fieldText s) (fieldText t) := by
  refine ⟨stands_field, by decide, by simp, ?_, pieces_fieldText hs, pieces_fieldText ht⟩
  intro st hst
  have hcontents : contents [emptyStart] = [emptyStart] := by decide
  rw [hcontents, Stage.reach_cons, Stage.start, step_emptyStart] at hst
  obtain rfl := Except.ok.inj hst
  trivial

/-- A closing brace after members ends the class. -/
theorem reach_end (ids : Naming) (c : ClassInfo) (members : List Member) :
    (Stage.inside c members (.members [])).reach ids [['}']] >>= Stage.finish =
      .ok (withMembers c members) := by
  change Except.ok (withMembers c (members ++ [])) = _
  rw [List.append_nil]

/-- **The class of the field**: its line is a member. -/
theorem read_fieldText (hs : '\n' ∉ s) : (parse ids (fieldText s)).mapError (·.fault) =
    bodyless ids [] ("int x = ".toList ++ literal s) >>= fun m =>
      .ok (withMembers emptyClass [m]) := by
  have hstart : contents [emptyStart] = [emptyStart] := by decide
  have hend : contents [['}']] = [['}']] := by decide
  have hnot : ("int x = ".toList ++ literal s).head? ≠ some '@' := by
    rw [List.head?_append_of_ne_nil _ (by decide)]
    decide
  rw [mapError_parse, pieces_fieldText hs, contents_append, hstart,
    stands_field.contents_eq (by decide) (by simp), hend, List.singleton_append, Stage.reach_cons,
    Stage.start, step_emptyStart]
  change Stage.reach ids _ _ >>= Stage.finish = _
  rw [Stage.reach_cons, Stage.step, members_step hnot]
  rcases bodyless ids [] ("int x = ".toList ++ literal s) with fault | m
  · rfl
  · exact reach_end ids emptyClass [m]

/-- **The class of the annotation.** -/
theorem read_annotationText (hs : '\n' ∉ s) : (parse ids (annotationText s)).mapError (·.fault) =
    annotationLine ids ("@B(x = ".toList ++ literal s ++ [')']) >>= fun u =>
      .ok (withMembers { emptyClass with annotations := [u] } []) := by
  have hrest : contents [emptyStart, ['}']] = [emptyStart, ['}']] := by decide
  have hat : ['@'].isPrefixOf ("@B(x = ".toList ++ literal s ++ [')']) = true := rfl
  rw [mapError_parse, pieces_annotationText hs, List.nil_append,
    stands_argument.contents_eq (by decide) (by simp), hrest, Stage.reach_cons, Stage.start,
    Stage.step, if_pos hat]
  rcases annotationLine ids ("@B(x = ".toList ++ literal s ++ [')']) with fault | u
  · rfl
  · change Stage.reach ids (.head [u]) [emptyStart, ['}']] >>= Stage.finish = _
    rw [Stage.reach_cons, step_emptyStart]
    exact reach_end ids { emptyClass with annotations := [u] } []

/-! ### Literals are cut -/

/-- What has a parenthesis is no field. -/
theorem field?_of_bodyless {annotations : List (AnnotationUse ClassType)} {m : Member}
    (hopen : '(' ∈ s) (h : bodyless ids annotations s = .ok m) : m.field? = none := by
  rw [bodyless, if_pos (by simpa using hopen)] at h
  obtain ⟨m', -, hm⟩ := exists_of_bind_eq_ok h
  obtain rfl := Except.ok.inj hm
  rfl

/-- **A field with an initial value in which a parenthesis opens is no field.** -/
theorem not_opaque_initial (ids : Naming) (hs : '\n' ∉ s) (hopen : '(' ∈ s) :
    ¬ Opaque ids .initial [] s := by
  intro hunseen
  have hagree := Agree.mapError_iff (f := ParseError.fault) (g := ParseError.fault)
    |>.mpr (hunseen _ _ (differ_fieldText ids (by simp) hs))
  have hfield : bodyless ids [] ("int x = ".toList ++ literal []) =
      .ok (.field { name := "x", descriptor := "int", flags := 0 }) := rfl
  rw [read_fieldText (by simp), read_fieldText hs, hfield] at hagree
  rcases hread : bodyless ids [] ("int x = ".toList ++ literal s) with fault | m
  · rw [hread] at hagree
    cases hagree
  · have hm := field?_of_bodyless (by simp [literal, hopen]) hread
    rw [hread] at hagree
    cases hagree with
    | ok h =>
      have hfields : [_] = [m].filterMap Member.field? := congrArg ClassInfo.fields h
      rw [List.filterMap_cons_none hm] at hfields
      cases hfields

theorem eq_literal_of_stringLiteral? {contents : List Char} (h : stringLiteral? s = some contents) :
    s = literal contents := by
  obtain ⟨rest, hrest, hcontents⟩ := Option.bind_eq_some_iff.mp h
  rw [← List.isPrefixOf?_eq_some_iff_append_eq.mp hrest,
    ← List.isSuffixOf?_eq_some_iff_append_eq.mp hcontents]
  rfl

/-- Numerals are no strings. -/
theorem number?_ne_string (s : List Char) (contents : String) :
    number? s ≠ some (.string contents) := by
  rw [number?]
  split
  · simp
  · split <;> simp

/-- **A string constant is written with two quotes.** -/
theorem two_le_count_of_value {contents : String}
    (h : value ids s = .ok (.const (.string contents))) : 2 ≤ s.count '"' := by
  rw [value] at h
  split_ifs at h
  · cases h
  · cases h
  · split at h
    next c hliteral =>
      rw [eq_literal_of_stringLiteral? hliteral]
      simp [literal]
    next =>
      split at h
      · cases h
      · split at h
        next constant hnumber =>
          obtain rfl : constant = .string contents := ElementValue.const.inj (Except.ok.inj h)
          exact absurd hnumber (number?_ne_string s contents)
        next => split at h <;> cases h

/-- An argument with one quote is no string. -/
theorem element_ne_string {e : String × ElementValue ClassType} (hcount : s.count '"' ≤ 1)
    (h : element ids s = .ok e) (contents : String) : e.2 ≠ .const (.string contents) := by
  intro hstring
  rcases hcut : cutAt? '=' s with _ | ⟨name, v⟩
  · rw [element, hcut] at h
    cases h
  · rw [element, hcut] at h
    obtain ⟨v', hv, he⟩ := exists_of_bind_eq_ok h
    obtain rfl := Except.ok.inj he
    have hsub : trim v <:+: s := by
      rw [eq_append_of_cutAt?_eq_some hcut]
      exact (trim_isInfix v).trans ⟨name ++ ['='], [], by simp⟩
    have htwo := two_le_count_of_value (hv.trans (congrArg Except.ok hstring))
    exact absurd (htwo.trans (hsub.sublist.count_le '"')) (by omega)

/-- What is read of a list is read of its members. -/
theorem exists_of_mem_mapM {α β ε : Type} {f : α → Except ε β} {l : List α} {l' : List β} {y : β}
    (h : l.mapM f = .ok l') (hy : y ∈ l') : ∃ x ∈ l, f x = .ok y := by
  induction l generalizing l' with
  | nil =>
    obtain rfl := Except.ok.inj h
    cases hy
  | cons x l ih =>
    rw [List.mapM_cons] at h
    obtain ⟨z, hz, h⟩ := exists_of_bind_eq_ok h
    obtain ⟨l'', hl, h⟩ := exists_of_bind_eq_ok h
    obtain rfl := Except.ok.inj h
    rcases List.mem_cons.mp hy with rfl | hy
    · exact ⟨x, List.mem_cons_self .., hz⟩
    · obtain ⟨x', hx', hread⟩ := ih hl hy
      exact ⟨x', List.mem_cons_of_mem x hx', hread⟩

/-- **Literals with commas are cut**: no element of the annotation is a string. -/
theorem ne_string_of_annotationLine {u : AnnotationUse ClassType} (hquote : '"' ∉ s)
    (hcomma : ',' ∈ s) (h : annotationLine ids ("@B(x = ".toList ++ literal s ++ [')']) = .ok u) :
    ∀ e ∈ u.elements, ∀ contents, e.2 ≠ .const (.string contents) := by
  obtain ⟨left, right, rfl⟩ := List.append_of_mem hcomma
  have hline : "@B(x = ".toList ++ literal (left ++ ',' :: right) ++ [')'] =
      '@' :: (['B'] ++ '(' :: (("x = \"".toList ++ left) ++ ',' :: (right ++ ['"']) ++ [')'])) := by
    simp [literal]
  rw [hline, annotationLine_arguments (by decide), if_neg (by decide)] at h
  obtain ⟨elements, helements, h⟩ := exists_of_bind_eq_ok h
  obtain rfl := Except.ok.inj h
  intro e he contents
  obtain ⟨item, hitem, hread⟩ := exists_of_mem_mapM helements (NameMap.mem_ofList he)
  refine element_ne_string ?_ hread contents
  have hleft : '"' ∉ left := fun h => hquote (List.mem_append_left _ h)
  have hright : '"' ∉ right := fun h => hquote (List.mem_append_right _ (List.mem_cons_of_mem _ h))
  rw [items_append_comma, List.mem_append] at hitem
  rcases hitem with hitem | hitem
  · refine ((isInfix_of_mem_items hitem).sublist.count_le '"').trans ?_
    simp [List.count_eq_zero.mpr hleft]
  · refine ((isInfix_of_mem_items hitem).sublist.count_le '"').trans ?_
    simp [List.count_eq_zero.mpr hright]

section Differing

variable {R : ElementValue ClassType → ElementValue ClassType → Prop}

theorem annotations_of_differs {c c' : ClassInfo} (h : ClassDiffers R c c') :
    c.annotations = c'.annotations ∨
      DifferOnce (UseDiffers R) c.annotations c'.annotations := by
  cases h with
  | annotated c h => exact .inr h
  | field | method => exact .inl rfl

end Differing

theorem exists_of_useDiffers {u u' : AnnotationUse ClassType} (h : UseDiffers (Denotes s t) u u') :
    ∃ e ∈ u'.elements, e.2 = .const (.string (String.ofList t)) := by
  cases h with
  | element type h =>
    obtain ⟨_, -, e, he, -, -, heq⟩ := h.exists_mem
    exact ⟨e, he, heq⟩

/-- **An argument that has a comma is not read as a string.** -/
theorem not_opaque_argument (ids : Naming) (hs : '\n' ∉ s) (hquote : '"' ∉ s) (hcomma : ',' ∈ s) :
    ¬ Opaque ids .argument [] s := by
  intro hunseen
  have hagree := Agree.mapError_iff (f := ParseError.fault) (g := ParseError.fault)
    |>.mpr (hunseen _ _ (differ_annotationText ids (by simp) hs))
  have hempty : annotationLine ids ("@B(x = ".toList ++ literal [] ++ [')']) =
      .ok ⟨⟨"B", none⟩, [("x", .const (.string ""))]⟩ := rfl
  rw [read_annotationText (by simp), read_annotationText hs, hempty] at hagree
  rcases hread : annotationLine ids ("@B(x = ".toList ++ literal s ++ [')']) with fault | u
  · rw [hread] at hagree
    cases hagree
  · have hno := ne_string_of_annotationLine hquote hcomma hread
    have hstring : ∀ contents, ¬ ∃ e ∈ u.elements, e.2 = .const (.string contents) :=
      fun contents ⟨e, he, heq⟩ => hno e he contents heq
    rw [hread] at hagree
    cases hagree with
    | ok h =>
      have hannotations : [_] = [u] ∨ DifferOnce (UseDiffers (Denotes [] s)) [_] [u] :=
        h.elim (fun heq => .inl (congrArg ClassInfo.annotations heq)) annotations_of_differs
      rcases hannotations with heq | hdiffer
      · obtain rfl := List.singleton_inj.mp heq
        exact hstring _ ⟨_, List.mem_singleton_self _, rfl⟩
      · obtain ⟨_, -, u', hu', huse⟩ := hdiffer.exists_mem
        rw [List.mem_singleton.mp hu'] at huse
        exact hstring _ (exists_of_useDiffers huse)

/-! ### The contents that are opaque -/

/-- **Contents of string literals are opaque if the line keeps them together, and no others are.**
Texts that differ in them in one literal are both accepted or both refused, and write the same class
but for the constant that the literal denotes; the contents of an initial value may have no
parenthesis that opens, those of an argument no comma, and those of a default may have anything. -/
theorem opaque_literals (ids : Naming) (role : Role) :
    (∀ s s', role.Keeps s → role.Keeps s' → Opaque ids role s s') ∧
    ∀ s, '"' ∉ s → '\n' ∉ s → (Opaque ids role [] s ↔ role.Keeps s) := by
  refine ⟨fun s s' => opaque_of_keeps ids, fun s hquote hs => ⟨fun hunseen => ?_, fun hkeeps => ?_⟩⟩
  · by_contra hcut
    cases role with
    | initial => exact not_opaque_initial ids hs (not_not.mp hcut) hunseen
    | argument => exact not_opaque_argument ids hs hquote (not_not.mp hcut) hunseen
    | default => exact hcut trivial
  · refine opaque_of_keeps ids ?_ hkeeps
    cases role <;> simp [Role.Keeps]

/-- Marks in an argument that are not seen, and a comma that is. -/
theorem opaque_literals_label :
    Role.argument.Keeps ['y'] ∧ Role.argument.Keeps "(= 1); \x7d".toList ∧
    (parse .plain (annotationText "(= 1); \x7d".toList)).isOk = true ∧
    Agree (Role.argument.Differs (ClassDiffers (Denotes ['y'] "(= 1); \x7d".toList)))
      (parse .plain (annotationText ['y'])) (parse .plain (annotationText "(= 1); \x7d".toList)) ∧
    '"' ∉ "y,z".toList ∧ '\n' ∉ "y,z".toList ∧ ¬ Opaque .plain .argument [] "y,z".toList := by
  have hy : Role.argument.Keeps ['y'] := by
    rw [Role.Keeps]
    decide
  have hmarks : Role.argument.Keeps "(= 1); \x7d".toList := by
    rw [Role.Keeps]
    decide
  have hcut : ¬ Role.argument.Keeps "y,z".toList := by
    rw [Role.Keeps]
    decide
  refine ⟨hy, hmarks, by decide, ?_, by decide, by decide, ?_⟩
  · exact (opaque_literals .plain .argument).1 _ _ hy hmarks _ _
      (differ_annotationText .plain (by decide) (by decide))
  · have hiff := (opaque_literals .plain .argument).2 "y,z".toList (by decide) (by decide)
    exact (not_congr hiff).mpr hcut

/-- **Not all contents are opaque**: a parenthesis in the initial value of a field is seen. -/
theorem literals_seen : ¬ ∀ (ids : Naming) (role : Role) (s s' : List Char),
    (∀ c ∈ s ++ s', c ≠ '"' ∧ c ≠ '\\' ∧ c ≠ '\n') → Opaque ids role s s' := by
  intro h
  exact not_opaque_initial .plain (s := ['(']) (by decide) (by decide)
    (h .plain .initial [] ['('] (by simp))

end Classpath.TextClass

import Classpath.Proofs.TextClass.Value

/-!
# Declarations that were written

The parts of a draft that take one line are read back from their text: annotations, fields and method
signatures. Each reader cuts its line at the first place of a separator,
so what comes before that place must not have it; names and modifiers never do, and a string in an
annotation or a default comes after the first of each.

* `Classpath.TextClass.items_commas` – lists with commas.
* `Classpath.TextClass.Draft.annotationLine_text`, `Classpath.TextClass.Draft.field_text`,
  `Classpath.TextClass.Draft.method_text` – the lines.
-/

namespace Classpath.TextClass

variable {c : Char}

/-! ### Lists with commas -/

/-- **The items of a list with commas** are what was put into it. -/
theorem items_commas {ts : List (List Char)}
    (h : ∀ t ∈ ts, t ≠ [] ∧ Tight t ∧ ',' ∉ t) : items (Draft.commas ts) = ts := by
  -- the list, with or without the blank that follows a comma
  have hpieces : ∀ (ts : List (List Char)) (t lead : List Char), (∀ c ∈ lead, c = ' ') →
      (∀ u ∈ t :: ts, Tight u ∧ ',' ∉ u) →
      ((lead ++ Draft.commas (t :: ts)).splitOn ',').map trim = t :: ts := by
    intro ts
    induction ts with
    | nil =>
      intro t lead hlead hts
      obtain ⟨htight, hcomma⟩ := hts t (by simp)
      have hnot : ',' ∉ lead ++ t := by
        rw [List.mem_append, not_or]
        exact ⟨fun hmem => absurd (hlead _ hmem) (by decide), hcomma⟩
      rw [Draft.commas, List.intercalate_singleton, List.splitOn_eq_singleton hnot]
      have htrim : trim (lead ++ t) = t := by
        simpa using trim_append (b := []) (fun c hc => by rw [hlead c hc]; decide) htight (by simp)
      rw [List.map_singleton, htrim]
    | cons u us ih =>
      intro t lead hlead hts
      obtain ⟨⟨htight, hcomma⟩, hrest⟩ := List.forall_mem_cons.mp hts
      have hnot : ',' ∉ lead ++ t := by
        rw [List.mem_append, not_or]
        exact ⟨fun hmem => absurd (hlead _ hmem) (by decide), hcomma⟩
      have hcut : lead ++ Draft.commas (t :: u :: us) =
          (lead ++ t) ++ ',' :: ([' '] ++ Draft.commas (u :: us)) := by
        simp [Draft.commas]
      have htrim : trim (lead ++ t) = t := by
        simpa using trim_append (b := []) (fun c hc => by rw [hlead c hc]; decide) htight (by simp)
      rw [hcut, List.splitOn_append_cons_self_of_not_mem hnot, List.map_cons, htrim,
        ih u [' '] (by simp) hrest]
  rcases ts with _ | ⟨t, ts⟩
  · rfl
  · have hmap := hpieces ts t [] (by simp) fun u hu => (h u hu).2
    rw [List.nil_append] at hmap
    rw [items, hmap, List.filter_eq_self]
    intro u hu
    simpa using (h u hu).1

/-- Reading item by item. -/
theorem mapM_map {α β γ : Type} {f : α → β} {g : β → Except Fault γ} {k : α → γ} {l : List α}
    (h : ∀ a ∈ l, g (f a) = .ok (k a)) : (l.map f).mapM g = .ok (l.map k) := by
  induction l with
  | nil => rfl
  | cons a l ih =>
    obtain ⟨ha, hl⟩ := List.forall_mem_cons.mp h
    rw [List.map_cons, List.mapM_cons, ha, ih hl]
    rfl

namespace Draft

/-! ### Annotations -/

theorem fits_elementText (e : Identifier × Value) : Fits (Usage.elementText e) :=
  e.1.fits.append e.2.fits _ (by decide) (by decide) (by decide)

theorem element_text (ids : Naming) (e : Identifier × Value) :
    element ids (Usage.elementText e) = .ok (e.1.name, e.2.element) := by
  have hname : '=' ∉ e.1.text ++ [' '] := by
    simpa using e.1.not_mem (c := '=') (isNameChar_of_mem_marks (by decide))
  have hcut : cutAt? '=' (Usage.elementText e) =
      some (e.1.text ++ [' '], ' ' :: e.2.text) := by
    have htext : Usage.elementText e = (e.1.text ++ [' ']) ++ '=' :: (' ' :: e.2.text) := by
      simp [Usage.elementText]
    rw [htext, cutAt?_append hname]
  rw [element, hcut]
  simp only [e.1.tight.trim_append_space, e.2.fits.tight.trim_space_cons, value_text]
  rfl

/-- **An annotation is read back.** -/
theorem annotationLine_text (ids : Naming) (a : Usage) :
    annotationLine ids a.text = .ok a.info := by
  have hparen : '(' ∉ a.type.text := a.type.not_mem (isNameChar_of_mem_marks (by decide))
  have hstart : ∀ body, ['@'].isPrefixOf? ('@' :: body) = some body := isPrefixOf?_append ['@']
  have hname : a.type.text.isEmpty = false := by
    simpa using a.type.ne_nil
  rw [annotationLine, Usage.text, hstart, Option.getD_some]
  rcases hempty : a.elements.isEmpty with _ | _
  · let args := commas (a.elements.map Usage.elementText)
    have hclose : Tight [')'] := tight_of_all (by decide)
    have htight : Tight (a.type.text ++ '(' :: (args ++ [')'])) := by
      simpa using a.type.tight.append (t := '(' :: args) hclose a.type.ne_nil (by simp)
    have hitems : items args = a.elements.map Usage.elementText := by
      refine items_commas fun t ht => ?_
      obtain ⟨e, -, rfl⟩ := List.mem_map.mp ht
      exact ⟨(fits_elementText e).nonempty, (fits_elementText e).tight,
        (fits_elementText e).commaless⟩
    have helements : (a.elements.map Usage.elementText).mapM (element ids) =
        .ok (a.elements.map fun e => (e.1.name, e.2.element)) :=
      mapM_map fun e _ => element_text ids e
    simp only [Bool.false_eq_true, if_false, args, htight.trim_eq, cutAt?_append hparen,
      isSuffixOf?_append, a.type.tight.trim_eq, pure_bind, hname, hitems, helements,
      a.type.namedClass_text]
    rfl
  · have hnil : a.elements = [] := List.isEmpty_iff.mp hempty
    simp only [if_true, List.append_nil, a.type.tight.trim_eq, cutAt?_eq_none hparen, pure_bind,
      hname, a.type.namedClass_text]
    rw [Usage.info, hnil]
    rfl

/-! ### Members -/

/-- A word of a declaration: a name or a modifier. -/
def IsWord (t : List Char) : Prop :=
  t ≠ [] ∧ t.all isNameChar

theorem Identifier.isWord (i : Identifier) : IsWord i.text :=
  ⟨i.ne_nil, i.chars⟩

/-- **The words of modifiers**, each of which names the property that it is the word of and no kind
of class. That property has no bit in common with those that only kinds give. -/
theorem of_word?_eq_some {flag : Flag} {word : String} (h : word? flag = some word) :
    IsWord word.toList ∧ modifier? word.toList = some flag ∧ kindFlags? word.toList = none ∧
      ∀ other, word? other = none → flag.bit &&& other.bit = 0 := by
  cases flag
  case isInterface | isAnnotationType | isEnum => cases h
  all_goals
    cases h
    refine ⟨⟨by decide, all_isNameChar_of_letters (by decide)⟩, rfl, rfl, ?_⟩
    intro other hother
    cases other <;> first | decide | cases hother

theorem Modifier.word?_eq_some (m : Modifier) :
    word? m.flag = some ((word? m.flag).get m.isSome_word) :=
  (Option.some_get m.isSome_word).symm

theorem Modifier.isWord (m : Modifier) : IsWord m.text :=
  (of_word?_eq_some m.word?_eq_some).1

theorem modifier?_text (m : Modifier) : modifier? m.text = some m.flag :=
  (of_word?_eq_some m.word?_eq_some).2.1

theorem kindFlags?_text (m : Modifier) : kindFlags? m.text = none :=
  (of_word?_eq_some m.word?_eq_some).2.2.1

theorem Modifier.bit_and_eq_zero (m : Modifier) {flag : Flag} (h : word? flag = none) :
    m.flag.bit &&& flag.bit = 0 :=
  (of_word?_eq_some m.word?_eq_some).2.2.2 flag h

theorem IsWord.not_mem {t : List Char} (h : IsWord t) (hc : isNameChar c = false) : c ∉ t := by
  intro hmem
  rw [List.all_eq_true.mp h.2 c hmem] at hc
  cases hc

theorem IsWord.not_blank {t : List Char} (h : IsWord t) : ∀ c ∈ t, isBlank c = false := by
  intro c hmem
  by_contra hblank
  exact h.not_mem (isNameChar_of_isBlank (by simpa using hblank)) hmem

theorem IsWord.tight {t : List Char} (h : IsWord t) : Tight t :=
  tight_of_forall h.not_blank

/-- Words with blanks between them. -/
theorem words_isWord {ts : List (List Char)} (h : ∀ t ∈ ts, IsWord t) :
    words ([' '].intercalate ts) = ts :=
  words_intercalate fun t ht => ⟨(h t ht).1, (h t ht).not_blank⟩

theorem not_mem_isWord {ts : List (List Char)} (h : ∀ t ∈ ts, IsWord t) (hblank : c ≠ ' ')
    (hc : isNameChar c = false) : c ∉ [' '].intercalate ts :=
  not_mem_intercalate (by simpa using hblank) fun t ht => (h t ht).not_mem hc

theorem isWord_declaration (modifiers : List Modifier) (type name : Identifier) :
    ∀ t ∈ modifiers.map (·.text) ++ [type.text, name.text], IsWord t := by
  intro t ht
  rcases List.mem_append.mp ht with ht | ht
  · obtain ⟨m, -, rfl⟩ := List.mem_map.mp ht
    exact m.isWord
  · rcases List.mem_pair.mp ht with rfl | rfl
    · exact type.isWord
    · exact name.isWord

/-- **Modifiers are read back**, in whatever order they stand. -/
theorem modifiers_text (l : List Modifier) : modifiers (l.map (·.text)) = .ok (bits l) := by
  -- the modifiers that were read are the flags that the fold begins with
  have hfold : ∀ {f : UInt16 → List Char → Except Fault UInt16},
      (∀ flags (m : Modifier), f flags m.text = .ok (flags ||| m.flag.bit)) →
      ∀ flags, (l.map (·.text)).foldlM f flags =
        .ok (l.foldl (fun flags m => flags ||| m.flag.bit) flags) := by
    intro f hf
    induction l with
    | nil => exact fun _ => rfl
    | cons m l ih =>
      intro flags
      rw [List.map_cons, List.foldlM_cons, hf]
      exact ih _
  exact hfold (fun flags m => by rw [modifier?_text]) 0

/-- **A declaration is read back.** -/
theorem declaration_text (modifiers : List Modifier) (type name : Identifier) :
    declaration (declarationText modifiers type name) =
      .ok (bits modifiers, type.text, name.text) := by
  rw [declaration, declarationText, words_isWord (isWord_declaration modifiers type name)]
  simp only [List.reverse_append, List.reverse_cons, List.reverse_nil, List.nil_append,
    List.cons_append, List.reverse_reverse, modifiers_text]
  rfl

section Declaration

variable (modifiers : List Modifier) (type name : Identifier)

theorem not_mem_declarationText (hblank : c ≠ ' ') (hc : isNameChar c = false) :
    c ∉ declarationText modifiers type name :=
  not_mem_isWord (isWord_declaration modifiers type name) hblank hc

theorem declarationText_ne_nil : declarationText modifiers type name ≠ [] := by
  intro hnil
  have hwords := words_isWord (isWord_declaration modifiers type name)
  rw [← declarationText, hnil] at hwords
  exact absurd hwords.symm (by simp [words])

theorem tight_declarationText : Tight (declarationText modifiers type name) :=
  tight_intercalate fun t ht =>
    ⟨(isWord_declaration modifiers type name t ht).1,
      (isWord_declaration modifiers type name t ht).tight⟩

/-- **A field is read back.** -/
theorem field_text :
    field (declarationText modifiers type name) =
      .ok { name := name.name, descriptor := type.name, flags := bits modifiers } := by
  have hinitial : cutAt? '=' (declarationText modifiers type name) = none :=
    cutAt?_eq_none (not_mem_declarationText modifiers type name (by decide)
      (isNameChar_of_mem_marks (by decide)))
  rw [field, hinitial]
  simp only [Option.elim_none, (tight_declarationText modifiers type name).trim_eq,
    declaration_text]
  rfl

end Declaration

/-- **A default is read back**, and so is that there is none. -/
theorem defaultClause_text (ids : Naming) (default : Option Value) :
    defaultClause ids (trim (Member.defaultText default)) = .ok (default.map (·.element)) := by
  rcases default with _ | v
  · rfl
  · have hword : Tight "default".toList := tight_of_all (by decide)
    have htight : Tight ("default ".toList ++ v.text) :=
      hword.append (t := [' ']) v.fits.tight (by decide) v.fits.nonempty
    have htrim : trim (Member.defaultText (some v)) = "default".toList ++ ' ' :: v.text :=
      htight.trim_space_cons
    rw [defaultClause, htrim, isPrefixOf?_append]
    simp only [v.fits.tight.trim_space_cons, value_text]
    rfl

theorem items_names (l : List Identifier) :
    items (commas (l.map (·.text))) = l.map (·.text) := by
  refine items_commas fun t ht => ?_
  obtain ⟨i, -, rfl⟩ := List.mem_map.mp ht
  exact ⟨i.ne_nil, i.tight, i.fits.commaless⟩

/-- **A signature is read back**, with the default after it. -/
theorem method_text (ids : Naming) (s : Signature) (default : Option Value) :
    method ids (s.text ++ Member.defaultText default) =
      .ok { s.method with defaultValue := default.map (·.element) } := by
  have hopen := not_mem_declarationText (c := '(') s.modifiers s.result s.name (by decide)
    (isNameChar_of_mem_marks (by decide))
  have hclose : ')' ∉ commas (s.parameters.map (·.text)) := by
    refine not_mem_intercalate (by decide) fun t ht => ?_
    obtain ⟨i, -, rfl⟩ := List.mem_map.mp ht
    exact i.not_mem (isNameChar_of_mem_marks (by decide))
  have htext : s.text ++ Member.defaultText default =
      declarationText s.modifiers s.result s.name ++
        '(' :: (commas (s.parameters.map (·.text)) ++ ')' :: Member.defaultText default) := by
    simp [Signature.text]
  rw [method, htext]
  simp only [cutAt?_append hopen, cutAt?_append hclose, declaration_text, items_names,
    defaultClause_text]
  rfl

end Draft

end Classpath.TextClass

import Classpath.Proofs.Numeral
import Classpath.Proofs.TextClass.Draft

/-!
# Names and values that were written

The smallest parts of a draft are read back from what is written for them: a name is its own
normalized spelling, and a value is not taken for one of another form. What is written for them has
no blanks at its ends, stays on its line, has no comma and nothing that begins a comment.

* `Classpath.TextClass.Draft.namedClass_text` – names.
* `Classpath.TextClass.Draft.value_text` – values.
* `Classpath.TextClass.Guarded`, `Classpath.TextClass.stripComment_of_guarded` – every slash comes
  after a quote, so nothing is taken for a comment.
* `Classpath.TextClass.Draft.Fits` – what is certain of the text of a value.
-/

namespace Classpath.TextClass

variable {s a b : List Char} {c : Char}

/-! ### Comments -/

/-- **Every slash comes after a quote.** -/
def Guarded : List Char → Prop
  | [] => True
  | c :: rest => c = '"' ∨ c ≠ '/' ∧ Guarded rest

theorem guarded_of_not_mem (h : '/' ∉ s) : Guarded s := by
  induction s with
  | nil => trivial
  | cons c s ih =>
    obtain ⟨hc, hs⟩ := List.ne_and_not_mem_of_not_mem_cons h
    exact .inr ⟨hc.symm, ih hs⟩

theorem Guarded.append (ha : Guarded a) (hb : Guarded b) : Guarded (a ++ b) := by
  induction a with
  | nil => exact hb
  | cons c a ih =>
    rcases ha with hquote | ⟨hslash, ha⟩
    · exact .inl hquote
    · exact .inr ⟨hslash, ih ha⟩

theorem Guarded.intercalate {sep : List Char} (hsep : Guarded sep) :
    ∀ {ts : List (List Char)}, (∀ t ∈ ts, Guarded t) → Guarded (sep.intercalate ts)
  | [], _ => trivial
  | [t], h => by simpa using h t (by simp)
  | t :: u :: ts, h => by
    obtain ⟨ht, hrest⟩ := List.forall_mem_cons.mp h
    rw [List.intercalate_cons_cons]
    exact (ht.append hsep).append (hsep.intercalate hrest)

/-- What stands before two slashes has a quote. -/
theorem mem_of_cutAtWord?_slashes (h : Guarded s)
    (hcut : cutAtWord? ['/', '/'] s = some (a, b)) : '"' ∈ a := by
  induction s generalizing a with
  | nil => cases hcut
  | cons c s ih =>
    have hstart : ¬ ['/', '/'] <+: c :: s := by
      intro hstart
      obtain ⟨rfl, -⟩ := List.cons_prefix_cons.mp hstart
      rcases h with hquote | ⟨hslash, -⟩
      · cases hquote
      · exact hslash rfl
    rw [cutAtWord?, isPrefixOf?_eq_none hstart] at hcut
    obtain ⟨⟨before, after⟩, hrest, heq⟩ := Option.map_eq_some_iff.mp hcut
    obtain ⟨rfl, rfl⟩ := Prod.mk.inj heq
    rcases h with rfl | ⟨-, hs⟩
    · exact List.mem_cons_self ..
    · exact List.mem_cons_of_mem c (ih hs hrest)

/-- **A line in which every slash comes after a quote is kept.** -/
theorem stripComment_of_guarded (h : Guarded s) : stripComment s = s := by
  rw [stripComment]
  rcases hcut : cutAtWord? ['/', '/'] s with _ | ⟨before, after⟩
  · rfl
  · exact if_pos (List.contains_iff_mem.mpr (mem_of_cutAtWord?_slashes h hcut))

theorem stripComment_of_not_isInfix (h : ¬ ['/', '/'] <:+: s) : stripComment s = s := by
  rw [stripComment, cutAtWord?_eq_none h]

/-- Indentation does not begin a comment. -/
theorem stripComment_space_cons (h : stripComment s = s) : stripComment (' ' :: s) = ' ' :: s := by
  have hblank : ' ' ∉ ['/', '/'] := by decide
  have hspace := cutAtWord?_append (a := []) hblank (by decide) s
  rw [List.nil_append] at hspace
  rw [stripComment] at h ⊢
  rw [hspace]
  rcases hcut : cutAtWord? ['/', '/'] s with _ | ⟨before, after⟩
  · rfl
  · rw [hcut] at h
    simp only [Option.map_some] at h ⊢
    split at h
    · rename_i hquote
      exact if_pos (by simpa using hquote)
    -- a line that was cut is shorter than it was
    · have hlength := congrArg List.length (eq_append_of_cutAtWord?_eq_some hcut)
      rw [h] at hlength
      simp at hlength

theorem stripComment_indented (h : stripComment s = s) (n : Nat) :
    stripComment (List.replicate n ' ' ++ s) = List.replicate n ' ' ++ s := by
  induction n with
  | zero => simpa using h
  | succ n ih =>
    rw [List.replicate_succ, List.cons_append]
    exact stripComment_space_cons ih

namespace Draft

/-! ### Names -/

/-- No blank belongs to a name. -/
theorem isNameChar_of_isBlank (h : isBlank c = true) : isNameChar c = false := by
  have hblanks : ∀ n ∈ [0x9, 0xA, 0xB, 0xC, 0xD, 0x20, 0x85, 0xA0, 0x1680, 0x2000, 0x2001, 0x2002,
      0x2003, 0x2004, 0x2005, 0x2006, 0x2007, 0x2008, 0x2009, 0x200A, 0x2028, 0x2029, 0x202F, 0x205F,
      0x3000], isNameChar (Char.ofNat n) = false := by
    decide +kernel
  have hmem := hblanks c.toNat (by
    simp only [isBlank, Bool.or_eq_true, Bool.and_eq_true, decide_eq_true_eq, beq_iff_eq] at h
    simp only [List.mem_cons, List.not_mem_nil, or_false]
    omega)
  rwa [Char.ofNat_toNat] at hmem

/-- The marks between names. -/
def marks : List Char :=
  ['\n', '"', '(', ')', '+', ',', '-', '/', ';', '=', '@', '{', '}']

/-- **No mark belongs to a name.** -/
theorem isNameChar_of_mem_marks (h : c ∈ marks) : isNameChar c = false := by
  have hmarks : marks.all (isNameChar · = false) = true := by decide +kernel
  simpa using List.all_eq_true.mp hmarks c h

/-- No mark is a letter, and neither is the dot within names. -/
theorem isAlphabetic_of_mem_marks (h : c ∈ '.' :: marks) : isAlphabetic c = false := by
  have hmarks : ('.' :: marks).all (isAlphabetic · = false) = true := by decide +kernel
  simpa using List.all_eq_true.mp hmarks c h

/-- The letters of the words of the language. -/
def wordLetters : List Char :=
  "abcdefghijklmnopqrstuvwxyz".toList

theorem all_isNameChar_of_letters {t : List Char} (h : t.all (wordLetters.contains ·) = true) :
    t.all isNameChar = true := by
  have hletters : wordLetters.all isNameChar = true := by decide +kernel
  refine List.all_eq_true.mpr fun c hc => List.all_eq_true.mp hletters c ?_
  simpa using List.all_eq_true.mp h c hc

namespace Identifier

variable (i : Identifier)

theorem not_mem (hc : isNameChar c = false) : c ∉ i.text := by
  intro hmem
  rw [List.all_eq_true.mp i.chars c hmem] at hc
  cases hc

theorem not_blank : ∀ c ∈ i.text, isBlank c = false := by
  intro c hmem
  by_contra hblank
  exact i.not_mem (isNameChar_of_isBlank (by simpa using hblank)) hmem

theorem tight : Tight i.text :=
  tight_of_forall i.not_blank

/-- A name begins with a letter. -/
theorem exists_cons : ∃ c rest, i.text = c :: rest ∧ isAlphabetic c = true := by
  have hletter := i.letter
  rcases htext : i.text with _ | ⟨c, rest⟩
  · rw [htext] at hletter
    cases hletter
  · rw [htext] at hletter
    exact ⟨c, rest, rfl, hletter⟩

theorem ne_nil : i.text ≠ [] := by
  obtain ⟨c, rest, htext, -⟩ := i.exists_cons
  simp [htext]

theorem guarded : Guarded i.text :=
  guarded_of_not_mem (i.not_mem (isNameChar_of_mem_marks (by decide)))

/-- **A name is its own normalized spelling.** -/
theorem normalizedName_text : normalizedName i.text = i.text := by
  have hsemicolon : ';' ∉ i.text := i.not_mem (isNameChar_of_mem_marks (by decide))
  have hslash : '/' ∉ i.text := i.not_mem (isNameChar_of_mem_marks (by decide))
  have hdescriptor : (['L'].isPrefixOf? i.text).bind
      (fun rest => [';'].isSuffixOf? rest) = none := by
    rw [Option.bind_eq_none_iff]
    intro rest hstart
    refine isSuffixOf?_eq_none fun hsuffix => hsemicolon ?_
    rw [← List.isPrefixOf?_eq_some_iff_append_eq.mp hstart]
    exact List.mem_append_right _ (hsuffix.subset (by simp))
  have hroot : ['/'].isPrefixOf? i.text = none :=
    isPrefixOf?_eq_none fun hstart => hslash (hstart.subset (by simp))
  have hkeep : replaceChar '/' '.' i.text = i.text := by
    have hchar : ∀ c ∈ i.text, (if c = '/' then '.' else c) = c := by
      intro c hc
      exact if_neg (by rintro rfl; exact hslash hc)
    exact (List.map_congr_left hchar).trans (List.map_id' _)
  simp only [normalizedName, i.tight.trim_eq, isSuffixOf?_eq_none i.not_classLiteral, Option.getD_none,
    hdescriptor, hroot, hkeep]

theorem namedClass_text (ids : Naming) : namedClass ids i.text = i.type := by
  rw [namedClass, Naming.classType, String.toList_ofList, i.normalizedName_text]
  rfl

end Identifier

/-! ### Values -/

/-- **A text that fits between commas**: it is not empty, has no blanks at its ends and stays on its
line, and nothing in it is taken for a comma of the list or for a comment. -/
structure Fits (s : List Char) : Prop where
  nonempty : s ≠ []
  tight : Tight s
  single : '\n' ∉ s
  commaless : ',' ∉ s
  guarded : Guarded s

theorem Identifier.fits (i : Identifier) : Fits i.text where
  nonempty := i.ne_nil
  tight := i.tight
  single := i.not_mem (isNameChar_of_mem_marks (by decide))
  commaless := i.not_mem (isNameChar_of_mem_marks (by decide))
  guarded := i.guarded

/-- Texts that fit, with a text between them that has neither line ends, commas nor slashes. -/
theorem Fits.append (ha : Fits a) (hb : Fits b) (mid : List Char) (hsingle : '\n' ∉ mid)
    (hcommaless : ',' ∉ mid) (hslashless : '/' ∉ mid) : Fits (a ++ mid ++ b) where
  nonempty := by simp [ha.nonempty]
  tight := ha.tight.append hb.tight ha.nonempty hb.nonempty
  single := by simp [ha.single, hsingle, hb.single]
  commaless := by simp [ha.commaless, hcommaless, hb.commaless]
  guarded := (ha.guarded.append (guarded_of_not_mem hslashless)).append hb.guarded

/-- A character that may stand anywhere in a value. -/
abbrev Harmless (c : Char) : Prop :=
  isBlank c = false ∧ c ≠ '\n' ∧ c ≠ ',' ∧ c ≠ '/'

theorem fits_of_forall (hne : s ≠ []) (h : ∀ c ∈ s, Harmless c) : Fits s where
  nonempty := hne
  tight := tight_of_forall fun c hc => (h c hc).1
  single hc := (h _ hc).2.1 rfl
  commaless hc := (h _ hc).2.2.1 rfl
  guarded := guarded_of_not_mem fun hc => (h _ hc).2.2.2 rfl

/-- What holds of ten characters holds of every digit. -/
theorem forall_of_isDigit {P : Char → Prop} [DecidablePred P] (h : "0123456789".toList.all (P ·))
    (hc : c.isDigit) : P c := by
  rw [Char.isDigit_iff_toNat] at hc
  have hlow : 48 ≤ c.toNat := hc.1
  have hhigh : c.toNat ≤ 57 := hc.2
  have hmem : c.toNat ∈ [48, 49, 50, 51, 52, 53, 54, 55, 56, 57] := by
    simp only [List.mem_cons, List.not_mem_nil, or_false]
    omega
  have hdigit : c ∈ "0123456789".toList := by
    rw [← Char.ofNat_toNat c]
    exact List.mem_map_of_mem (f := Char.ofNat) hmem
  simpa using List.all_eq_true.mp h c hdigit

theorem fits_of_all (hne : s ≠ []) (h : s.all (Harmless ·)) : Fits s :=
  fits_of_forall hne fun c hc => by simpa using List.all_eq_true.mp h c hc

theorem fits_toString (n : Int) : Fits (toString n).toList :=
  fits_of_forall (Numeral.toString_ne_nil n) <|
    Numeral.forall_mem_toString (P := Harmless) (by decide)
      (fun _ hd => forall_of_isDigit (P := Harmless) (by decide) hd) n

namespace Value

/-- **The text of a value fits.** -/
theorem fits : ∀ v : Value, Fits v.text
  | int n => fits_toString n.toInt
  | long n => by
    have hmark : Fits ['L'] := fits_of_all (by decide) (by decide)
    simpa [text] using (fits_toString n.toInt).append hmark [] (by simp) (by simp) (by simp)
  | boolean b => by
    cases b <;> exact fits_of_all (by decide) (by decide)
  | enum type constant => by
    simpa [text] using type.fits.append constant.fits ['.'] (by decide) (by decide)
      (by decide)
  | string contents => by
    have hquote : Tight ['"'] := tight_of_all (by decide)
    refine ⟨by simp [text], ?_, ?_, ?_, .inl rfl⟩
    · exact hquote.append hquote (by simp) (by simp)
    · simpa [text] using contents.single
    · simpa [text] using contents.commaless

end Value

/-- A text in which the words and literals with an end of their own do not end is a number or has a
dot. -/
theorem value_eq (ids : Naming) (hlast : ∀ c ∈ s.getLast?, c ≠ 'e' ∧ c ≠ '"' ∧ c ≠ 's') {k : Constant}
    (hnumber : number? s = some k) : value ids s = .ok (.const k) := by
  have htrue : s ≠ "true".toList := by
    rintro rfl
    exact (hlast 'e' rfl).1 rfl
  have hfalse : s ≠ "false".toList := by
    rintro rfl
    exact (hlast 'e' rfl).1 rfl
  have hclass : ".class".toList.isSuffixOf? s = none := by
    refine isSuffixOf?_eq_none ?_
    rintro ⟨before, rfl⟩
    exact (hlast 's' (by simp)).2.2 rfl
  have hstring : stringLiteral? s = none := by
    rw [stringLiteral?, Option.bind_eq_none_iff]
    intro rest hstart
    refine isSuffixOf?_eq_none ?_
    rintro ⟨before, rfl⟩
    rw [List.isPrefixOf?_eq_some_iff_append_eq] at hstart
    subst hstart
    rw [← List.append_assoc] at hlast
    exact (hlast '"' List.getLast?_concat).2.1 rfl
  rw [value, if_neg htrue, if_neg hfalse, hstring, hclass]
  simp only [hnumber]

/-- A character in which an integer may end, and no value of another form. -/
abbrev EndsInteger (c : Char) : Prop :=
  c ≠ 'e' ∧ c ≠ '"' ∧ c ≠ 's' ∧ c ≠ 'L'

theorem endsInteger_of_mem_getLast? {n : Int} (h : c ∈ (toString n).toList.getLast?) :
    EndsInteger c :=
  Numeral.forall_mem_toString (P := EndsInteger) (by decide)
    (fun _ hd => forall_of_isDigit (P := EndsInteger) (by decide) hd) n c
    (List.mem_of_mem_getLast? h)

theorem number?_int (n : Int32) : number? (toString n.toInt).toList = some (.int n) := by
  have hmark : ['L'].isSuffixOf? (toString n.toInt).toList = none := by
    refine isSuffixOf?_eq_none fun hsuffix => ?_
    exact (endsInteger_of_mem_getLast? (singleton_suffix_iff.mp hsuffix)).2.2.2 rfl
  have hint : Numeral.int? 32 (toString n.toInt).toList = some n.toInt :=
    Numeral.int?_toString n.le_toInt n.toInt_lt
  rw [number?, hmark]
  simp only [Option.bind_none, hint, Int32.ofInt_toInt]

theorem number?_long (n : Int64) :
    number? ((toString n.toInt).toList ++ ['L']) = some (.long n) := by
  have hint : Numeral.int? 64 (toString n.toInt).toList = some n.toInt :=
    Numeral.int?_toString n.le_toInt n.toInt_lt
  rw [number?, isSuffixOf?_append]
  simp only [Option.bind_some, hint, Int64.ofInt_toInt]

/-- A letter is no digit. -/
theorem digit?_of_isAlphabetic (h : isAlphabetic c = true) : digit? c = none := by
  refine if_neg fun ⟨hlow, hhigh⟩ => ?_
  have hdigit : c.isDigit := Char.isDigit_iff_toNat.mpr ⟨hlow, hhigh⟩
  have hletter : isAlphabetic c = false :=
    forall_of_isDigit (P := (isAlphabetic · = false)) (by decide +kernel) hdigit
  rw [h] at hletter
  cases hletter

/-- **A name with a constant after it is no number.** -/
theorem number?_enum (type : Identifier) (constant : EnumConstant) :
    number? (type.text ++ '.' :: constant.text) = none := by
  have hpoint : '.' ∈ type.text ++ '.' :: constant.text := by simp
  have hlong : (['L'].isSuffixOf? (type.text ++ '.' :: constant.text)).bind
      (Numeral.int? 64) = none := by
    rw [Option.bind_eq_none_iff]
    intro before hsuffix
    refine Numeral.int?_eq_none 64 ?_
    rw [← List.isSuffixOf?_eq_some_iff_append_eq.mp hsuffix] at hpoint
    simpa using hpoint
  obtain ⟨c, rest, htext, hletter⟩ := type.exists_cons
  have hne : ∀ d ∈ '.' :: marks, c ≠ d := by
    rintro d hd rfl
    rw [isAlphabetic_of_mem_marks hd] at hletter
    cases hletter
  have hdouble : Numeral.double? (type.text ++ '.' :: constant.text) = none := by
    rw [htext]
    exact Numeral.double?_eq_none (digit?_of_isAlphabetic hletter) (hne '.' (by decide))
      (hne '-' (by decide)) (hne '+' (by decide)) (by simp)
  rw [number?, hlong]
  simp only [Numeral.int?_eq_none 32 hpoint, hdouble]
  rfl

theorem value_enum (ids : Naming) (type : Identifier) (constant : EnumConstant) :
    value ids (type.text ++ '.' :: constant.text) =
      .ok (.enumConstant type.type constant.name) := by
  have hword : ∀ word : List Char, '.' ∉ word → type.text ++ '.' :: constant.text ≠ word := by
    rintro word hdotless rfl
    simp at hdotless
  have hstring : stringLiteral? (type.text ++ '.' :: constant.text) = none := by
    have hquote : ['"'].isPrefixOf? (type.text ++ '.' :: constant.text) = none := by
      refine isPrefixOf?_eq_none fun hstart => ?_
      obtain ⟨c, rest, htext, hletter⟩ := type.exists_cons
      rw [htext] at hstart
      obtain ⟨rfl, -⟩ := List.cons_prefix_cons.mp hstart
      rw [isAlphabetic_of_mem_marks (by decide)] at hletter
      cases hletter
    rw [stringLiteral?, hquote, Option.bind_none]
  -- the last dot is the one before the constant
  have hclass : ".class".toList.isSuffixOf? (type.text ++ '.' :: constant.text) = none := by
    refine isSuffixOf?_eq_none ?_
    rintro ⟨before, happend⟩
    have hcut := cutAtLast?_append type.text constant.dotless
    have hcut' := cutAtLast?_append (c := '.') (b := "class".toList) before (by decide)
    rw [← happend] at hcut
    exact constant.not_class (Prod.mk.inj (Option.some.inj (hcut.symm.trans hcut'))).2
  rw [value, if_neg (hword _ (by decide)), if_neg (hword _ (by decide)), hstring, hclass]
  simp only [number?_enum, cutAtLast?_append type.text constant.dotless, type.namedClass_text]
  rfl

theorem value_string (ids : Naming) (contents : List Char) :
    value ids ('"' :: (contents ++ ['"'])) = .ok (.const (.string (String.ofList contents))) := by
  have hword : ∀ word : List Char, word.head? ≠ some '"' → '"' :: (contents ++ ['"']) ≠ word := by
    rintro word hhead rfl
    exact hhead rfl
  have hstring : stringLiteral? ('"' :: (contents ++ ['"'])) = some contents := by
    have hstart := isPrefixOf?_append ['"'] (contents ++ ['"'])
    rw [List.singleton_append] at hstart
    rw [stringLiteral?, hstart, Option.bind_some, isSuffixOf?_append]
  rw [value, if_neg (hword _ (by decide)), if_neg (hword _ (by decide)), hstring]

/-- **A value is read back.** -/
theorem value_text (ids : Naming) : ∀ v : Value, value ids v.text = .ok v.element
  | .int n => by
    refine value_eq ids (fun c hc => ?_) (number?_int n)
    obtain ⟨he, hquote, hs, -⟩ := endsInteger_of_mem_getLast? hc
    exact ⟨he, hquote, hs⟩
  | .long n => value_eq ids (by simp [Value.text]) (number?_long n)
  | .boolean b => by
    cases b <;> rfl
  | .enum type constant => value_enum ids type constant
  | .string contents => value_string ids contents.text

end Draft

end Classpath.TextClass

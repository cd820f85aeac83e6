import Classpath.Proofs.TextClass.Declaration

/-!
# Headers that were written

The header of a draft is read back. It is cut into words to find the modifiers, the kind and the
name, and what follows is put together from its words again and cut at the word before interfaces,
which no name contains.

* `Classpath.TextClass.Draft.kind_text` – the modifiers and the kind.
* `Classpath.TextClass.Draft.clauses_text` – the clauses.
* `Classpath.TextClass.Draft.header_text` – the header.
-/

namespace Classpath

variable {a b s : List Char}

/-! ### Single blanks -/

/-- **A text that its words make up again**, since only single blanks stand between them. -/
structure Spaced (s : List Char) : Prop where
  nonempty : s ≠ []
  joined : [' '].intercalate (words s) = s

theorem Spaced.words_ne_nil (h : Spaced s) : words s ≠ [] := by
  intro hnil
  have hjoined := h.joined
  rw [hnil] at hjoined
  exact h.nonempty hjoined.symm

theorem spaced_of_forall (hne : s ≠ []) (h : ∀ c ∈ s, isBlank c = false) : Spaced s where
  nonempty := hne
  joined := by rw [words_eq_singleton hne h, List.intercalate_singleton]

theorem Spaced.append (ha : Spaced a) (hb : Spaced b) : Spaced (a ++ ' ' :: b) where
  nonempty := by simp
  joined := by
    rw [words_append_space, intercalate_append ha.words_ne_nil hb.words_ne_nil, ha.joined,
      hb.joined, List.append_assoc, List.singleton_append]

theorem Spaced.intercalate {ts : List (List Char)} (h : ∀ t ∈ ts, Spaced t) (hne : ts ≠ []) :
    Spaced ([' '].intercalate ts) := by
  induction ts with
  | nil => exact absurd rfl hne
  | cons t ts ih =>
    obtain ⟨ht, hts⟩ := List.forall_mem_cons.mp h
    cases ts with
    | nil => rwa [List.intercalate_singleton]
    | cons u us =>
      rw [List.intercalate_cons_cons, List.append_assoc, List.singleton_append]
      exact ht.append (ih hts (by simp))

/-- The words of texts are those of the texts that they are joined to. -/
theorem intercalate_flatMap_words {ts : List (List Char)} (h : ∀ t ∈ ts, Spaced t) :
    [' '].intercalate (ts.flatMap words) = [' '].intercalate ts := by
  rcases ts with _ | ⟨t, ts⟩
  · rfl
  · rw [← words_intercalate_space]
    exact (Spaced.intercalate h (by simp)).joined

namespace TextClass.Draft

/-! ### Modifiers and the kind -/

theorem kindFlags?_label (k : ClassKind) : kindFlags? k.label.toList = some (kindBits k) := by
  cases k <;> rfl

theorem isWord_label (k : ClassKind) : IsWord k.label.toList := by
  cases k <;> exact ⟨by decide, all_isNameChar_of_letters (by decide)⟩

/-- Modifiers set their flags on top of those that are set. -/
theorem foldl_bits (l : List Modifier) (flags : UInt16) :
    l.foldl (fun flags m => flags ||| m.flag.bit) flags = flags ||| bits l := by
  induction l generalizing flags with
  | nil => simp [bits]
  | cons m l ih =>
    rw [bits, List.foldl_cons, List.foldl_cons, ih, ih (0 ||| m.flag.bit), UInt16.zero_or,
      UInt16.or_assoc]

/-- **The modifiers and the kind of a header are read back.** -/
theorem kind_text (l : List Modifier) (k : ClassKind) (rest : List (List Char)) :
    TextClass.kind 0 (l.map (·.text) ++ k.label.toList :: rest) =
      .ok (bits l ||| kindBits k, rest) := by
  have hloop : ∀ flags : UInt16,
      TextClass.kind flags (l.map (·.text) ++ k.label.toList :: rest) =
        .ok (l.foldl (fun flags m => flags ||| m.flag.bit) flags ||| kindBits k, rest) := by
    induction l with
    | nil =>
      intro flags
      simp only [List.map_nil, List.nil_append, TextClass.kind, kindFlags?_label, List.foldl_nil]
    | cons m l ih =>
      intro flags
      simp only [List.map_cons, List.cons_append, TextClass.kind, kindFlags?_text, modifier?_text,
        List.foldl_cons, ih]
  exact hloop 0

theorem or_and_eq_of_and_eq_zero {x y z : UInt16} (h : x &&& z = 0) : (x ||| y) &&& z = y &&& z := by
  have hdistrib : (x ||| y) &&& z = x &&& z ||| y &&& z :=
    UInt16.toBitVec_inj.mp (BitVec.and_or_distrib_right ..)
  rw [hdistrib, h, UInt16.zero_or]

/-- No modifier sets a property that only kinds give. -/
theorem on_bits {flag : Flag} (h : word? flag = none) (l : List Modifier) (k : ClassKind) :
    flag.on (bits l ||| kindBits k) = flag.on (kindBits k) := by
  have hbits : bits l &&& flag.bit = 0 := by
    induction l with
    | nil => exact UInt16.zero_and
    | cons m l ih =>
      rw [bits, List.foldl_cons, foldl_bits, UInt16.zero_or,
        or_and_eq_of_and_eq_zero (m.bit_and_eq_zero h), ih]
  rw [Flag.on, or_and_eq_of_and_eq_zero hbits, Flag.on]

theorem isInterface_on_bits (l : List Modifier) (k : ClassKind) :
    Flag.isInterface.on (bits l ||| kindBits k) = k.isInterface := by
  rw [on_bits rfl]
  cases k <;> rfl

/-- **The kind of a draft is the kind of its class.** -/
theorem Class.kind_info (d : Class) : d.info.kind = d.kind := by
  have hkind : ClassKind.ofFlags (bits d.modifiers ||| kindBits d.kind) =
      ClassKind.ofFlags (kindBits d.kind) := by
    rw [ClassKind.ofFlags, on_bits rfl, on_bits rfl, on_bits rfl, ClassKind.ofFlags]
  refine hkind.trans ?_
  cases d.kind <;> rfl

/-! ### Clauses -/

section Names

variable {l : List Identifier}

theorem tight_names (l : List Identifier) : Tight (commas (l.map (·.text))) := by
  refine tight_intercalate fun t ht => ?_
  obtain ⟨i, -, rfl⟩ := List.mem_map.mp ht
  exact ⟨i.ne_nil, i.tight⟩

theorem spaced_names (hne : l ≠ []) : Spaced (commas (l.map (·.text))) := by
  induction l with
  | nil => exact absurd rfl hne
  | cons i l ih =>
    cases l with
    | nil => simpa [commas] using spaced_of_forall i.ne_nil i.not_blank
    | cons j l =>
      have hfirst : Spaced (i.text ++ [',']) := by
        refine spaced_of_forall (by simp) fun c hc => ?_
        rcases List.mem_append.mp hc with hname | hcomma
        · exact i.not_blank c hname
        · rw [List.mem_singleton.mp hcomma]
          decide
      have hcut : commas ((i :: j :: l).map (·.text)) =
          (i.text ++ [',']) ++ ' ' :: commas ((j :: l).map (·.text)) := by
        simp [commas]
      rw [hcut]
      exact hfirst.append (ih (by simp))

/-- **No list of names has the word before interfaces.** -/
theorem not_isInfix_names (l : List Identifier) :
    ¬ "implements".toList <:+: commas (l.map (·.text)) := by
  induction l with
  | nil => decide
  | cons i l ih =>
    cases l with
    | nil => simpa [commas] using i.not_keyword
    | cons j l =>
      have hcut : commas ((i :: j :: l).map (·.text)) =
          i.text ++ ',' :: ([] ++ ' ' :: commas ((j :: l).map (·.text))) := by
        simp [commas]
      rw [hcut]
      exact not_isInfix_append_cons (by decide) i.not_keyword
        (not_isInfix_append_cons (by decide) (by decide) ih)

end Names

/-- The text of a clause, if there is one. -/
def listed (l : List Identifier) : Option (List Char) :=
  if l.isEmpty then none else some (commas (l.map (·.text)))

/-- **The clauses of a header are read back.** -/
theorem clauses_text (extended implemented : List Identifier) :
    TextClass.clauses ([' '].intercalate
      (Class.clause "extends".toList extended ++ Class.clause "implements".toList implemented)) =
      .ok (listed extended, listed implemented) := by
  -- the clause that comes first, with what is known of it
  have hstart : ∀ l : List Identifier,
      ¬ "implements".toList <:+: "extends".toList ++ ' ' :: commas (l.map (·.text)) := fun l =>
    not_isInfix_append_cons (by decide) (by decide) (not_isInfix_names l)
  have htight : ∀ i l, Tight ("extends".toList ++ ' ' :: commas ((i :: l).map Identifier.text)) := by
    intro i l
    have hword : Tight "extends".toList := tight_of_all (by decide)
    exact hword.append (t := [' ']) (tight_names (i :: l)) (by decide)
      (spaced_names (by simp)).nonempty
  have hempty : ∀ s : List Char, ("extends".toList ++ s).isEmpty = false := fun _ => rfl
  rcases extended with _ | ⟨i, extended⟩ <;> rcases implemented with _ | ⟨j, implemented⟩
  case nil.nil => rfl
  case cons.nil =>
    have htext : [' '].intercalate (Class.clause "extends".toList (i :: extended) ++
        Class.clause "implements".toList []) =
        "extends".toList ++ ' ' :: commas ((i :: extended).map (·.text)) := by
      simp [Class.clause]
    rw [htext, TextClass.clauses, cutAtWord?_eq_none (hstart _)]
    simp only [(htight i extended).trim_eq, hempty, isPrefixOf?_append,
      (tight_names (i :: extended)).trim_space_cons]
    rfl
  case nil.cons =>
    have htext : [' '].intercalate (Class.clause "extends".toList [] ++
        Class.clause "implements".toList (j :: implemented)) =
        "implements".toList ++ ' ' :: commas ((j :: implemented).map (·.text)) := by
      simp [Class.clause]
    rw [htext, TextClass.clauses, cutAtWord?_start (by decide)]
    simp only [(tight_names (j :: implemented)).trim_space_cons]
    rfl
  case cons.cons =>
    have htext : [' '].intercalate (Class.clause "extends".toList (i :: extended) ++
        Class.clause "implements".toList (j :: implemented)) =
        ("extends".toList ++ ' ' :: commas ((i :: extended).map (·.text))) ++
          ' ' :: ("implements".toList ++ ' ' :: commas ((j :: implemented).map (·.text))) := by
      simp [Class.clause]
    rw [htext, TextClass.clauses, cutAtWord?_append (by decide) (hstart _),
      cutAtWord?_start (by decide)]
    simp only [Option.map_some, (htight i extended).trim_append_space, hempty, isPrefixOf?_append,
      (tight_names (i :: extended)).trim_space_cons,
      (tight_names (j :: implemented)).trim_space_cons]
    rfl

/-! ### The header -/

/-- The names that a clause lists. -/
theorem elim_listed (ids : Naming) (l : List Identifier) :
    ((listed l).elim [] items).map (namedClass ids) = l.map (·.type) := by
  have hnames : (listed l).elim [] items = l.map (·.text) := by
    rcases l with _ | ⟨i, l⟩
    · rfl
    · exact items_names (i :: l)
  rw [hnames, List.map_map]
  exact List.map_congr_left fun i _ => i.namedClass_text ids

theorem namedClass_rootName (ids : Naming) :
    namedClass ids rootName = ⟨String.ofList rootName, none⟩ := by
  let root : Identifier :=
    { text := rootName
      letter := by decide +kernel
      chars := by decide +kernel
      not_classLiteral := by decide
      not_keyword := by decide }
  exact root.namedClass_text ids

namespace Class

variable (d : Class) {P : List Char → Prop}

/-- The clauses of a header consist of words and of lists of names. -/
theorem forall_mem_clauses (hword : ∀ t, IsWord t → P t)
    (hnames : ∀ l : List Identifier, l ≠ [] → P (commas (l.map (·.text)))) :
    ∀ t ∈ d.clauses, P t := by
  have hclause : ∀ (keyword : List Char) (l : List Identifier), IsWord keyword →
      ∀ t ∈ clause keyword l, P t := by
    intro keyword l hkeyword t ht
    rcases l with _ | ⟨i, l⟩
    · cases ht
    · rcases List.mem_pair.mp ht with rfl | rfl
      · exact hword _ hkeyword
      · exact hnames (i :: l) (by simp)
  have hextends : IsWord "extends".toList := ⟨by decide, all_isNameChar_of_letters (by decide)⟩
  have himplements : IsWord "implements".toList := ⟨by decide, all_isNameChar_of_letters (by decide)⟩
  intro t ht
  rw [clauses] at ht
  split at ht
  · exact hclause _ _ hextends t ht
  · rcases List.mem_append.mp ht with hfirst | hlast
    · exact hclause _ _ hextends t hfirst
    · exact hclause _ _ himplements t hlast

/-- So does the whole header. -/
theorem forall_mem_pieces (hword : ∀ t, IsWord t → P t)
    (hnames : ∀ l : List Identifier, l ≠ [] → P (commas (l.map (·.text)))) :
    ∀ t ∈ d.modifiers.map (·.text) ++ d.kind.label.toList :: d.name.text :: d.clauses, P t := by
  intro t ht
  simp only [List.mem_append, List.mem_cons] at ht
  rcases ht with hmodifier | rfl | rfl | hclauses
  · obtain ⟨m, -, rfl⟩ := List.mem_map.mp hmodifier
    exact hword _ m.isWord
  · exact hword _ (isWord_label d.kind)
  · exact hword _ d.name.isWord
  · exact d.forall_mem_clauses hword hnames t hclauses

theorem spaced_of_mem_clauses : ∀ t ∈ d.clauses, Spaced t :=
  d.forall_mem_clauses (fun _ h => spaced_of_forall h.1 h.not_blank) fun _ => spaced_names

end Class

/-- The words of a header. -/
theorem words_headerText (d : Class) :
    words d.headerText =
      d.modifiers.map (·.text) ++ d.kind.label.toList :: d.name.text ::
        d.clauses.flatMap words := by
  have hword : ∀ {t : List Char}, IsWord t → words t = [t] := fun h =>
    words_eq_singleton h.1 h.not_blank
  have hmodifiers : (d.modifiers.map (·.text)).flatMap words = d.modifiers.map (·.text) := by
    rw [List.flatMap_map]
    exact (List.flatMap_congr fun m _ => hword m.isWord).trans (List.map_eq_flatMap ..).symm
  rw [Class.headerText, words_intercalate_space, List.flatMap_append, hmodifiers, List.flatMap_cons,
    List.flatMap_cons, hword (isWord_label d.kind), hword d.name.isWord, List.singleton_append,
    List.singleton_append]

/-- **The header of a draft is read back.** -/
theorem header_text (ids : Naming) (d : Class) :
    header ids d.headerText =
      .ok {
        type := d.name.type
        flags := bits d.modifiers ||| kindBits d.kind
        superclass := d.extended
        interfaces := ClassType.sortedSet (d.interfaces.map (·.type)) } := by
  rw [header, words_headerText, kind_text]
  simp only [bind, Except.bind, pure, Except.pure,
    intercalate_flatMap_words d.spaced_of_mem_clauses, isInterface_on_bits,
    namedClass_rootName, d.name.namedClass_text]
  rcases hinterface : d.kind.isInterface with _ | _
  · have hclauses : TextClass.clauses ([' '].intercalate d.clauses) =
        .ok (listed d.superclass.toList, listed d.interfaces) := by
      rw [Class.clauses, if_neg (by simp [hinterface]), clauses_text]
    simp only [hclauses, elim_listed, Class.extended, hinterface, Bool.false_eq_true, if_false]
    rcases d.superclass with _ | superclass
    · rfl
    · have hcomma : superclass.text.contains ',' = false := by
        simpa using superclass.not_mem (c := ',') (isNameChar_of_mem_marks (by decide))
      have hlisted : listed (some superclass).toList = some superclass.text := by
        simp [listed, commas]
      simp only [hlisted, hcomma, superclass.namedClass_text, Bool.false_eq_true, if_false]
  · have hclauses : TextClass.clauses ([' '].intercalate d.clauses) =
        .ok (listed d.interfaces, listed []) := by
      have hnone : Class.clause "implements".toList [] = [] := rfl
      rw [Class.clauses, if_pos hinterface, ← clauses_text d.interfaces [], hnone, List.append_nil]
    simp only [hclauses, elim_listed, Class.extended, hinterface, if_true, List.map_nil,
      List.append_nil]

end TextClass.Draft

end Classpath

import Classpath.Descriptor
import Classpath.Proofs.Text

/-!
# Descriptors, written and read

The notation of types against its grammar. A field descriptor is a letter for a primitive type, a
class name between `L` and `;`, or `[` before another one; a method descriptor is any number of them
in parentheses and one more, or `V`, after these. Class names are only asked to be there and to have
no `;` in them: they may have brackets and parentheses, so that a descriptor cannot be cut at these.

What makes the notation readable all the same is that no descriptor is the beginning of another one.
The scanner is therefore described with the text that follows the descriptor
(`Classpath.FieldType.scan?_eq_some`, `Classpath.MethodDescriptor.scanParams?_eq_some`), and whole
texts are the case in which nothing follows.

* `Classpath.IsFieldDescriptor`, `Classpath.IsMethodDescriptor` – the grammar.
* `Classpath.FieldType.WellNamed` – the types whose class names can be written.
* `Classpath.descriptor_grammar` – what is read, and what it is read as.
-/

namespace Classpath

/-! ### The grammar -/

/-- **Field descriptors**, as the grammar generates them. -/
inductive IsFieldDescriptor : List Char → Prop
  | primitive {c : Char} (letter : c ∈ ['B', 'C', 'D', 'F', 'I', 'J', 'S', 'Z']) :
    IsFieldDescriptor [c]
  | object {name : List Char} (nonempty : name ≠ []) (unended : ';' ∉ name) :
    IsFieldDescriptor ('L' :: (name ++ [';']))
  | array {component : List Char} (component_is : IsFieldDescriptor component) :
    IsFieldDescriptor ('[' :: component)

/-- **Method descriptors**, as the grammar generates them. -/
inductive IsMethodDescriptor : List Char → Prop
  | intro {params : List (List Char)} {result : List Char}
    (params_are : ∀ p ∈ params, IsFieldDescriptor p)
    (result_is : result = ['V'] ∨ IsFieldDescriptor result) :
    IsMethodDescriptor ('(' :: (params.flatten ++ ')' :: result))

namespace Primitive

theorem ofLetter?_letter (p : Primitive) : ofLetter? p.letter = some p := by
  cases p <;> rfl

theorem ofLetter?_eq_some {c : Char} {p : Primitive} : ofLetter? c = some p ↔ c = p.letter := by
  constructor
  · intro h
    rw [ofLetter?.eq_def] at h
    split at h <;> cases h <;> rfl
  · rintro rfl
    exact ofLetter?_letter p

theorem exists_letter_iff {c : Char} :
    (∃ p : Primitive, p.letter = c) ↔ c ∈ ['B', 'C', 'D', 'F', 'I', 'J', 'S', 'Z'] := by
  constructor
  · rintro ⟨p, rfl⟩
    cases p <;> decide
  · intro h
    simp only [List.mem_cons, List.not_mem_nil, or_false] at h
    rcases h with rfl | rfl | rfl | rfl | rfl | rfl | rfl | rfl
    exacts [⟨.byte, rfl⟩, ⟨.char, rfl⟩, ⟨.double, rfl⟩, ⟨.float, rfl⟩, ⟨.int, rfl⟩, ⟨.long, rfl⟩,
      ⟨.short, rfl⟩, ⟨.boolean, rfl⟩]

end Primitive

/-! ### Types -/

namespace FieldType

/-- The class names in the type can be written: they are not empty and have no semicolon. -/
def WellNamed : FieldType → Prop
  | primitive _ => True
  | object name => name ≠ "" ∧ ';' ∉ name.toList
  | array component => component.WellNamed

/-- **What is written is read back**, whatever follows it. -/
theorem scan?_chars {t : FieldType} (h : t.WellNamed) (rest : List Char) :
    scan? (t.chars ++ rest) = some (t, rest) := by
  induction t with
  | primitive p => cases p <;> rfl
  | object name =>
    obtain ⟨hne, hsemi⟩ := h
    obtain ⟨c, cs, hname⟩ : ∃ c cs, name.toList = c :: cs :=
      List.exists_cons_of_ne_nil fun hnil => hne (String.toList_inj.1 hnil)
    have hcut : cutAt? ';' (name.toList ++ ';' :: rest) = some (name.toList, rest) :=
      cutAt?_append hsemi rest
    rw [chars, List.cons_append, List.cons_append, List.append_assoc, List.singleton_append, scan?,
      hcut, hname]
    simp only [← hname, String.ofList_toList]
  | array component ih =>
    rw [chars, List.cons_append, scan?, ih h]
    rfl

/-- What is read was written in the text. -/
theorem of_scan?_eq_some {s rest : List Char} {t : FieldType} (h : scan? s = some (t, rest)) :
    t.WellNamed ∧ s = t.chars ++ rest := by
  fun_induction scan? s generalizing t rest with
  | case1 => cases h
  | case2 s ih =>
    obtain ⟨⟨component, r⟩, hscan, heq⟩ := Option.map_eq_some_iff.1 h
    obtain ⟨rfl, rfl⟩ := Prod.mk.inj heq
    obtain ⟨hnamed, rfl⟩ := ih hscan
    exact ⟨hnamed, rfl⟩
  | case3 s c name r hcut =>
    obtain ⟨rfl, rfl⟩ := Prod.mk.inj (Option.some.inj h)
    have hsemi : ';' ∉ c :: name := not_mem_of_cutAt?_eq_some hcut
    refine ⟨⟨?_, by rwa [String.toList_ofList]⟩, ?_⟩
    · intro hempty
      have hnil : (String.ofList (c :: name)).toList = [] := by rw [hempty]; rfl
      rw [String.toList_ofList] at hnil
      cases hnil
    · rw [eq_append_of_cutAt?_eq_some hcut, chars, String.toList_ofList]
      simp
  | case4 => cases h
  | case5 c s hbracket hclass =>
    obtain ⟨p, hp, heq⟩ := Option.map_eq_some_iff.1 h
    obtain ⟨rfl, rfl⟩ := Prod.mk.inj heq
    rw [Primitive.ofLetter?_eq_some.1 hp]
    exact ⟨trivial, rfl⟩

theorem scan?_eq_some {s rest : List Char} {t : FieldType} :
    scan? s = some (t, rest) ↔ t.WellNamed ∧ s = t.chars ++ rest := by
  constructor
  · exact of_scan?_eq_some
  · rintro ⟨h, rfl⟩
    exact scan?_chars h rest

theorem ofChars?_eq_some {s : List Char} {t : FieldType} :
    ofChars? s = some t ↔ t.WellNamed ∧ t.chars = s := by
  have hscan : ofChars? s = some t ↔ scan? s = some (t, []) := by
    rw [ofChars?]
    split
    · rename_i u hu
      rw [hu, Option.some_inj, Option.some_inj, Prod.mk.injEq]
      simp
    · rename_i hrest
      constructor
      · intro h
        cases h
      · intro h
        exact (hrest t h).elim
  rw [hscan, scan?_eq_some, List.append_nil, eq_comm (a := s)]

theorem ofText?_eq_some {s : String} {t : FieldType} :
    ofText? s = some t ↔ t.WellNamed ∧ t.text = s := by
  rw [ofText?, ofChars?_eq_some, text, String.ext_iff, String.toList_ofList]

/-- **The grammar generates what is written for types.** -/
theorem isFieldDescriptor_iff {s : List Char} :
    IsFieldDescriptor s ↔ ∃ t : FieldType, t.WellNamed ∧ t.chars = s := by
  constructor
  · intro h
    induction h with
    | @primitive c hc =>
      obtain ⟨p, rfl⟩ := Primitive.exists_letter_iff.2 hc
      exact ⟨.primitive p, trivial, rfl⟩
    | @object name hne hsemi =>
      refine ⟨.object (String.ofList name), ⟨?_, by rwa [String.toList_ofList]⟩, ?_⟩
      · rw [← String.toList_inj.ne, String.toList_ofList]
        exact hne
      · rw [chars, String.toList_ofList]
        rfl
    | @array component _ ih =>
      obtain ⟨t, ht, rfl⟩ := ih
      exact ⟨.array t, ht, rfl⟩
  · rintro ⟨t, ht, rfl⟩
    induction t with
    | primitive p => exact .primitive (Primitive.exists_letter_iff.1 ⟨p, rfl⟩)
    | object name =>
      exact .object (fun h => ht.1 (String.toList_inj.1 h)) ht.2
    | array component ih => exact .array (ih ht)

theorem parse_eq_ok {s : String} {t : FieldType} :
    parse s = .ok t ↔ t.WellNamed ∧ t.text = s := by
  rw [← ofText?_eq_some, parse]
  cases ofText? s <;> simp

/-- Types whose class names can be written are told apart by their descriptors. -/
theorem text_inj {t u : FieldType} (ht : t.WellNamed) (hu : u.WellNamed) :
    t.text = u.text ↔ t = u := by
  refine ⟨fun h => ?_, congrArg _⟩
  have hparse : parse t.text = .ok u := parse_eq_ok.mpr ⟨hu, h.symm⟩
  exact Except.ok.inj ((parse_eq_ok.mpr ⟨ht, rfl⟩).symm.trans hparse)

theorem exists_parse_eq_ok {s : String} :
    (∃ t, parse s = .ok t) ↔ IsFieldDescriptor s.toList := by
  simp only [parse_eq_ok, isFieldDescriptor_iff, text, String.ext_iff, String.toList_ofList]

/-- There is one complaint. -/
theorem parse_eq_error {s : String} (h : ¬∃ t, parse s = .ok t) :
    parse s = .error ⟨.badDescriptor s, none⟩ := by
  rw [parse] at h ⊢
  split
  · rename_i t ht
    exact (h ⟨t, by rw [ht]⟩).elim
  · rfl

end FieldType

/-! ### Methods -/

namespace MethodDescriptor

/-- The class names in the signature can be written. -/
def WellNamed (m : MethodDescriptor) : Prop :=
  (∀ t ∈ m.params, t.WellNamed) ∧ ∀ t ∈ m.result, t.WellNamed

/-- The text of a type is not mistaken for the end of the parameters. -/
theorem chars_append_ne (t : FieldType) (rest s : List Char) : t.chars ++ rest ≠ ')' :: s := by
  intro h
  have hhead : (t.chars ++ rest).head? = some ')' := by rw [h]; rfl
  cases t with
  | primitive p => cases p <;> cases hhead
  | object name => cases hhead
  | array component => cases hhead

/-- Without a parenthesis in front there is a type. -/
theorem scanParams?_eq_bind {s : List Char} (h : ∀ rest, s ≠ ')' :: rest) :
    scanParams? s = (FieldType.scan? s).bind fun x =>
      (scanParams? x.2).map fun y => (x.1 :: y.1, y.2) := by
  rw [scanParams?.eq_2 s h]
  split
  · rename_i hscan
    rw [hscan, Option.bind_none]
  · rename_i hscan
    rw [hscan, Option.bind_some]

/-- Parameters that are written are read back, up to the parenthesis after them. -/
theorem scanParams?_chars {ts : List FieldType} (h : ∀ t ∈ ts, t.WellNamed) (rest : List Char) :
    scanParams? (ts.flatMap FieldType.chars ++ ')' :: rest) = some (ts, rest) := by
  induction ts with
  | nil => rw [List.flatMap_nil, List.nil_append, scanParams?]
  | cons t ts ih =>
    obtain ⟨ht, hts⟩ := List.forall_mem_cons.1 h
    rw [List.flatMap_cons, List.append_assoc, scanParams?_eq_bind (chars_append_ne t _),
      FieldType.scan?_chars ht, Option.bind_some, ih hts]
    rfl

/-- Parameters that are read were written in the text, with a parenthesis after them. -/
theorem of_scanParams?_eq_some {s rest : List Char} {ts : List FieldType}
    (h : scanParams? s = some (ts, rest)) :
    (∀ t ∈ ts, t.WellNamed) ∧ s = ts.flatMap FieldType.chars ++ ')' :: rest := by
  induction hn : s.length using Nat.strong_induction_on generalizing s ts rest with
  | _ n ih =>
    subst hn
    by_cases hparen : ∃ tail, s = ')' :: tail
    · obtain ⟨tail, rfl⟩ := hparen
      rw [scanParams?] at h
      obtain ⟨rfl, rfl⟩ := Prod.mk.inj (Option.some.inj h)
      exact ⟨by simp, rfl⟩
    · rw [scanParams?_eq_bind fun tail h => hparen ⟨tail, h⟩] at h
      obtain ⟨⟨t, tail⟩, hscan, h⟩ := Option.bind_eq_some_iff.1 h
      obtain ⟨⟨us, r⟩, hus, heq⟩ := Option.map_eq_some_iff.1 h
      obtain ⟨rfl, rfl⟩ := Prod.mk.inj heq
      obtain ⟨hnamed, htail⟩ := ih _ (FieldType.scan?_length_lt hscan) hus rfl
      obtain ⟨ht, rfl⟩ := FieldType.scan?_eq_some.1 hscan
      refine ⟨List.forall_mem_cons.2 ⟨ht, hnamed⟩, ?_⟩
      rw [List.flatMap_cons, List.append_assoc, ← htail]

/-- **Parameters end at the first parenthesis that a type cannot begin with**, whatever stands in
the class names before it. -/
theorem scanParams?_eq_some {s rest : List Char} {ts : List FieldType} :
    scanParams? s = some (ts, rest) ↔
      (∀ t ∈ ts, t.WellNamed) ∧ s = ts.flatMap FieldType.chars ++ ')' :: rest := by
  constructor
  · exact of_scanParams?_eq_some
  · rintro ⟨h, rfl⟩
    exact scanParams?_chars h rest

/-- A method is read as its parameters and, after these, its result. -/
theorem ofChars?_eq_some_iff_scan {s : List Char} {m : MethodDescriptor} :
    ofChars? s = some m ↔ ∃ tail rest, s = '(' :: tail ∧
      scanParams? tail = some (m.params, rest) ∧
      (rest = ['V'] ∧ m.result = none ∨
        ∃ t, FieldType.ofChars? rest = some t ∧ m.result = some t) := by
  obtain ⟨params, result⟩ := m
  rw [ofChars?.eq_def]
  split
  · rename_i tail
    split
    · rename_i hscan
      simp [hscan]
    · rename_i ts hscan
      have hnone : FieldType.ofChars? ['V'] = none := rfl
      simp [hscan, hnone, eq_comm]
    · rename_i ts rest hvoid hscan
      constructor
      · intro h
        obtain ⟨t, ht, heq⟩ := Option.map_eq_some_iff.1 h
        obtain ⟨rfl, rfl⟩ := MethodDescriptor.mk.inj heq
        exact ⟨tail, rest, rfl, hscan, .inr ⟨t, ht, rfl⟩⟩
      · rintro ⟨_, rest', ⟨⟩, hscan', hresult⟩
        obtain ⟨rfl, rfl⟩ := Prod.mk.inj (Option.some.inj (hscan.symm.trans hscan'))
        obtain ⟨rfl, -⟩ | ⟨t, ht, rfl⟩ := hresult
        · exact (hvoid rfl).elim
        · rw [ht]
          rfl
  · rename_i hs
    constructor
    · intro h
      cases h
    · rintro ⟨tail, rest, rfl, -⟩
      exact (hs tail rfl).elim

/-- **A whole text is a signature just if it is the one that is written for it.** -/
theorem ofChars?_eq_some {s : List Char} {m : MethodDescriptor} :
    ofChars? s = some m ↔ m.WellNamed ∧ m.chars = s := by
  obtain ⟨params, result⟩ := m
  simp only [ofChars?_eq_some_iff_scan, scanParams?_eq_some, FieldType.ofChars?_eq_some]
  constructor
  · rintro ⟨_, rest, rfl, ⟨hparams, rfl⟩, ⟨rfl, rfl⟩ | ⟨t, ⟨ht, rfl⟩, rfl⟩⟩
    · exact ⟨⟨hparams, by simp⟩, rfl⟩
    · exact ⟨⟨hparams, by simpa using ht⟩, rfl⟩
  · rintro ⟨⟨hparams, hresult⟩, rfl⟩
    refine ⟨_, _, rfl, ⟨hparams, rfl⟩, ?_⟩
    cases result with
    | none => exact .inl ⟨rfl, rfl⟩
    | some t => exact .inr ⟨t, ⟨hresult t rfl, rfl⟩, rfl⟩

theorem parse_eq_ok {s : String} {m : MethodDescriptor} :
    parse s = .ok m ↔ m.WellNamed ∧ m.text = s := by
  have htext : ofText? s = some m ↔ m.WellNamed ∧ m.text = s := by
    rw [ofText?, ofChars?_eq_some, text, String.ext_iff, String.toList_ofList]
  rw [← htext, parse]
  cases ofText? s <;> simp

/-- **The grammar generates what is written for signatures.** -/
theorem isMethodDescriptor_iff {s : List Char} :
    IsMethodDescriptor s ↔ ∃ m : MethodDescriptor, m.WellNamed ∧ m.chars = s := by
  constructor
  · rintro @⟨params, result, hparams, hresult⟩
    obtain ⟨ts, hts, rfl⟩ : ∃ ts : List FieldType, (∀ t ∈ ts, t.WellNamed) ∧
        ts.map FieldType.chars = params := by
      induction params with
      | nil => exact ⟨[], by simp, rfl⟩
      | cons p ps ih =>
        obtain ⟨hp, hps⟩ := List.forall_mem_cons.1 hparams
        obtain ⟨t, ht, rfl⟩ := FieldType.isFieldDescriptor_iff.1 hp
        obtain ⟨ts, hts, rfl⟩ := ih hps
        exact ⟨t :: ts, List.forall_mem_cons.2 ⟨ht, hts⟩, rfl⟩
    rw [← List.flatMap_def]
    obtain rfl | hresult := hresult
    · exact ⟨⟨ts, none⟩, ⟨hts, by simp⟩, rfl⟩
    · obtain ⟨t, ht, rfl⟩ := FieldType.isFieldDescriptor_iff.1 hresult
      exact ⟨⟨ts, some t⟩, ⟨hts, by simpa using ht⟩, rfl⟩
  · rintro ⟨⟨ts, result⟩, ⟨hts, hresult⟩, rfl⟩
    rw [chars, List.flatMap_def]
    refine .intro ?_ ?_
    · intro p hp
      obtain ⟨t, ht, rfl⟩ := List.mem_map.1 hp
      exact FieldType.isFieldDescriptor_iff.2 ⟨t, hts t ht, rfl⟩
    · cases result with
      | none => exact .inl rfl
      | some t => exact .inr (FieldType.isFieldDescriptor_iff.2 ⟨t, hresult t rfl, rfl⟩)

theorem exists_parse_eq_ok {s : String} :
    (∃ m, parse s = .ok m) ↔ IsMethodDescriptor s.toList := by
  simp only [parse_eq_ok, isMethodDescriptor_iff, text, String.ext_iff, String.toList_ofList]

/-- There is one complaint. -/
theorem parse_eq_error {s : String} (h : ¬∃ m, parse s = .ok m) :
    parse s = .error ⟨.badDescriptor s, none⟩ := by
  rw [parse] at h ⊢
  split
  · rename_i m hm
    exact (h ⟨m, by rw [hm]⟩).elim
  · rfl

end MethodDescriptor

/-! ### Texts -/

/-- **Descriptors are what the grammar generates.** A text is read as a type just if the grammar of
field descriptors generates it, and as a signature just if that of method descriptors does. What is
read is written as the text that it was read from, and what is written is read back, if its class
names can be written. Any other text is refused, with the text as it stands. -/
theorem descriptor_grammar :
    (∀ d, (∃ t, FieldType.parse d = .ok t) ↔ IsFieldDescriptor d.toList) ∧
    (∀ d t, FieldType.parse d = .ok t → t.WellNamed ∧ t.text = d) ∧
    (∀ t : FieldType, t.WellNamed → FieldType.parse t.text = .ok t) ∧
    (∀ d, ¬IsFieldDescriptor d.toList →
      FieldType.parse d = .error ⟨.badDescriptor d, none⟩) ∧
    (∀ d, (∃ m, MethodDescriptor.parse d = .ok m) ↔ IsMethodDescriptor d.toList) ∧
    (∀ d m, MethodDescriptor.parse d = .ok m → m.WellNamed ∧ m.text = d) ∧
    (∀ m : MethodDescriptor, m.WellNamed → MethodDescriptor.parse m.text = .ok m) ∧
    ∀ d, ¬IsMethodDescriptor d.toList →
      MethodDescriptor.parse d = .error ⟨.badDescriptor d, none⟩ := by
  refine ⟨fun d => ?_, fun d t h => ?_, fun t h => ?_, fun d h => ?_, fun d => ?_, fun d m h => ?_,
    fun m h => ?_, fun d h => ?_⟩
  · exact FieldType.exists_parse_eq_ok
  · exact FieldType.parse_eq_ok.1 h
  · exact FieldType.parse_eq_ok.2 ⟨h, rfl⟩
  · exact FieldType.parse_eq_error fun ht => h (FieldType.exists_parse_eq_ok.1 ht)
  · exact MethodDescriptor.exists_parse_eq_ok
  · exact MethodDescriptor.parse_eq_ok.1 h
  · exact MethodDescriptor.parse_eq_ok.2 ⟨h, rfl⟩
  · exact MethodDescriptor.parse_eq_error fun hm => h (MethodDescriptor.exists_parse_eq_ok.1 hm)

-- a class name may have brackets and parentheses in it
example :
    MethodDescriptor.parse "([La[)/B;I)V" =
      .ok ⟨[.array (.object "a[)/B"), .primitive .int], none⟩ := by
  cbv

end Classpath

import Classpath.Proofs.ClassFile.Constants

/-!
# Annotations, written and read

The reader of annotation values against their layout. The reader is bounded by the number of bytes
that are left, and so is the statement about it: a value of at most `n` bytes is read with the bound
`n`, because the values that it nests have fewer bytes, the one of its tag being spent. So the
induction on the bound needs no measure of how deep a value nests.

* `Classpath.ClassFile.invertsUpTo_elementValueStep` – one level of a value, by its tag.
* `Classpath.ClassFile.invertsUpTo_elementValueWithin` – values, by that induction.
* `Classpath.ClassFile.inverts_readElementValue`, `Classpath.ClassFile.inverts_readAnnotations` –
  values and tables of annotations.
-/

namespace Classpath.ClassFile

open Reader

/-! ### Values and their elements as lists -/

namespace RawValue

theorem elementsBytes_eq (elements : List (UInt16 × RawValue)) :
    elementsBytes elements = elements.flatMap fun e => indexBytes e.1 ++ e.2.bytes := by
  induction elements with
  | nil => rfl
  | cons e es ih => rw [elementsBytes, ih, List.flatMap_cons]

theorem valuesBytes_eq (values : List RawValue) : valuesBytes values = values.flatMap bytes := by
  induction values with
  | nil => rfl
  | cons v vs ih => rw [valuesBytes, ih, List.flatMap_cons]

/-- An element with its indices followed. -/
def resolveElement? (constants : List RawConstant) (e : UInt16 × RawValue) :
    Option (String × ElementValue String) := do
  return (← text? constants e.1, ← e.2.resolve? constants)

theorem resolveElements?_eq (constants : List RawConstant) (elements : List (UInt16 × RawValue)) :
    resolveElements? constants elements = elements.mapM (resolveElement? constants) := by
  induction elements with
  | nil => rfl
  | cons e es ih =>
    simp [resolveElements?, ih, resolveElement?, Option.bind_assoc]

theorem resolveValues?_eq (constants : List RawConstant) (values : List RawValue) :
    resolveValues? constants values = values.mapM (resolve? constants) := by
  induction values with
  | nil => rfl
  | cons v vs ih => rw [resolveValues?, ih, List.mapM_cons]

/-- The byte of the tag. -/
theorem bytes_ne_nil (v : RawValue) : v.bytes ≠ [] := by
  cases v <;> simp [bytes]

end RawValue

/-! ### Tags -/

/-- A tag is known by the character with its code. -/
theorem eq_of_char {tag byte : UInt8} {c : Char} (h : Char.ofNat tag.toNat = c)
    (hc : c.toNat = byte.toNat) : tag = byte := by
  have hlt := tag.toNat_lt
  have hvalid : tag.toNat.isValidChar := .inl (by omega)
  have htag : (Char.ofNat tag.toNat).toNat = tag.toNat := by
    rw [Char.ofNat, dif_pos hvalid]
    rfl
  exact UInt8.toNat_inj.1 (by rw [← htag, h, hc])

theorem ConstantTag.eq_byteTag {tag : UInt8} {kind : ConstantTag}
    (h : ConstantTag.ofChar? (Char.ofNat tag.toNat) = some kind) : tag = kind.byteTag := by
  rw [ConstantTag.ofChar?.eq_def] at h
  split at h
  case h_10 => cases h
  all_goals
    rename_i hc
    cases h
    exact eq_of_char hc rfl

/-! ### Annotations -/

section Annotations

variable {pool : ConstantPool} {constants : List RawConstant} {n : Nat}
  {value : Reader (ElementValue String)}

/-- The reader of an element: its name and its value. -/
def elementOf (pool : ConstantPool) (value : Reader (ElementValue String)) :
    Reader (String × ElementValue String) := do
  let name ← Reader.reference pool.utf8
  return (name, ← value)

theorem streams_elementOf (hs : value.Streams) : (elementOf pool value).Streams :=
  (streams_reference _).bind fun _ => hs.bind fun _ => (still_pure _).streams

/-- An annotation is its type and a table of its elements. -/
theorem annotationOf_eq : annotationOf pool value =
    (reference (objectType pool) >>= fun type => readTable (elementOf pool value) >>=
      fun elements => pure ⟨type, elements⟩) := by
  funext s
  simp only [annotationOf, readTable, Reader.bind_assoc]
  rfl

theorem invertsUpTo_elementOf (h : pool.Denotes constants) (hs : value.Streams)
    (hv : InvertsUpTo n value RawValue.Fits RawValue.bytes (RawValue.resolve? constants)) :
    InvertsUpTo n (elementOf pool value) (fun e => e.2.Fits)
      (fun e => indexBytes e.1 ++ e.2.bytes) (RawValue.resolveElement? constants) := by
  intro o front a hn
  simp only [elementOf, writes_bind (streams_reference _), writes_bind hs, writes_reference,
    writes_pure, h.utf8_eq_ok]
  constructor
  · rintro ⟨name, _, _, rfl, ⟨i, rfl, hname⟩, v, f, _, rfl, hw, rfl, rfl⟩
    rw [List.append_nil, List.length_append] at hn
    obtain ⟨x, hx, rfl, hres⟩ := (hv _ f v (by omega)).1 hw
    exact ⟨(i, x), hx, by rw [List.append_nil], by simp [RawValue.resolveElement?, hname, hres]⟩
  · rintro ⟨⟨i, x⟩, hx, rfl, hres⟩
    dsimp only at hx hn
    rw [List.length_append] at hn
    obtain ⟨name, hname, v, hv', rfl⟩ : ∃ name, text? constants i = some name ∧
        ∃ v, x.resolve? constants = some v ∧ (name, v) = a := by
      simpa [RawValue.resolveElement?, Option.bind_eq_some_iff] using hres
    exact ⟨name, _, x.bytes, rfl, ⟨i, rfl, hname⟩, v, x.bytes, [], (List.append_nil _).symm,
      (hv _ _ v (by omega)).2 ⟨x, hx, rfl, hv'⟩, rfl, rfl⟩

/-- **Annotations** are read as they are laid out, if their values are. -/
theorem invertsUpTo_annotationOf (h : pool.Denotes constants) (hs : value.Streams)
    (hv : InvertsUpTo n value RawValue.Fits RawValue.bytes (RawValue.resolve? constants)) :
    InvertsUpTo n (annotationOf pool value) RawAnnotationUse.Fits RawAnnotationUse.bytes
      (RawAnnotationUse.resolve? constants) := by
  have htable := (invertsUpTo_elementOf h hs hv).table (streams_elementOf hs)
  intro o front a hn
  rw [annotationOf_eq]
  simp only [writes_bind (streams_reference _), writes_reference, h.objectType_eq_ok,
    writes_bind (streams_readTable (streams_elementOf hs)), writes_pure]
  constructor
  · rintro ⟨type, _, _, rfl, ⟨i, rfl, htype⟩, elements, f, _, rfl, hw, rfl, rfl⟩
    rw [List.append_nil, List.length_append] at hn
    obtain ⟨es, hes, rfl, hres⟩ := (htable _ f elements (by omega)).1 hw
    refine ⟨⟨i, es⟩, hes, ?_, ?_⟩
    · rw [RawAnnotationUse.bytes, RawValue.elementsBytes_eq, List.append_nil, tableBytes]
    · simp [RawAnnotationUse.resolve?, htype, RawValue.resolveElements?_eq, hres]
  · rintro ⟨⟨i, es⟩, hes, rfl, hres⟩
    simp only [RawAnnotationUse.bytes, RawValue.elementsBytes_eq, ← tableBytes.eq_1] at hn ⊢
    rw [List.length_append] at hn
    obtain ⟨type, htype, elements, helements, rfl⟩ : ∃ type, objectName? constants i = some type ∧
        ∃ elements, es.mapM (RawValue.resolveElement? constants) = some elements ∧
          ⟨type, elements⟩ = a := by
      simpa [RawAnnotationUse.resolve?, RawValue.resolveElements?_eq, Option.bind_eq_some_iff]
        using hres
    exact ⟨type, _, _, rfl, ⟨i, rfl, htype⟩, elements, _, [], (List.append_nil _).symm,
      (htable _ _ elements (by omega)).2 ⟨es, hes, rfl, helements⟩, rfl, rfl⟩

end Annotations

/-! ### Values -/

/-- An array is laid out as a table. -/
theorem RawValue.bytes_array (values : List RawValue) :
    (RawValue.array values).bytes = 0x5B :: tableBytes RawValue.bytes values := by
  rw [RawValue.bytes, RawValue.valuesBytes_eq, tableBytes]

/-- A nested annotation resolves as it would by itself. -/
theorem RawValue.resolve?_nested (constants : List RawConstant) (type : UInt16)
    (elements : List (UInt16 × RawValue)) :
    (RawValue.nested type elements).resolve? constants =
      ((⟨type, elements⟩ : RawAnnotationUse).resolve? constants).map
        fun a => .nested a.type a.elements := by
  rw [RawValue.resolve?, RawAnnotationUse.resolve?]
  rcases objectName? constants type with _ | name
  · rfl
  · rcases RawValue.resolveElements? constants elements with _ | es <;> rfl

section Values

variable {pool : ConstantPool} {constants : List RawConstant} {o n : Nat} {g : Bytes}
  {v : ElementValue String} {value : Reader (ElementValue String)}

/-! ### What follows a tag -/

/-- A constant is an index. -/
theorem writes_constantBody (h : pool.Denotes constants) (kind : ConstantTag) :
    (reference (constantAt pool kind) >>= fun c =>
      (pure (.const c) : Reader (ElementValue String))).Writes o g v ↔
      ∃ i, indexBytes i = g ∧ (RawValue.const kind i).resolve? constants = some v := by
  simp only [writes_bind (streams_reference _), writes_reference, writes_pure, h.constantAt_eq_ok]
  constructor
  · rintro ⟨c, _, _, rfl, ⟨i, rfl, hc⟩, rfl, rfl⟩
    exact ⟨i, by rw [List.append_nil], by rw [RawValue.resolve?, hc, Option.map_some]⟩
  · rintro ⟨i, rfl, hres⟩
    obtain ⟨c, hc, rfl⟩ := Option.map_eq_some_iff.1 hres
    exact ⟨c, _, [], (List.append_nil _).symm, ⟨i, rfl, hc⟩, rfl, rfl⟩

/-- An enum constant is the index of its type and that of its name. -/
theorem writes_enumConstantBody (h : pool.Denotes constants) :
    (reference (objectType pool) >>= fun t => reference pool.utf8 >>= fun c =>
      (pure (.enumConstant t c) : Reader (ElementValue String))).Writes o g v ↔
      ∃ i j, indexBytes i ++ indexBytes j = g ∧
        (RawValue.enumConstant i j).resolve? constants = some v := by
  simp only [writes_bind (streams_reference _), writes_reference, writes_pure, h.objectType_eq_ok,
    h.utf8_eq_ok]
  constructor
  · rintro ⟨t, _, _, rfl, ⟨i, rfl, ht⟩, c, _, _, rfl, ⟨j, rfl, hc⟩, rfl, rfl⟩
    exact ⟨i, j, by rw [List.append_nil], by simp [RawValue.resolve?, ht, hc]⟩
  · rintro ⟨i, j, rfl, hres⟩
    obtain ⟨t, ht, c, hc, rfl⟩ : ∃ t, objectName? constants i = some t ∧
        ∃ c, text? constants j = some c ∧ .enumConstant t c = v := by
      simpa [RawValue.resolve?, Option.bind_eq_some_iff] using hres
    exact ⟨t, _, _, rfl, ⟨i, rfl, ht⟩, c, _, [], (List.append_nil _).symm, ⟨j, rfl, hc⟩, rfl, rfl⟩

/-- A class literal is an index. -/
theorem writes_classLiteralBody (h : pool.Denotes constants) :
    (reference pool.utf8 >>= fun t =>
      (pure (.classLiteral t) : Reader (ElementValue String))).Writes o g v ↔
      ∃ i, indexBytes i = g ∧ (RawValue.classLiteral i).resolve? constants = some v := by
  simp only [writes_bind (streams_reference _), writes_reference, writes_pure, h.utf8_eq_ok]
  constructor
  · rintro ⟨t, _, _, rfl, ⟨i, rfl, ht⟩, rfl, rfl⟩
    exact ⟨i, by rw [List.append_nil], by simp [RawValue.resolve?, ht]⟩
  · rintro ⟨i, rfl, hres⟩
    obtain ⟨t, ht, rfl⟩ := Option.map_eq_some_iff.1 hres
    exact ⟨t, _, [], (List.append_nil _).symm, ⟨i, rfl, ht⟩, rfl, rfl⟩

/-- A nested annotation is an annotation. -/
theorem writes_nestedBody (h : pool.Denotes constants) (hs : value.Streams)
    (hv : InvertsUpTo n value RawValue.Fits RawValue.bytes (RawValue.resolve? constants))
    (hg : g.length ≤ n) :
    (annotationOf pool value >>= fun a =>
      (pure (.nested a.type a.elements) : Reader (ElementValue String))).Writes o g v ↔
      ∃ a : RawAnnotationUse, a.Fits ∧ a.bytes = g ∧
        (RawValue.nested a.type a.elements).resolve? constants = some v := by
  simp only [writes_bind (streams_annotationOf hs), writes_pure, RawValue.resolve?_nested]
  constructor
  · rintro ⟨a, f, _, rfl, ha, rfl, rfl⟩
    rw [List.append_nil] at hg ⊢
    obtain ⟨x, hx, rfl, hres⟩ := (invertsUpTo_annotationOf h hs hv _ f a hg).1 ha
    exact ⟨x, hx, rfl, by rw [hres, Option.map_some]⟩
  · rintro ⟨x, hx, rfl, hres⟩
    obtain ⟨a, ha, rfl⟩ := Option.map_eq_some_iff.1 hres
    exact ⟨a, _, [], (List.append_nil _).symm,
      (invertsUpTo_annotationOf h hs hv _ _ a hg).2 ⟨x, hx, rfl, ha⟩, rfl, rfl⟩

/-- An array is a table of its values. -/
theorem writes_arrayBody (hs : value.Streams)
    (hv : InvertsUpTo n value RawValue.Fits RawValue.bytes (RawValue.resolve? constants))
    (hg : g.length ≤ n) :
    (u16 >>= fun count => value.times count.toNat >>= fun vs =>
      (pure (.array vs) : Reader (ElementValue String))).Writes o g v ↔
      ∃ xs : List RawValue, (xs.length < 2 ^ 16 ∧ ∀ x ∈ xs, x.Fits) ∧
        tableBytes RawValue.bytes xs = g ∧ (RawValue.array xs).resolve? constants = some v := by
  have htable : (u16 >>= fun count => value.times count.toNat >>= fun vs =>
      (pure (.array vs) : Reader (ElementValue String))) =
      readTable value >>= fun vs => pure (.array vs) := by
    rw [readTable, Reader.bind_assoc]
  simp only [htable, writes_bind (streams_readTable hs), writes_pure, RawValue.resolve?,
    RawValue.resolveValues?_eq]
  constructor
  · rintro ⟨vs, f, _, rfl, hvs, rfl, rfl⟩
    rw [List.append_nil] at hg ⊢
    obtain ⟨xs, hxs, rfl, hres⟩ := (hv.table hs _ f vs hg).1 hvs
    exact ⟨xs, hxs, rfl, by rw [hres, Option.map_some]⟩
  · rintro ⟨xs, hxs, rfl, hres⟩
    obtain ⟨vs, hvs, rfl⟩ := Option.map_eq_some_iff.1 hres
    exact ⟨vs, _, [], (List.append_nil _).symm, (hv.table hs _ _ vs hg).2 ⟨xs, hxs, rfl, hvs⟩, rfl,
      rfl⟩

/-! ### Values as a whole -/

/-- **A value is read as it is laid out**, if the values that it nests are. They have fewer bytes,
the one of the tag being spent. -/
theorem invertsUpTo_elementValueStep (h : pool.Denotes constants) (hs : value.Streams)
    (hv : InvertsUpTo n value RawValue.Fits RawValue.bytes (RawValue.resolve? constants)) :
    InvertsUpTo (n + 1) (elementValueStep pool value) RawValue.Fits RawValue.bytes
      (RawValue.resolve? constants) := by
  intro o front v hn
  simp only [elementValueStep, writes_bind still_offset.streams, writes_bind streams_u8,
    writes_offset, writes_u8]
  constructor
  · rintro ⟨_, _, _, rfl, ⟨rfl, rfl⟩, tag, _, g, rfl, rfl, hw⟩
    rw [List.nil_append, List.singleton_append] at hn ⊢
    have hg : g.length ≤ n := Nat.le_of_succ_le_succ hn
    split at hw
    case h_1 htag =>
      obtain rfl : tag = 0x65 := eq_of_char htag rfl
      obtain ⟨i, j, rfl, hres⟩ := (writes_enumConstantBody h).1 hw
      exact ⟨.enumConstant i j, .enumConstant i j, rfl, hres⟩
    case h_2 htag =>
      obtain rfl : tag = 0x63 := eq_of_char htag rfl
      obtain ⟨i, rfl, hres⟩ := (writes_classLiteralBody h).1 hw
      exact ⟨.classLiteral i, .classLiteral i, rfl, hres⟩
    case h_3 htag =>
      obtain rfl : tag = 0x40 := eq_of_char htag rfl
      obtain ⟨⟨type, es⟩, ⟨hlength, hes⟩, rfl, hres⟩ := (writes_nestedBody h hs hv hg).1 hw
      exact ⟨.nested type es, .nested type hlength hes, rfl, hres⟩
    case h_4 htag =>
      obtain rfl : tag = 0x5B := eq_of_char htag rfl
      obtain ⟨xs, ⟨hlength, hxs⟩, rfl, hres⟩ := (writes_arrayBody hs hv hg).1 hw
      exact ⟨.array xs, .array hlength hxs, RawValue.bytes_array xs, hres⟩
    case h_5 =>
      split at hw
      case h_1 kind hkind =>
        obtain rfl := ConstantTag.eq_byteTag hkind
        obtain ⟨i, rfl, hres⟩ := (writes_constantBody h kind).1 hw
        exact ⟨.const kind i, .const kind i, rfl, hres⟩
      case h_2 => exact (writes_fail.1 hw).elim
  · rintro ⟨x, hx, rfl, hres⟩
    cases hx with
    | const kind i =>
      have hw := (writes_constantBody (o := o + 1) h kind).2 ⟨i, rfl, hres⟩
      refine ⟨o, [], _, rfl, ⟨rfl, rfl⟩, kind.byteTag, _, indexBytes i, rfl, rfl, ?_⟩
      cases kind <;> exact hw
    | enumConstant i j =>
      exact ⟨o, [], _, rfl, ⟨rfl, rfl⟩, 0x65, _, _, rfl, rfl,
        (writes_enumConstantBody h).2 ⟨i, j, rfl, hres⟩⟩
    | classLiteral i =>
      exact ⟨o, [], _, rfl, ⟨rfl, rfl⟩, 0x63, _, _, rfl, rfl,
        (writes_classLiteralBody h).2 ⟨i, rfl, hres⟩⟩
    | @nested type es hlength hes =>
      exact ⟨o, [], _, rfl, ⟨rfl, rfl⟩, 0x40, _, _, rfl, rfl,
        (writes_nestedBody h hs hv (Nat.le_of_succ_le_succ hn)).2
          ⟨⟨type, es⟩, ⟨hlength, hes⟩, rfl, hres⟩⟩
    | @array xs hlength hxs =>
      rw [RawValue.bytes_array] at hn ⊢
      exact ⟨o, [], _, rfl, ⟨rfl, rfl⟩, 0x5B, _, _, rfl, rfl,
        (writes_arrayBody hs hv (Nat.le_of_succ_le_succ hn)).2 ⟨xs, ⟨hlength, hxs⟩, rfl, hres⟩⟩

/-- **Values of at most `n` bytes are read as they are laid out** with the bound `n` on nesting. -/
theorem invertsUpTo_elementValueWithin (h : pool.Denotes constants) (n : Nat) :
    InvertsUpTo n (elementValueWithin pool n) RawValue.Fits RawValue.bytes
      (RawValue.resolve? constants) := by
  induction n with
  | zero =>
    intro o front v hn
    simp only [elementValueWithin, writes_bind still_offset.streams, writes_fail, and_false,
      exists_false, false_iff]
    rintro ⟨x, -, rfl, -⟩
    exact x.bytes_ne_nil (List.length_eq_zero_iff.1 (Nat.le_zero.1 hn))
  | succ n ih => exact invertsUpTo_elementValueStep h (streams_elementValueWithin n) ih

/-- **Values are read as they are laid out.** -/
theorem inverts_readElementValue (h : pool.Denotes constants) :
    Inverts (readElementValue pool) RawValue.Fits RawValue.bytes (RawValue.resolve? constants) :=
  fun o front v => (writes_readElementValue le_rfl).trans
    (invertsUpTo_elementValueWithin h front.length o front v le_rfl)

/-- A class literal is the text that it refers to. -/
theorem writes_classLiteral (h : pool.Denotes constants) {i : UInt16} {d : String}
    (hd : text? constants i = some d) (o : Nat) :
    (readElementValue pool).Writes o (RawValue.classLiteral i).bytes (.classLiteral d) := by
  refine (inverts_readElementValue h o _ _).mpr ⟨.classLiteral i, .classLiteral i, rfl, ?_⟩
  rw [RawValue.resolve?, hd]
  rfl

/-- **Tables of annotations are read as they are laid out.** -/
theorem inverts_readAnnotations (h : pool.Denotes constants) :
    Inverts (readAnnotations pool)
      (fun as => as.length < 2 ^ 16 ∧ ∀ a ∈ as, RawAnnotationUse.Fits a)
      (tableBytes RawAnnotationUse.bytes) (List.mapM (RawAnnotationUse.resolve? constants)) :=
  Inverts.table (streams_annotationOf streams_readElementValue) <| inverts_of_upTo fun n =>
    invertsUpTo_annotationOf h streams_readElementValue ((inverts_readElementValue h).upTo n)

end Values

end Classpath.ClassFile

import Classpath.Proofs.ClassFile.Elements
import Classpath.Proofs.Descriptor
import Mathlib.Algebra.GroupWithZero.Nat
import Mathlib.Logic.Function.Iterate

/-!
# Annotations nest no deeper than they have bytes

Annotations hold values, and values hold annotations and arrays of values, to any depth. Every level
begins with the byte of a tag, so the bytes that are left bound how deep the reading can go, across
both kinds of nesting at once: the recursion unrolled once more than there are bytes gives the
result of reading, whatever is put in the place of the calls below
(`Classpath.ClassFile.iterate_elementValueStep`).

What is read is bounded too. Everything that is produced takes three bytes of its own, and whatever
is named as the type of an annotation or of an enum constant, at any depth, is a class whose
descriptor is a text of the pool.

* `Classpath.ElementValue.types`, `Classpath.ElementValue.size` – the types that a value names, and
  the number of its parts.
* `Classpath.ClassFile.ConstantPool.NamesClass` – the classes that a pool has descriptors of.
* `Classpath.ClassFile.annotations_end` – reading ends, and what it ends with.
-/

namespace Classpath

/-! ### Parts of values -/

namespace ElementValue

variable {τ : Type}

mutual

/-- The types of the annotations and of the enum constants in a value, at every depth. -/
def types : ElementValue τ → List τ
  | const _ => []
  | enumConstant type _ => [type]
  | classLiteral _ => []
  | nested type elements => type :: typesOfElements elements
  | array values => typesOfValues values

/-- The types in the values of elements. -/
def typesOfElements : List (String × ElementValue τ) → List τ
  | [] => []
  | (_, v) :: rest => v.types ++ typesOfElements rest

/-- The types in values. -/
def typesOfValues : List (ElementValue τ) → List τ
  | [] => []
  | v :: rest => v.types ++ typesOfValues rest

end

mutual

/-- The number of the constants, enum constants, class literals, annotations and arrays in a value,
itself and every depth included. -/
def size : ElementValue τ → Nat
  | const _ | enumConstant _ _ | classLiteral _ => 1
  | nested _ elements => 1 + sizeOfElements elements
  | array values => 1 + sizeOfValues values

/-- The number of parts in the values of elements. -/
def sizeOfElements : List (String × ElementValue τ) → Nat
  | [] => 0
  | (_, v) :: rest => v.size + sizeOfElements rest

/-- The number of parts in values. -/
def sizeOfValues : List (ElementValue τ) → Nat
  | [] => 0
  | v :: rest => v.size + sizeOfValues rest

end

theorem typesOfElements_eq (elements : List (String × ElementValue τ)) :
    typesOfElements elements = elements.flatMap fun e => e.2.types := by
  induction elements with
  | nil => rfl
  | cons e es ih => rw [typesOfElements, ih, List.flatMap_cons]

theorem typesOfValues_eq (values : List (ElementValue τ)) :
    typesOfValues values = values.flatMap types := by
  induction values with
  | nil => rfl
  | cons v vs ih => rw [typesOfValues, ih, List.flatMap_cons]

theorem sizeOfElements_eq (elements : List (String × ElementValue τ)) :
    sizeOfElements elements = (elements.map fun e => e.2.size).sum := by
  induction elements with
  | nil => rfl
  | cons e es ih => rw [sizeOfElements, ih, List.map_cons, List.sum_cons]

theorem sizeOfValues_eq (values : List (ElementValue τ)) :
    sizeOfValues values = (values.map size).sum := by
  induction values with
  | nil => rfl
  | cons v vs ih => rw [sizeOfValues, ih, List.map_cons, List.sum_cons]

end ElementValue

namespace AnnotationUse

variable {τ : Type}

/-- The type of an annotation and those in its values. -/
def types (a : AnnotationUse τ) : List τ :=
  a.type :: ElementValue.typesOfElements a.elements

/-- The annotation and the parts of its values, counted. -/
def size (a : AnnotationUse τ) : Nat :=
  1 + ElementValue.sizeOfElements a.elements

end AnnotationUse

namespace ClassFile

open Reader

variable {pool : ConstantPool}

/-! ### How deep reading goes -/

/-- **The recursion is spent before the bytes are**: unrolled more often than there are bytes, it
gives the value that is read, whatever stands for the calls that nest deeper. -/
theorem iterate_elementValueStep (bottom : Reader (ElementValue String)) (n : Nat) :
    AgreeUpTo n (readElementValue pool) ((elementValueStep pool)^[n + 1] bottom) := by
  have h : AgreeUpTo n (elementValueWithin pool (n + 1))
      ((elementValueStep pool)^[n + 1] bottom) := by
    induction n with
    | zero => exact fun s hs => elementValueStep_of_nil hs
    | succ n ih =>
      rw [Function.iterate_succ_apply']
      exact agreeUpTo_elementValueStep (streams_elementValueWithin _) ih
  intro s hs
  rw [← h s hs, elementValueWithin_eq (Nat.le_succ_of_le hs)]

/-- The reader of values is one level of itself. -/
theorem readElementValue_eq :
    readElementValue pool = elementValueStep pool (readElementValue pool) := by
  funext s
  have hdeeper : AgreeUpTo s.rest.length (elementValueWithin pool s.rest.length)
      (readElementValue pool) := fun t ht => elementValueWithin_eq ht
  rw [← elementValueWithin_eq (Nat.le_succ s.rest.length), elementValueWithin_succ]
  exact agreeUpTo_elementValueStep (streams_elementValueWithin _) hdeeper s (Nat.le_succ _)

/-! ### Classes that a pool has descriptors of -/

/-- **Naming a class**: the pool has the descriptor `L` name `;` of it, so it is no primitive type
and no array. -/
def ConstantPool.NamesClass (pool : ConstantPool) (name : String) : Prop :=
  name ≠ "" ∧ ';' ∉ name.toList ∧ ∃ i, pool.get i = .ok (.utf8 ("L" ++ name ++ ";"))

theorem ConstantPool.utf8_eq_ok {i : UInt16} {t : String} :
    pool.utf8 i = .ok t ↔ pool.get i = .ok (.utf8 t) := by
  rw [ConstantPool.utf8]
  rcases pool.get i with e | e
  · simp [bind, Except.bind]
  · cases e <;> simp [bind, Except.bind]

/-- What an index is found to name as a type is a class. -/
theorem namesClass_of_objectType {i : UInt16} {name : String}
    (h : objectType pool i = .ok name) : pool.NamesClass name := by
  rw [objectType] at h
  rcases htext : pool.utf8 i with e | text
  · simp [htext, bind, Except.bind] at h
  · rcases hparse : FieldType.parse text with e | t
    · simp [htext, hparse, bind, Except.bind] at h
    · cases t with
      | object n =>
        obtain rfl : n = name := by simpa [htext, hparse, bind, Except.bind] using h
        obtain ⟨⟨hne, hsemi⟩, hwritten⟩ := FieldType.parse_eq_ok.1 hparse
        have hchars : (FieldType.object n).text = "L" ++ n ++ ";" := by
          apply String.toList_inj.1
          simp [FieldType.text, FieldType.chars]
        exact ⟨hne, hsemi, i, ConstantPool.utf8_eq_ok.1 (by rw [htext, ← hwritten, hchars])⟩
      | _ => simp [htext, hparse, bind, Except.bind] at h

/-! ### What is read takes its bytes -/

section Pays

variable {α β : Type} {r : Reader α} {P : α → Prop} {w : α → Nat}

/-- **Paying for what is read**: whatever the reader reads has the property and has taken three
bytes for each part that it counts. -/
def Pays (r : Reader α) (P : α → Prop) (w : α → Nat) : Prop :=
  ∀ o front a, r.Writes o front a → P a ∧ 3 * w a ≤ front.length

theorem Pays.times (hr : r.Streams) (h : Pays r P w) (n : Nat) :
    Pays (r.times n) (fun as => ∀ a ∈ as, P a) fun as => (as.map w).sum := by
  induction n with
  | zero =>
    intro o front as hw
    obtain ⟨-, rfl⟩ := writes_pure.1 hw
    simp
  | succ n ih =>
    intro o front as hw
    simp only [Reader.times, writes_bind hr, writes_bind (hr.times n), writes_pure] at hw
    obtain ⟨a, f, _, rfl, ha, as', g, _, rfl, has, rfl, rfl⟩ := hw
    obtain ⟨hP, hle⟩ := h _ f a ha
    obtain ⟨hPs, hles⟩ := ih _ g as' has
    refine ⟨List.forall_mem_cons.2 ⟨hP, hPs⟩, ?_⟩
    dsimp only at hles ⊢
    rw [List.map_cons, List.sum_cons, List.append_nil, List.length_append]
    omega

/-- The number of the entries of a table takes bytes of its own. -/
theorem Pays.table (hr : r.Streams) (h : Pays r P w) :
    Pays (readTable r) (fun as => ∀ a ∈ as, P a) fun as => (as.map w).sum := by
  intro o front as hw
  simp only [readTable, writes_bind streams_u16, writes_u16] at hw
  obtain ⟨count, f, g, rfl, -, has⟩ := hw
  obtain ⟨hP, hle⟩ := h.times hr _ _ g as has
  rw [List.length_append]
  exact ⟨hP, by omega⟩

/-- What is read from a region has taken bytes that are no longer there. -/
theorem Pays.of_eq_ok (hr : r.Streams) (h : Pays r P w) {s s' : Region} {a : α}
    (hrun : r s = .ok (a, s')) : P a ∧ 3 * w a + s'.rest.length ≤ s.rest.length := by
  obtain ⟨front, hs, hw⟩ := hr.consumes hrun
  obtain ⟨hP, hle⟩ := h _ front a hw
  rw [hs, List.length_append]
  exact ⟨hP, by omega⟩

end Pays

section Values

variable {value : Reader (ElementValue String)}

/-- Values that name classes only, and pay for their parts. -/
def PaysForValues (pool : ConstantPool) (value : Reader (ElementValue String)) : Prop :=
  Pays value (fun v => ∀ name ∈ v.types, pool.NamesClass name) ElementValue.size

theorem pays_elementOf (hs : value.Streams) (h : PaysForValues pool value) :
    Pays (elementOf pool value) (fun e => ∀ name ∈ e.2.types, pool.NamesClass name)
      fun e => e.2.size := by
  intro o front e hw
  simp only [elementOf, writes_bind (streams_reference _), writes_bind hs, writes_pure] at hw
  obtain ⟨name, f, _, rfl, -, v, g, _, rfl, hv, rfl, rfl⟩ := hw
  obtain ⟨hnames, hle⟩ := h _ g v hv
  refine ⟨hnames, ?_⟩
  rw [List.append_nil, List.length_append]
  exact Nat.le_add_left_of_le hle

/-- An annotation takes the bytes of its type, besides those of its elements. -/
theorem pays_annotationOf (hs : value.Streams) (h : PaysForValues pool value) :
    Pays (annotationOf pool value) (fun a => ∀ name ∈ a.types, pool.NamesClass name)
      AnnotationUse.size := by
  have helements := (pays_elementOf hs h).times (streams_elementOf hs)
  intro o front a hw
  rw [annotationOf_eq] at hw
  simp only [readTable, writes_bind (streams_reference _), writes_bind streams_u16, writes_pure,
    Reader.bind_assoc, writes_bind ((streams_elementOf hs).times _), writes_reference,
    writes_u16] at hw
  obtain ⟨type, _, _, rfl, ⟨i, rfl, htype⟩, count, _, _, rfl, rfl, es, g, _, rfl, hes, rfl, rfl⟩ :=
    hw
  obtain ⟨hnames, hle⟩ := helements _ _ g es hes
  dsimp only at hnames hle ⊢
  constructor
  · rw [AnnotationUse.types, ElementValue.typesOfElements_eq]
    refine List.forall_mem_cons.2 ⟨namesClass_of_objectType htype, fun name hmem => ?_⟩
    obtain ⟨e, he, hname⟩ := List.mem_flatMap.1 hmem
    exact hnames e he name hname
  · rw [AnnotationUse.size, ElementValue.sizeOfElements_eq, indexBytes]
    simp only [List.length_append, length_bigEndian, List.length_nil]
    omega

/-- **One level of a value** pays for itself, with the byte of its tag and the two after it. -/
theorem paysForValues_elementValueStep (hs : value.Streams) (h : PaysForValues pool value) :
    PaysForValues pool (elementValueStep pool value) := by
  intro o front v hw
  simp only [elementValueStep, writes_bind still_offset.streams, writes_bind streams_u8,
    writes_offset, writes_u8] at hw
  obtain ⟨_, _, _, rfl, ⟨rfl, rfl⟩, tag, _, g, rfl, rfl, hw⟩ := hw
  rw [List.nil_append, List.singleton_append, List.length_cons]
  split at hw
  · simp only [writes_bind (streams_reference _), writes_reference, writes_pure] at hw
    obtain ⟨type, _, _, rfl, ⟨i, rfl, htype⟩, name, _, _, rfl, ⟨j, rfl, -⟩, rfl, rfl⟩ := hw
    exact ⟨by simpa [ElementValue.types] using namesClass_of_objectType htype,
      by simp [ElementValue.size, indexBytes]⟩
  · simp only [writes_bind (streams_reference _), writes_reference, writes_pure] at hw
    obtain ⟨text, _, _, rfl, ⟨i, rfl, -⟩, rfl, rfl⟩ := hw
    simp [ElementValue.types, ElementValue.size, indexBytes]
  · simp only [writes_bind (streams_annotationOf hs), writes_pure] at hw
    obtain ⟨a, f, _, rfl, ha, rfl, rfl⟩ := hw
    obtain ⟨hnames, hle⟩ := pays_annotationOf hs h _ f a ha
    rw [List.append_nil]
    exact ⟨hnames, Nat.le_succ_of_le hle⟩
  · simp only [writes_bind streams_u16, writes_bind (hs.times _), writes_pure, writes_u16] at hw
    obtain ⟨count, _, _, rfl, rfl, vs, f, _, rfl, hvs, rfl, rfl⟩ := hw
    obtain ⟨hnames, hle⟩ := h.times hs _ _ f vs hvs
    dsimp only at hnames hle ⊢
    constructor
    · rw [ElementValue.types, ElementValue.typesOfValues_eq]
      intro name hmem
      obtain ⟨x, hx, hname⟩ := List.mem_flatMap.1 hmem
      exact hnames x hx name hname
    · rw [ElementValue.size, ElementValue.sizeOfValues_eq]
      simp only [List.length_append, length_bigEndian, List.length_nil]
      omega
  · split at hw
    · simp only [writes_bind (streams_reference _), writes_reference, writes_pure] at hw
      obtain ⟨c, _, _, rfl, ⟨i, rfl, -⟩, rfl, rfl⟩ := hw
      simp [ElementValue.types, ElementValue.size, indexBytes]
    · exact (writes_fail.1 hw).elim

theorem paysForValues_elementValueWithin (depth : Nat) :
    PaysForValues pool (elementValueWithin pool depth) := by
  induction depth with
  | zero =>
    intro o front v hw
    simp only [elementValueWithin, writes_bind still_offset.streams, writes_fail, and_false,
      exists_false] at hw
  | succ depth ih =>
    rw [elementValueWithin_succ]
    exact paysForValues_elementValueStep (streams_elementValueWithin depth) ih

theorem paysForValues_readElementValue : PaysForValues pool (readElementValue pool) :=
  fun o front v hw =>
    paysForValues_elementValueWithin front.length o front v ((writes_readElementValue le_rfl).1 hw)

end Values

/-- **Reading annotations comes to an end.** Reading a value is one step that calls itself for what
is nested, and this recursion is spent before the bytes are: unrolled once more than there are
bytes, whatever stands for the calls that would nest deeper, it reads what is read. And what is read
has taken its bytes: at every depth the types are classes that the pool has descriptors of, and
there is a part for no more than every third byte that is consumed. -/
theorem annotations_end (pool : ConstantPool) :
    readElementValue pool = elementValueStep pool (readElementValue pool) ∧
    (∀ (bottom : Reader (ElementValue String)) (s : Region) (n : Nat), s.rest.length < n →
      ((elementValueStep pool)^[n] bottom) s = readElementValue pool s ∧
      readTable (annotationOf pool ((elementValueStep pool)^[n] bottom)) s =
        readAnnotations pool s) ∧
    (∀ (s s' : Region) (v : ElementValue String), readElementValue pool s = .ok (v, s') →
      (∀ name ∈ v.types, pool.NamesClass name) ∧
      3 * v.size + s'.rest.length ≤ s.rest.length) ∧
    ∀ (s s' : Region) (as : List (AnnotationUse String)), readAnnotations pool s = .ok (as, s') →
      (∀ a ∈ as, ∀ name ∈ a.types, pool.NamesClass name) ∧
      3 * (as.map AnnotationUse.size).sum + s'.rest.length ≤ s.rest.length := by
  refine ⟨readElementValue_eq, ?_, ?_, ?_⟩
  · intro bottom s n hlt
    obtain ⟨m, rfl⟩ : ∃ m, n = m + 1 := ⟨n - 1, by omega⟩
    have hvalue : AgreeUpTo m (readElementValue pool) ((elementValueStep pool)^[m + 1] bottom) :=
      iterate_elementValueStep bottom m
    have htable : AgreeUpTo m (readAnnotations pool)
        (readTable (annotationOf pool ((elementValueStep pool)^[m + 1] bottom))) :=
      (AgreeUpTo.refl m u16).bind streams_u16 fun count =>
        (agreeUpTo_annotationOf streams_readElementValue hvalue).times
          (streams_annotationOf streams_readElementValue) count.toNat
    have hs : s.rest.length ≤ m := Nat.le_of_lt_succ hlt
    exact ⟨(hvalue s hs).symm, (htable s hs).symm⟩
  · exact fun s s' v h => paysForValues_readElementValue.of_eq_ok streams_readElementValue h
  · exact fun s s' as h => ((pays_annotationOf streams_readElementValue
      paysForValues_readElementValue).table
        (streams_annotationOf streams_readElementValue)).of_eq_ok streams_readAnnotations h

-- an array of an empty array counts for two, and takes six bytes
example : readElementValue ⟨#[]⟩ ⟨[0x5B, 0, 1, 0x5B, 0, 0, 0x2A], 0⟩ =
    .ok (.array [.array []], ⟨[0x2A], 6⟩) := rfl

end ClassFile

end Classpath

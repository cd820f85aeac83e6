import Classpath.ClassFile.Basic
import Classpath.Proofs.ClassFile.Reading

/-!
# No class file is the beginning of another one

The reader of class files streams: each of its parts does. The one part that needs an argument is
the reader of annotation values, whose bound on nesting is the number of bytes that are left, so
that it seems to look ahead. It does not: a bound that is at least that number is never met, and any
two such bounds read the same (`Classpath.ClassFile.elementValueWithin_eq`).

* `Classpath.ClassFile.streams_readElementValue` – values of annotation elements.
* `Classpath.ClassFile.streams_read` – whole class files.
* `Classpath.ClassFile.parse_prefix_append` – what becomes of a file that is cut short, and of one
  with bytes after its end.
-/

namespace Classpath.ClassFile

open Reader

variable {pool : ConstantPool}

/-! ### The constant pool -/

theorem PoolEntry.streams_readSkipped (kind : OpaqueKind) (n : Nat) :
    (PoolEntry.readSkipped kind n).Streams :=
  (streams_bytes n).bind fun _ => (still_pure _).streams

theorem PoolEntry.streams_readUtf8 : PoolEntry.readUtf8.Streams :=
  streams_u16.bind fun length => still_offset.streams.bind fun start =>
    (streams_bytes length.toNat).bind fun contents =>
      (still_ofExcept start (ModifiedUtf8.decode contents)).streams.bind fun _ =>
        (still_pure _).streams

theorem PoolEntry.streams_readMethodHandle : PoolEntry.read.readMethodHandle.Streams :=
  streams_u8.bind fun _ => streams_u16.bind fun _ => (still_pure _).streams

theorem PoolEntry.streams_read : PoolEntry.read.Streams := by
  refine still_offset.streams.bind fun start => streams_u8.bind fun tag => ?_
  split
  · exact PoolEntry.streams_readUtf8
  · exact streams_u32.bind fun _ => (still_pure _).streams
  · exact streams_u32.bind fun _ => (still_pure _).streams
  · exact streams_u64.bind fun _ => (still_pure _).streams
  · exact streams_u64.bind fun _ => (still_pure _).streams
  · exact streams_u16.bind fun _ => (still_pure _).streams
  · exact streams_u16.bind fun _ => (still_pure _).streams
  · exact PoolEntry.streams_readSkipped _ _
  · exact PoolEntry.streams_readSkipped _ _
  · exact PoolEntry.streams_readSkipped _ _
  · exact PoolEntry.streams_readSkipped _ _
  · exact PoolEntry.streams_readMethodHandle
  · exact PoolEntry.streams_readSkipped _ _
  · exact PoolEntry.streams_readSkipped _ _
  · exact PoolEntry.streams_readSkipped _ _
  · exact PoolEntry.streams_readSkipped _ _
  · exact PoolEntry.streams_readSkipped _ _
  · exact (still_fail _ _).streams

theorem ConstantPool.streams_readSlots (count : UInt16) (n : Nat) :
    (ConstantPool.readSlots count n).Streams := by
  induction n using Nat.strong_induction_on with
  | _ n ih =>
    cases n with
    | zero => exact (still_pure _).streams
    | succ n =>
      rw [ConstantPool.readSlots]
      refine PoolEntry.streams_read.bind fun entry => ?_
      split
      · cases n with
        | zero => exact still_offset.streams.bind fun _ => (still_fail _ _).streams
        | succ m => exact (ih m (by omega)).bind fun _ => (still_pure _).streams
      · exact (ih n (by omega)).bind fun _ => (still_pure _).streams

theorem ConstantPool.streams_read : ConstantPool.read.Streams := by
  refine streams_u16.bind fun count => ?_
  split
  · exact still_offset.streams.bind fun _ => (still_fail _ _).streams
  · exact (ConstantPool.streams_readSlots _ _).bind fun _ => (still_pure _).streams

/-! ### Annotations -/

theorem streams_annotationOf {value : Reader (ElementValue String)} (h : value.Streams) :
    (annotationOf pool value).Streams :=
  (streams_reference _).bind fun _ => streams_u16.bind fun _ =>
    (Streams.times ((streams_reference _).bind fun _ => h.bind fun _ => (still_pure _).streams)
      _).bind fun _ => (still_pure _).streams

/-- **One level of a value**: the values that it nests are read by `value`. The reader of values is
this with the reader itself in that place. -/
def elementValueStep (pool : ConstantPool) (value : Reader (ElementValue String)) :
    Reader (ElementValue String) := do
  let start ← Reader.offset
  let tag ← Reader.u8
  match Char.ofNat tag.toNat with
  | 'e' =>
    let type ← Reader.reference (objectType pool)
    return .enumConstant type (← Reader.reference pool.utf8)
  | 'c' => return .classLiteral (← Reader.reference pool.utf8)
  | '@' =>
    let inner ← annotationOf pool value
    return .nested inner.type inner.elements
  | '[' =>
    let count ← Reader.u16
    return .array (← Reader.times value count.toNat)
  | c =>
    match ConstantTag.ofChar? c with
    | some kind => return .const (← Reader.reference (constantAt pool kind))
    | none => Reader.fail (.badElementTag tag) start

theorem elementValueWithin_succ (depth : Nat) :
    elementValueWithin pool (depth + 1) = elementValueStep pool (elementValueWithin pool depth) :=
  rfl

theorem streams_elementValueStep {value : Reader (ElementValue String)} (h : value.Streams) :
    (elementValueStep pool value).Streams := by
  refine still_offset.streams.bind fun start => streams_u8.bind fun tag => ?_
  split
  · exact (streams_reference _).bind fun _ => (streams_reference _).bind fun _ =>
      (still_pure _).streams
  · exact (streams_reference _).bind fun _ => (still_pure _).streams
  · exact (streams_annotationOf h).bind fun _ => (still_pure _).streams
  · exact streams_u16.bind fun _ => (h.times _).bind fun _ => (still_pure _).streams
  · split
    · exact (streams_reference _).bind fun _ => (still_pure _).streams
    · exact (still_fail _ _).streams

theorem streams_elementValueWithin (depth : Nat) : (elementValueWithin pool depth).Streams := by
  induction depth with
  | zero => exact still_offset.streams.bind fun _ => (still_fail _ _).streams
  | succ depth ih => exact streams_elementValueStep ih

theorem agreeUpTo_annotationOf {n : Nat} {value value' : Reader (ElementValue String)}
    (hs : value.Streams) (h : AgreeUpTo n value value') :
    AgreeUpTo n (annotationOf pool value) (annotationOf pool value') :=
  (AgreeUpTo.refl n _).bind (streams_reference _) fun _ =>
    (AgreeUpTo.refl n _).bind streams_u16 fun _ =>
      AgreeUpTo.bind
        (Streams.times ((streams_reference _).bind fun _ => hs.bind fun _ =>
          (still_pure _).streams) _)
        (AgreeUpTo.times
          ((streams_reference _).bind fun _ => hs.bind fun _ => (still_pure _).streams)
          ((AgreeUpTo.refl n _).bind (streams_reference _) fun _ =>
            h.bind hs fun _ => .refl n _) _)
        fun _ => .refl n _

/-- The values that a value nests have fewer bytes than it has: the one of its tag is spent. -/
theorem agreeUpTo_elementValueStep {n : Nat} {value value' : Reader (ElementValue String)}
    (hs : value.Streams) (h : AgreeUpTo n value value') :
    AgreeUpTo (n + 1) (elementValueStep pool value) (elementValueStep pool value') := by
  refine (AgreeUpTo.refl _ _).bind still_offset.streams fun start =>
    agreeUpTo_u8_bind fun tag => ?_
  split
  · exact .refl n _
  · exact .refl n _
  · exact (agreeUpTo_annotationOf hs h).bind (streams_annotationOf hs) fun _ => .refl n _
  · exact (AgreeUpTo.refl n _).bind streams_u16 fun _ =>
      (h.times hs _).bind (hs.times _) fun _ => .refl n _
  · exact .refl n _

/-- Without a byte there is no tag, and so nothing that is nested. -/
theorem elementValueStep_of_nil {value value' : Reader (ElementValue String)} {s : Region}
    (h : s.rest.length ≤ 0) : elementValueStep pool value s = elementValueStep pool value' s := by
  obtain ⟨rest, o⟩ := s
  obtain rfl : rest = [] := List.length_eq_zero_iff.1 (Nat.le_zero.1 h)
  rfl

/-- A value nests no deeper than it has bytes, so raising a bound on nesting that is at least the
number of bytes changes nothing. -/
theorem agreeUpTo_elementValueWithin (n : Nat) :
    AgreeUpTo n (elementValueWithin pool n) (elementValueWithin pool (n + 1)) := by
  induction n with
  | zero =>
    -- without a byte there is no tag, and the bound 0 reports just that
    rintro ⟨rest, o⟩ hs
    obtain rfl : rest = [] := List.length_eq_zero_iff.1 (Nat.le_zero.1 hs)
    rfl
  | succ n ih => exact agreeUpTo_elementValueStep (streams_elementValueWithin n) ih

/-- **Any sufficient bound on nesting reads the same.** -/
theorem elementValueWithin_eq {s : Region} {depth : Nat} (h : s.rest.length ≤ depth) :
    elementValueWithin pool depth s = readElementValue pool s := by
  induction depth, h using Nat.le_induction with
  | base => rfl
  | succ depth hle ih => rw [← ih, agreeUpTo_elementValueWithin depth s hle]

/-- The bytes of a value are those that it has with any sufficient bound on nesting. -/
theorem writes_readElementValue {o depth : Nat} {front : Bytes} {v : ElementValue String}
    (h : front.length ≤ depth) :
    (readElementValue pool).Writes o front v ↔
      (elementValueWithin pool depth).Writes o front v := by
  rw [(streams_elementValueWithin depth).writes_iff]
  constructor
  · intro hw
    rw [elementValueWithin_eq h, hw.run_eq]
  · intro hrun rest
    -- a bound that suffices for the value alone and for the value with what follows it
    let bound := max depth (front ++ rest).length
    have hfront : front.length ≤ bound := h.trans (le_max_left _ _)
    have hbound : elementValueWithin pool bound ⟨front, o⟩ = .ok (v, ⟨[], o + front.length⟩) := by
      rw [elementValueWithin_eq hfront, ← elementValueWithin_eq h, hrun]
    have hw := (streams_elementValueWithin bound).writes_iff.2 hbound
    rw [← elementValueWithin_eq (le_max_right depth _ : (front ++ rest).length ≤ bound), hw rest]

theorem streams_readElementValue : (readElementValue pool).Streams where
  consumes {s s' v} h := by
    obtain ⟨front, hs, hw⟩ := (streams_elementValueWithin s.rest.length).consumes h
    refine ⟨front, hs, (writes_readElementValue ?_).2 hw⟩
    simp [hs]
  truncates {o front cut v} h hcut hne := by
    have hw := (writes_readElementValue le_rfl).1 h
    obtain ⟨p, hp, hfail⟩ := (streams_elementValueWithin front.length).truncates hw hcut hne
    have hbound : elementValueWithin pool front.length ⟨cut, o⟩ = readElementValue pool ⟨cut, o⟩ :=
      elementValueWithin_eq hcut.length_le
    exact ⟨p, hp, hbound.symm.trans hfail⟩

theorem streams_readAnnotations : (readAnnotations pool).Streams :=
  streams_u16.bind fun _ => (streams_annotationOf streams_readElementValue).times _

/-! ### Class files -/

theorem streams_readCode : readCode.Streams := by
  refine streams_u16.bind fun _ => streams_u16.bind fun _ => still_offset.streams.bind fun _ =>
    streams_u32.bind fun length => ?_
  split
  · exact (still_fail _ _).streams
  · exact (streams_bytes _).bind fun _ => (still_pure _).streams

/-- The contents of an attribute are read from a region of their own, so the table of attributes
streams whatever they are. -/
theorem streams_readAttributesAfter (before : Attributes) (n : Nat) :
    (readAttributesAfter pool before n).Streams := by
  induction n generalizing before with
  | zero => exact (still_pure _).streams
  | succ n ih =>
    exact (streams_reference _).bind fun _ => streams_u32.bind fun _ =>
      still_offset.streams.bind fun _ => (streams_bytes _).bind fun _ =>
        (still_within _ _).streams.bind fun after => ih after

theorem streams_readAttributes : (readAttributes pool).Streams :=
  streams_u16.bind fun _ => streams_readAttributesAfter _ _

theorem streams_readMember : (readMember pool).Streams :=
  streams_u16.bind fun _ => (streams_reference _).bind fun _ => (streams_reference _).bind fun _ =>
    streams_readAttributes.bind fun _ => (still_pure _).streams

theorem streams_readTable {α : Type} {entry : Reader α} (h : entry.Streams) :
    (readTable entry).Streams :=
  streams_u16.bind fun _ => h.times _

theorem streams_read : read.Streams := by
  refine streams_u32.bind fun found => ?_
  split
  · exact (still_fail _ _).streams
  · exact streams_u16.bind fun _ => streams_u16.bind fun _ =>
      ConstantPool.streams_read.bind fun _ => streams_u16.bind fun _ =>
        (streams_reference _).bind fun _ => (streams_reference _).bind fun _ =>
          (streams_readTable (streams_reference _)).bind fun _ =>
            (streams_readTable streams_readMember).bind fun _ =>
              (streams_readTable streams_readMember).bind fun _ =>
                streams_readAttributes.bind fun _ => (still_pure _).streams

/-- A file is one if all of its bytes are consumed. -/
theorem parse_eq_ok {contents : Bytes} {c : ClassFile} :
    parse contents = .ok c ↔ read.Writes 0 contents c := by
  rw [parse, run]
  constructor
  · intro h
    obtain ⟨⟨a, t⟩, hwhole, ha⟩ : ∃ x, read.whole ⟨contents, 0⟩ = .ok x ∧ x.1 = c := by
      cases hwhole : read.whole ⟨contents, 0⟩ with
      | ok x => exact ⟨x, rfl, by simpa [hwhole, Except.map] using h⟩
      | error e => simp [hwhole, Except.map] at h
    obtain rfl : a = c := ha
    exact (streams_read.whole_eq_ok.1 hwhole).1
  · intro hw
    rw [streams_read.whole_eq_ok.2 ⟨hw, rfl⟩]
    rfl

/-- **Class files end where they say.** Of the bytes of a class file no proper prefix is one: it is
found truncated, at an offset that is not past its end. Nor is it one when other bytes follow: they
are reported with their number and the offset of the first of them. -/
theorem parse_prefix_append (contents : Bytes) (c : ClassFile) (h : parse contents = .ok c) :
    (∀ cut, cut <+: contents → cut ≠ contents →
      ∃ p, p ≤ cut.length ∧ parse cut = .error ⟨.truncated, some p⟩) ∧
    (∀ rest, rest ≠ [] →
      parse (contents ++ rest) =
        .error ⟨.trailingBytes rest.length, some contents.length⟩) ∧
    ∀ other d, parse other = .ok d → contents <+: other → contents = other := by
  have hw : read.Writes 0 contents c := parse_eq_ok.1 h
  have hcut : ∀ cut, cut <+: contents → cut ≠ contents →
      ∃ p, p ≤ cut.length ∧ parse cut = .error ⟨.truncated, some p⟩ := by
    intro cut hprefix hne
    obtain ⟨p, hp, hfail⟩ := (streams_read.truncates hw hprefix hne).whole
    rw [Nat.zero_add] at hp
    exact ⟨p, hp, by rw [parse, run, hfail]; rfl⟩
  have happend : ∀ rest, rest ≠ [] →
      parse (contents ++ rest) =
        .error ⟨.trailingBytes rest.length, some contents.length⟩ := by
    intro rest hrest
    rw [parse, run, hw.whole_append hrest, Nat.zero_add]
    rfl
  refine ⟨hcut, happend, ?_⟩
  rintro _ d hother ⟨rest, rfl⟩
  by_cases hrest : rest = []
  · rw [hrest, List.append_nil]
  · cases hother.symm.trans (happend rest hrest)

/-- The class file of a class `A` without superclass or members. -/
def bareContents : Bytes :=
  [0xCA, 0xFE, 0xBA, 0xBE, 0, 0, 0, 52,
    0, 3, 1, 0, 1, 0x41, 7, 0, 1,
    0, 0x21, 0, 2, 0, 0, 0, 0, 0, 0, 0, 0, 0, 0]

/-- What that file says. -/
def bareClass : ClassFile where
  minorVersion := 0
  majorVersion := 52
  flags := 0x21
  name := "A"
  superName := none
  interfaces := []
  fields := []
  methods := []
  attributes := {}

theorem parse_prefix_append_bare :
    parse bareContents = .ok bareClass ∧
    (∀ cut, cut <+: bareContents → cut ≠ bareContents →
      ∃ p, p ≤ cut.length ∧ parse cut = .error ⟨.truncated, some p⟩) ∧
    (∀ rest, rest ≠ [] →
      parse (bareContents ++ rest) = .error ⟨.trailingBytes rest.length, some 31⟩) ∧
    ∀ other d, parse other = .ok d → bareContents <+: other → bareContents = other :=
  have h : parse bareContents = .ok bareClass := rfl
  ⟨h, parse_prefix_append bareContents bareClass h⟩

end Classpath.ClassFile

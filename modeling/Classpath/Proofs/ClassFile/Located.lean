import Classpath.Proofs.ClassFile.Accepted
import Classpath.Proofs.ClassFile.Failing
import Classpath.Proofs.ClassFile.Nesting

/-!
# Where class files are found wrong

The errors of the parts of a class file are located: every one is met at a read that the reader of
the part comes to, or is about something that was read before. What the format adds to the reads
that can fail is the following of an index, which fails where the index stands, and, in tables of
attributes, an attribute whose contents fail in the region that they have of their own.

The reader of values calls itself, so its errors are located by induction on the number of bytes in
the region; everything else is put together by the rules for the parts. The constants are read
before there is anything to refer to; they can only take more numbers than were declared.

* `Classpath.ClassFile.ConstantPool.Lookup` – the ways to follow an index.
* `Classpath.ClassFile.locates_readElementValue`, `Classpath.ClassFile.locates_readAttribute` –
  values, and the contents of attributes.
* `Classpath.ClassFile.locates_readAttributesAfter`, `Classpath.ClassFile.locates_readContents` –
  tables of attributes, and all that follows the constants.
* `Classpath.ClassFile.ConstantPool.locates_read` – the constants.
-/

namespace Classpath.ClassFile

open Reader

variable {pool : ConstantPool} {lo n : Nat}

/-! ### What indices refer to -/

/-- The causes that are about what an index refers to. -/
def Cause.OfReference : Cause → Prop
  | .badConstantIndex _ | .constantMismatch _ _ _ | .badDescriptor _ => True
  | .badAttribute name => name = "char element_value"
  | _ => False

/-- **The ways to follow an index** into the constants. -/
inductive ConstantPool.Lookup (pool : ConstantPool) :
    (γ : Type) → (UInt16 → Except ReadError γ) → Prop
  | utf8 : Lookup pool String pool.utf8
  | className : Lookup pool String pool.className
  | superclass : Lookup pool (Option String) (superclassAt pool)
  | objectType : Lookup pool String (objectType pool)
  | constant (kind : ConstantTag) : Lookup pool Constant (constantAt pool kind)

/-- **Left without a place**: any error is about what an index refers to, and has no place yet. -/
def Unplaced {α : Type} (x : Except ReadError α) : Prop :=
  ∀ e, x = .error e → e.offset = none ∧ e.cause.OfReference

section Unplaced

variable {α β : Type}

theorem unplaced_ok (a : α) : Unplaced (.ok a : Except ReadError α) :=
  nofun

theorem unplaced_error {cause : Cause} (h : cause.OfReference) :
    Unplaced (.error ⟨cause, none⟩ : Except ReadError α) := by
  rintro _ ⟨⟩
  exact ⟨rfl, h⟩

theorem Unplaced.bind {x : Except ReadError α} {f : α → Except ReadError β} (hx : Unplaced x)
    (hf : ∀ a, Unplaced (f a)) : Unplaced (x >>= f) := by
  intro e h
  cases x with
  | ok a => exact hf a e h
  | error e' =>
    cases h
    exact hx e rfl

end Unplaced

namespace ConstantPool

variable (pool : ConstantPool) (i : UInt16)

theorem unplaced_get : Unplaced (pool.get i) := by
  rw [get]
  split
  · exact unplaced_ok _
  · exact unplaced_error trivial

theorem unplaced_utf8 : Unplaced (pool.utf8 i) :=
  (pool.unplaced_get i).bind fun entry => by
    split
    · exact unplaced_ok _
    · exact unplaced_error trivial

theorem unplaced_className : Unplaced (pool.className i) :=
  (pool.unplaced_get i).bind fun entry => by
    split
    · exact pool.unplaced_utf8 _
    · exact unplaced_error trivial

theorem unplaced_superclassAt : Unplaced (superclassAt pool i) := by
  rw [superclassAt]
  split
  · exact unplaced_ok _
  · exact (pool.unplaced_className i).bind fun name => unplaced_ok _

theorem unplaced_stringConstant : Unplaced (pool.stringConstant i) :=
  (pool.unplaced_get i).bind fun entry => by
    split
    · exact unplaced_ok _
    · exact pool.unplaced_utf8 _
    · exact unplaced_error trivial

theorem unplaced_objectType : Unplaced (objectType pool i) := by
  refine (pool.unplaced_utf8 i).bind fun text => Unplaced.bind ?_ fun t => ?_
  · rw [FieldType.parse]
    split
    · exact unplaced_ok _
    · exact unplaced_error trivial
  · split
    · exact unplaced_ok _
    · exact unplaced_error trivial

theorem unplaced_charConstant (code : UInt32) : Unplaced (charConstant code) := by
  by_cases hvalid : code.toNat.isValidChar
  · rw [charConstant, dif_pos hvalid]
    exact unplaced_ok _
  · rw [charConstant, dif_neg hvalid]
    exact unplaced_error rfl

theorem unplaced_constantAt (kind : ConstantTag) : Unplaced (constantAt pool kind i) := by
  cases kind
  case string => exact (pool.unplaced_stringConstant i).bind fun t => unplaced_ok _
  all_goals
    refine (pool.unplaced_get i).bind fun entry => ?_
    split
    -- the one constant of the right kind that can be refused is a code that is no character
    case h_5 => exact unplaced_charConstant _
    case h_9 => exact unplaced_error trivial
    all_goals exact unplaced_ok _

/-- **What an index refers to is complained of without a place**, so that the place of the index is
the one that the error gets. -/
theorem Lookup.unplaced {pool : ConstantPool} {γ : Type} {find : UInt16 → Except ReadError γ}
    (is : pool.Lookup γ find) (i : UInt16) : Unplaced (find i) := by
  cases is with
  | utf8 => exact pool.unplaced_utf8 i
  | className => exact pool.unplaced_className i
  | superclass => exact pool.unplaced_superclassAt i
  | objectType => exact pool.unplaced_objectType i
  | constant kind => exact pool.unplaced_constantAt i kind

end ConstantPool

/-- References that cannot be followed. -/
inductive LookupFault (pool : ConstantPool) : (γ : Type) → Reader γ → Region → ReadError → Prop
  | intro {γ : Type} {find : UInt16 → Except ReadError γ} {i : UInt16} {rest : Bytes} {p : Nat}
    {cause : Cause} (lookup : pool.Lookup γ find) (fails : find i = .error ⟨cause, none⟩) :
    LookupFault pool γ (reference find) ⟨indexBytes i ++ rest, p⟩ ⟨cause, some p⟩

/-- References into the constants are located where these faults are among those that are told. -/
theorem locatesBelow_lookup {F : Faults} {γ : Type} {find : UInt16 → Except ReadError γ}
    (hF : ∀ γ p s e, LookupFault pool γ p s e → F γ p s e) (is : pool.Lookup γ find) :
    LocatesBelow F lo n (reference find) :=
  locatesBelow_reference fun i e hfind => by
    obtain ⟨cause, place⟩ := e
    obtain ⟨rfl, -⟩ := is.unplaced i _ hfind
    exact ⟨rfl, fun rest p => hF _ _ _ _ (.intro is hfind)⟩

/-! ### The contents of attributes -/

section Values

variable {value : Reader (ElementValue String)}

theorem locates_lookup {γ : Type} {find : UInt16 → Except ReadError γ}
    (is : pool.Lookup γ find) : LocatesBelow (LookupFault pool) lo n (reference find) :=
  locatesBelow_lookup (fun _ _ _ _ h => h) is

theorem locates_annotationOf (hs : value.Streams) (h : LocatesBelow (LookupFault pool) lo n value) :
    LocatesBelow (LookupFault pool) lo n (annotationOf pool value) := by
  have helement : LocatesBelow (LookupFault pool) lo n (elementOf pool value) :=
    (locates_lookup .utf8).bind (streams_reference _) fun _ => h.map _
  rw [annotationOf_eq]
  exact (locates_lookup .objectType).bind (streams_reference _) fun _ =>
    (helement.table (streams_elementOf hs)).map _

/-- **One level of a value**: what it nests has fewer bytes. -/
theorem locates_elementValueStep (hs : value.Streams)
    (h : ∀ lo, LocatesBelow (LookupFault pool) lo n value) :
    LocatesBelow (LookupFault pool) lo (n + 1) (elementValueStep pool value) := by
  refine locatesBelow_offset_bind fun start => locatesBelow_u8_bind fun tag => ?_
  split
  · exact (locates_lookup .objectType).bind (streams_reference _) fun _ =>
      (locates_lookup .utf8).map _
  · exact (locates_lookup .utf8).map _
  · exact (locates_annotationOf hs (h start)).map _
  · exact locatesBelow_u16.bind streams_u16 fun _ => ((h start).times hs _).map _
  · split
    · exact (locates_lookup (.constant _)).map _
    · exact locatesBelow_fail trivial

/-- **Values**, however deep they nest. -/
theorem locates_readElementValue (lo n : Nat) :
    LocatesBelow (LookupFault pool) lo n (readElementValue pool) := by
  induction n generalizing lo with
  | zero => exact fun s e _ hn _ => absurd hn (Nat.not_lt_zero _)
  | succ n ih =>
    rw [readElementValue_eq]
    exact locates_elementValueStep streams_readElementValue ih

theorem locates_readAnnotations : LocatesBelow (LookupFault pool) lo n (readAnnotations pool) :=
  (locates_annotationOf streams_readElementValue (locates_readElementValue lo n)).table
    (streams_annotationOf streams_readElementValue)

end Values

theorem locates_readCode {F : Faults} : LocatesBelow F lo n readCode := by
  refine locatesBelow_u16.bind streams_u16 fun _ => locatesBelow_u16.bind streams_u16 fun _ =>
    locatesBelow_offset_bind fun start => locatesBelow_u32.bind streams_u32 fun length => ?_
  split
  · exact locatesBelow_fail rfl
  · exact (locatesBelow_bytes _).map _

theorem locates_readAttribute (name : String) (before : Attributes) :
    LocatesBelow (LookupFault pool) lo n (readAttribute pool name before) := by
  rw [readAttribute.eq_def]
  split
  · exact (locates_readAnnotations.whole streams_readAnnotations).map _
  · exact (locates_readAnnotations.whole streams_readAnnotations).map _
  · exact ((locates_readElementValue lo n).whole streams_readElementValue).map _
  · exact locates_readCode.map _
  · exact locatesBelow_pure _

/-! ### Tables of attributes -/

/-- References that cannot be followed, and attributes whose contents cannot be read. -/
inductive TableFault (pool : ConstantPool) : (γ : Type) → Reader γ → Region → ReadError → Prop
  | lookup {γ : Type} {p : Reader γ} {s : Region} {e : ReadError} (h : LookupFault pool γ p s e) :
    TableFault pool γ p s e
  | body {before : Attributes} {n o : Nat} {index : UInt16} {body rest : Bytes} {name : String}
    {e : ReadError} (named : pool.utf8 index = .ok name) (lt : body.length < 2 ^ 32)
    (fails : readAttribute pool name before ⟨body, o + 6⟩ = .error e) :
    TableFault pool Attributes (readAttributesAfter pool before (n + 1))
      ⟨indexBytes index ++ (bigEndian 4 body.length ++ (body ++ rest)), o⟩ e

theorem locates_tableLookup {γ : Type} {find : UInt16 → Except ReadError γ}
    (is : pool.Lookup γ find) : LocatesBelow (TableFault pool) lo n (reference find) :=
  locatesBelow_lookup (fun _ _ _ _ => .lookup) is

/-- The name of an attribute, and the region of its contents. -/
def attributeHead (pool : ConstantPool) : Reader (String × Region) := do
  let name ← Reader.reference pool.utf8
  let length ← Reader.u32
  let start ← Reader.offset
  let body ← Reader.bytes length.toNat
  return (name, ⟨body, start⟩)

theorem readAttributesAfter_succ (before : Attributes) (n : Nat) :
    readAttributesAfter pool before (n + 1) =
      attributeHead pool >>= fun head => within head.2 (readAttribute pool head.1 before) >>=
        fun after => readAttributesAfter pool after n := by
  simp only [readAttributesAfter, attributeHead, Reader.bind_assoc]
  rfl

theorem streams_attributeHead : (attributeHead pool).Streams :=
  (streams_reference _).bind fun _ => streams_u32.bind fun _ => still_offset.streams.bind fun _ =>
    (streams_bytes _).bind fun _ => (still_pure _).streams

theorem locates_attributeHead : LocatesBelow (TableFault pool) lo n (attributeHead pool) :=
  (locates_tableLookup .utf8).bind (streams_reference _) fun _ =>
    locatesBelow_u32.bind streams_u32 fun _ => locatesBelow_offset_bind fun _ =>
      (locatesBelow_bytes _).map _

/-- The head of an attribute has the index of its name and, in four bytes, the length of its
contents before these. -/
theorem exists_of_writes_attributeHead {o : Nat} {front : Bytes} {name : String} {region : Region}
    (h : (attributeHead pool).Writes o front (name, region)) :
    ∃ (index : UInt16) (body : Bytes), pool.utf8 index = .ok name ∧ body.length < 2 ^ 32 ∧
      front = indexBytes index ++ (bigEndian 4 body.length ++ body) ∧ region = ⟨body, o + 6⟩ := by
  simp only [attributeHead, writes_bind (streams_reference _), writes_bind streams_u32,
    writes_bind still_offset.streams, writes_bind (streams_bytes _), writes_reference, writes_u32,
    writes_offset, writes_bytes, writes_pure, Prod.mk.injEq] at h
  obtain ⟨_, _, _, rfl, ⟨index, rfl, hname⟩, length, _, _, rfl, rfl, _, _, _, rfl, ⟨rfl, rfl⟩, _,
    body, _, rfl, ⟨rfl, hlen⟩, rfl, rfl, rfl⟩ := h
  refine ⟨index, body, hname, hlen ▸ length.toNat_lt, ?_, ?_⟩
  · rw [hlen, List.nil_append, List.append_nil]
  · simp [indexBytes, Nat.add_assoc]

theorem locates_readAttributesAfter (before : Attributes) (m : Nat) :
    LocatesBelow (TableFault pool) lo n (readAttributesAfter pool before m) := by
  induction m generalizing before lo n with
  | zero => exact locatesBelow_pure before
  | succ m ih =>
    intro s e hlo hn hfail
    rw [readAttributesAfter_succ] at hfail
    rcases bind_eq_error.1 hfail with hrun | ⟨⟨name, region⟩, t, hrun, hfail⟩
    · rw [readAttributesAfter_succ]
      exact (locates_attributeHead s e hlo hn hrun).bind
    · rcases hbody : readAttribute pool name before region with e' | ⟨after, u⟩
      · -- the contents are wrong, and so is the attribute
        obtain ⟨f, hs, -, hw⟩ := streams_attributeHead.offset_eq hrun
        obtain ⟨index, body, hname, hlt, hf, rfl⟩ := exists_of_writes_attributeHead hw
        have hrest : s.rest =
            indexBytes index ++ (bigEndian 4 body.length ++ (body ++ t.rest)) := by
          rw [congrArg Region.rest hs, hf, List.append_assoc, List.append_assoc]
        have hwithin : within ⟨body, s.offset + 6⟩ (readAttribute pool name before) t =
            .error e' := by
          rw [within, hbody]
        obtain rfl := Except.error.inj ((bind_error hwithin).symm.trans hfail)
        refine .read (List.nil_append _).symm (.refl _ _) (.other ?_)
        rw [hrest]
        exact .body hname hlt hbody
      · have hnext : (within region (readAttribute pool name before) >>=
            fun after => readAttributesAfter pool after m) = readAttributesAfter pool after m := by
          funext v
          exact bind_ok (by rw [within, hbody])
        have ho := hlo.trans (streams_attributeHead.le_offset hrun)
        have hlen := (streams_attributeHead.length_le hrun).trans_lt hn
        rw [readAttributesAfter_succ]
        refine Located.of_eq_ok streams_attributeHead hrun ?_
        rw [hnext] at hfail ⊢
        exact ih after t e ho hlen hfail

theorem locates_readAttributes : LocatesBelow (TableFault pool) lo n (readAttributes pool) :=
  locatesBelow_u16.bind streams_u16 fun _ => locates_readAttributesAfter _ _

theorem locates_readMember : LocatesBelow (TableFault pool) lo n (readMember pool) :=
  locatesBelow_u16.bind streams_u16 fun _ =>
    (locates_tableLookup .utf8).bind (streams_reference _) fun _ =>
      (locates_tableLookup .utf8).bind (streams_reference _) fun _ =>
        locates_readAttributes.map _

/-- **What follows the constants.** -/
theorem locates_readContents {minor major : UInt16} :
    LocatesBelow (TableFault pool) lo n (readContents pool minor major) := by
  have hclass : LocatesBelow (TableFault pool) lo n (reference pool.className) :=
    locates_tableLookup .className
  have hmembers : LocatesBelow (TableFault pool) lo n (readTable (readMember pool)) :=
    locates_readMember.table streams_readMember
  exact locatesBelow_u16.bind streams_u16 fun _ => hclass.bind (streams_reference _) fun _ =>
    (locates_tableLookup .superclass).bind (streams_reference _) fun _ =>
      (hclass.table (streams_reference _)).bind (streams_readTable (streams_reference _)) fun _ =>
        hmembers.bind (streams_readTable streams_readMember) fun _ =>
          hmembers.bind (streams_readTable streams_readMember) fun _ => locates_readAttributes.map _

/-! ### The constants -/

/-- Constants that take more numbers than there are. -/
inductive HeaderFault : (γ : Type) → Reader γ → Region → ReadError → Prop
  | overrun {α : Type} {count : UInt16} {s : Region} :
    HeaderFault α (offset >>= fail (.badConstantIndex count)) s
      ⟨.badConstantIndex count, some s.offset⟩

theorem locates_overrun {α : Type} {count : UInt16} :
    LocatesBelow HeaderFault lo n
      (offset >>= fun p => (fail (.badConstantIndex count) p : Reader α)) := by
  intro s e _ _ hfail
  cases hfail
  exact .read (List.nil_append _).symm (.refl _ _) (.other .overrun)

theorem PoolEntry.locates_read {F : Faults} : LocatesBelow F lo n PoolEntry.read := by
  refine locatesBelow_offset_bind fun start => locatesBelow_u8.bind streams_u8 fun tag => ?_
  split
  · refine locatesBelow_u16.bind streams_u16 fun _ => locatesBelow_offset_bind fun start =>
      (locatesBelow_bytes _).bind (streams_bytes _) fun contents =>
        (locatesBelow_ofExcept fun e hdecode => ?_).map _
    rw [ModifiedUtf8.decode] at hdecode
    split at hdecode <;> cases hdecode
    exact ⟨rfl, trivial⟩
  · exact locatesBelow_u32.map _
  · exact locatesBelow_u32.map _
  · exact locatesBelow_u64.map _
  · exact locatesBelow_u64.map _
  · exact locatesBelow_u16.map _
  · exact locatesBelow_u16.map _
  · exact (locatesBelow_bytes _).map _
  · exact (locatesBelow_bytes _).map _
  · exact (locatesBelow_bytes _).map _
  · exact (locatesBelow_bytes _).map _
  · exact locatesBelow_u8.bind streams_u8 fun _ => locatesBelow_u16.map _
  · exact (locatesBelow_bytes _).map _
  · exact (locatesBelow_bytes _).map _
  · exact (locatesBelow_bytes _).map _
  · exact (locatesBelow_bytes _).map _
  · exact (locatesBelow_bytes _).map _
  · exact locatesBelow_fail trivial

theorem ConstantPool.locates_readSlots (count : UInt16) (m : Nat) :
    LocatesBelow HeaderFault lo n (ConstantPool.readSlots count m) := by
  induction m using Nat.strong_induction_on with
  | _ m ih =>
    cases m with
    | zero => exact locatesBelow_pure []
    | succ m =>
      rw [ConstantPool.readSlots]
      refine PoolEntry.locates_read.bind PoolEntry.streams_read fun entry => ?_
      split
      · cases m with
        | zero => exact locates_overrun
        | succ m => exact (ih m (by omega)).map _
      · exact (ih m (by omega)).map _

theorem ConstantPool.locates_read : LocatesBelow HeaderFault lo n ConstantPool.read := by
  refine locatesBelow_u16.bind streams_u16 fun count => ?_
  split
  · exact locates_overrun
  · exact (ConstantPool.locates_readSlots _ _).map _

/-- An unusable index is nothing that is wrong with a constant by itself. -/
theorem PoolEntry.read_ne_badConstantIndex {s : Region} {index : UInt16} {p : Option Nat} :
    PoolEntry.read s ≠ .error ⟨.badConstantIndex index, p⟩ := by
  intro h
  have hlocated : Located (fun _ _ _ _ => False) PoolEntry.read s ⟨.badConstantIndex index, p⟩ :=
    PoolEntry.locates_read s _ (Nat.zero_le _) (Nat.lt_succ_self _) h
  cases hlocated with
  | read _ _ fault =>
    cases fault with
    | other is => exact is
  | back looks => exact looks

end Classpath.ClassFile

import Classpath.Proofs.ClassFile.Layout
import Classpath.Proofs.ClassFile.Prefix

/-!
# Constants, written and read

A reader **inverts** a layout if the values that it reads from some bytes are those that the
syntax with these bytes resolves to. For numbers, indices and tables this is a matter of counting
bytes; for the constant pool it is shown here constant by constant, and the numbers of the constants
are shown to refer to what they refer to in the layout.

* `Classpath.ClassFile.Inverts` – the relation between a reader and a layout.
* `Classpath.ClassFile.Inverts.table` – tables of what a reader inverts.
* `Classpath.ClassFile.inverts_readSlots` – the constants.
* `Classpath.ClassFile.ConstantPool.Denotes` – the pool has at each number the constant that the
  layout has there.
-/

namespace Classpath.ClassFile

open Reader

/-! ### Numbers -/

@[simp] theorem length_bigEndian (n v : Nat) : (bigEndian n v).length = n := by
  induction n generalizing v with
  | zero => rfl
  | succ n ih => rw [bigEndian, List.length_append, ih, List.length_singleton]

theorem number_append_singleton (bs : Bytes) (b : UInt8) :
    number (bs ++ [b]) = 256 * number bs + b.toNat := by
  rw [number, number, List.foldl_append]
  rfl

theorem number_bigEndian {n v : Nat} (h : v < 256 ^ n) : number (bigEndian n v) = v := by
  induction n generalizing v with
  | zero =>
    rw [Nat.pow_zero, Nat.lt_one_iff] at h
    rw [h]
    rfl
  | succ n ih =>
    have hdiv : v / 256 < 256 ^ n := by
      rw [Nat.pow_succ] at h
      exact Nat.div_lt_of_lt_mul (by rwa [Nat.mul_comm])
    rw [bigEndian, number_append_singleton, ih hdiv, UInt8.toNat_ofNat']
    omega

theorem number_lt (bs : Bytes) : number bs < 256 ^ bs.length := by
  induction bs using List.reverseRecOn with
  | nil => simp [number]
  | append_singleton bs b ih =>
    have hb := b.toNat_lt
    rw [number_append_singleton, List.length_append, List.length_singleton, Nat.pow_succ]
    omega

theorem bigEndian_number (bs : Bytes) : bigEndian bs.length (number bs) = bs := by
  induction bs using List.reverseRecOn with
  | nil => rfl
  | append_singleton bs b ih =>
    have hb := b.toNat_lt
    have hdiv : (256 * number bs + b.toNat) / 256 = number bs := by omega
    have hbyte : UInt8.ofNat (256 * number bs + b.toNat) = b := by
      apply UInt8.toNat_inj.1
      rw [UInt8.toNat_ofNat']
      omega
    rw [number_append_singleton, List.length_append, List.length_singleton, bigEndian, hdiv, ih,
      hbyte]

section Numbers

variable {α : Type} {o : Nat} {front : Bytes}

/-- A number of `n` bytes is written by its digits to the base 256. -/
theorem writes_number {n : Nat} {ofNat : Nat → α} {toNat : α → Nat} {a : α}
    (hlt : ∀ a, toNat a < 256 ^ n) (hleft : ∀ a, ofNat (toNat a) = a)
    (hright : ∀ v, v < 256 ^ n → toNat (ofNat v) = v) :
    (bytes n >>= fun bs => (pure (ofNat (number bs)) : Reader α)).Writes o front a ↔
      front = bigEndian n (toNat a) := by
  simp only [writes_bind (streams_bytes n), writes_bytes, writes_pure]
  constructor
  · rintro ⟨bs, f, g, rfl, ⟨rfl, rfl⟩, rfl, rfl⟩
    rw [List.append_nil, hright _ (number_lt f), bigEndian_number]
  · rintro rfl
    refine ⟨bigEndian n (toNat a), _, [], (List.append_nil _).symm, ⟨rfl, length_bigEndian n _⟩,
      rfl, ?_⟩
    rw [number_bigEndian (hlt a), hleft]

theorem writes_u8 {v : UInt8} : u8.Writes o front v ↔ front = [v] := by
  have h : [v] = bigEndian 1 v.toNat := by simp [bigEndian]
  rw [h]
  exact writes_number UInt8.toNat_lt (fun _ => UInt8.ofNat_toNat) fun _ => UInt8.toNat_ofNat_of_lt'

theorem writes_u16 {v : UInt16} : u16.Writes o front v ↔ front = bigEndian 2 v.toNat :=
  writes_number UInt16.toNat_lt (fun _ => UInt16.ofNat_toNat) fun _ => UInt16.toNat_ofNat_of_lt'

theorem writes_u32 {v : UInt32} : u32.Writes o front v ↔ front = bigEndian 4 v.toNat :=
  writes_number UInt32.toNat_lt (fun _ => UInt32.ofNat_toNat) fun _ => UInt32.toNat_ofNat_of_lt'

theorem writes_u64 {v : UInt64} : u64.Writes o front v ↔ front = bigEndian 8 v.toNat :=
  writes_number UInt64.toNat_lt (fun _ => UInt64.ofNat_toNat) fun _ => UInt64.toNat_ofNat_of_lt'

theorem writes_reference {find : UInt16 → Except ReadError α} {a : α} :
    (reference find).Writes o front a ↔ ∃ i, front = indexBytes i ∧ find i = .ok a := by
  rw [reference]
  simp only [writes_bind still_offset.streams, writes_bind streams_u16, writes_offset, writes_u16,
    writes_ofExcept]
  constructor
  · rintro ⟨_, _, _, rfl, ⟨rfl, rfl⟩, i, _, _, rfl, rfl, rfl, hfind⟩
    exact ⟨i, List.append_nil _, hfind⟩
  · rintro ⟨i, rfl, hfind⟩
    exact ⟨o, [], indexBytes i, rfl, ⟨rfl, rfl⟩, i, _, [], (List.append_nil _).symm, rfl, rfl,
      hfind⟩

end Numbers

/-! ### Inverting a layout -/

section Inverts

variable {X α : Type} {n : Nat} {r : Reader α} {Fits : X → Prop} {bytes : X → Bytes}
  {resolve? : X → Option α}

/-- Values that are read from at most `n` bytes are what the syntax with these bytes resolves to. -/
def InvertsUpTo (n : Nat) (r : Reader α) (Fits : X → Prop) (bytes : X → Bytes)
    (resolve? : X → Option α) : Prop :=
  ∀ o front a, front.length ≤ n →
    (r.Writes o front a ↔ ∃ x, Fits x ∧ bytes x = front ∧ resolve? x = some a)

/-- **Inverting a layout**: what is read from some bytes is what the syntax with these bytes
resolves to. -/
def Inverts (r : Reader α) (Fits : X → Prop) (bytes : X → Bytes) (resolve? : X → Option α) :
    Prop :=
  ∀ o front a, r.Writes o front a ↔ ∃ x, Fits x ∧ bytes x = front ∧ resolve? x = some a

theorem Inverts.upTo (h : Inverts r Fits bytes resolve?) (n : Nat) :
    InvertsUpTo n r Fits bytes resolve? :=
  fun o front a _ => h o front a

theorem inverts_of_upTo (h : ∀ n, InvertsUpTo n r Fits bytes resolve?) :
    Inverts r Fits bytes resolve? :=
  fun o front a => h front.length o front a le_rfl

theorem InvertsUpTo.times (hr : r.Streams) (h : InvertsUpTo n r Fits bytes resolve?) (m : Nat) :
    InvertsUpTo n (r.times m) (fun xs => xs.length = m ∧ ∀ x ∈ xs, Fits x) (List.flatMap bytes)
      (List.mapM resolve?) := by
  induction m with
  | zero =>
    intro o front as _
    rw [Reader.times, writes_pure]
    constructor
    · rintro ⟨rfl, rfl⟩
      exact ⟨[], ⟨rfl, by simp⟩, rfl, rfl⟩
    · rintro ⟨xs, ⟨hlen, -⟩, hbytes, hres⟩
      obtain rfl := List.length_eq_zero_iff.1 hlen
      exact ⟨hbytes.symm, by simpa using hres.symm⟩
  | succ m ih =>
    intro o front as hn
    simp only [Reader.times, writes_bind hr, writes_bind (hr.times m), writes_pure]
    constructor
    · rintro ⟨a, f, _, rfl, ha, as', g, _, rfl, has, rfl, rfl⟩
      rw [List.append_nil, List.length_append] at hn
      obtain ⟨x, hx, rfl, hxa⟩ := (h _ f a (by omega)).1 ha
      obtain ⟨xs, ⟨hlen, hxs⟩, rfl, hxsa⟩ := (ih _ g as' (by omega)).1 has
      refine ⟨x :: xs, ⟨by rw [List.length_cons, hlen], ?_⟩, by simp, by simp [hxa, hxsa]⟩
      exact List.forall_mem_cons.2 ⟨hx, hxs⟩
    · rintro ⟨_ | ⟨x, xs⟩, ⟨hlen, hfits⟩, rfl, hres⟩
      · cases hlen
      · rw [List.flatMap_cons, List.length_append] at hn
        obtain ⟨hx, hxs⟩ := List.forall_mem_cons.1 hfits
        obtain ⟨a, ha, as', has, rfl⟩ : ∃ a, resolve? x = some a ∧
            ∃ as', xs.mapM resolve? = some as' ∧ a :: as' = as := by
          simpa [List.mapM_cons, Option.bind_eq_some_iff] using hres
        refine ⟨a, bytes x, xs.flatMap bytes, rfl, (h _ _ a (by omega)).2 ⟨x, hx, rfl, ha⟩, as', _,
          [], (List.append_nil _).symm, ?_, rfl, rfl⟩
        exact (ih _ _ as' (by omega)).2 ⟨xs, ⟨by simpa using hlen, hxs⟩, rfl, has⟩

/-- **Tables** are inverted where their entries are. -/
theorem InvertsUpTo.table (hr : r.Streams) (h : InvertsUpTo n r Fits bytes resolve?) :
    InvertsUpTo n (readTable r) (fun xs => xs.length < 2 ^ 16 ∧ ∀ x ∈ xs, Fits x)
      (tableBytes bytes) (List.mapM resolve?) := by
  intro o front as hn
  simp only [readTable, writes_bind streams_u16, writes_u16]
  constructor
  · rintro ⟨count, _, g, rfl, rfl, has⟩
    rw [List.length_append, length_bigEndian] at hn
    obtain ⟨xs, ⟨hlen, hfits⟩, rfl, hres⟩ := (h.times hr _ _ g as (by omega)).1 has
    refine ⟨xs, ⟨hlen ▸ count.toNat_lt, hfits⟩, ?_, hres⟩
    rw [tableBytes, hlen]
  · rintro ⟨xs, ⟨hlt, hfits⟩, rfl, hres⟩
    have hcount : (UInt16.ofNat xs.length).toNat = xs.length := UInt16.toNat_ofNat_of_lt' hlt
    rw [tableBytes, List.length_append, length_bigEndian] at hn
    refine ⟨UInt16.ofNat xs.length, _, _, rfl, by rw [hcount], ?_⟩
    exact (h.times hr _ _ _ as (by omega)).2 ⟨xs, ⟨hcount.symm, hfits⟩, rfl, hres⟩

theorem Inverts.table (hr : r.Streams) (h : Inverts r Fits bytes resolve?) :
    Inverts (readTable r) (fun xs => xs.length < 2 ^ 16 ∧ ∀ x ∈ xs, Fits x) (tableBytes bytes)
      (List.mapM resolve?) :=
  inverts_of_upTo fun n => (h.upTo n).table hr

end Inverts

/-! ### One constant -/

namespace PoolEntry

variable {o : Nat} {front : Bytes} {e : PoolEntry}

theorem writes_readSkipped {kind : OpaqueKind} {n : Nat} :
    (readSkipped kind n).Writes o front e ↔ front.length = n ∧ e = .skipped kind := by
  simp only [readSkipped, writes_bind (streams_bytes n), writes_bytes, writes_pure]
  constructor
  · rintro ⟨_, f, _, rfl, ⟨rfl, hn⟩, rfl, rfl⟩
    exact ⟨by rw [List.append_nil, hn], rfl⟩
  · rintro ⟨hn, rfl⟩
    exact ⟨front, front, [], (List.append_nil _).symm, ⟨rfl, hn⟩, rfl, rfl⟩

theorem writes_readMethodHandle :
    read.readMethodHandle.Writes o front e ↔ front.length = 3 ∧ e = .skipped .methodHandle := by
  simp only [read.readMethodHandle, writes_bind streams_u8, writes_bind streams_u16, writes_u8,
    writes_u16, writes_pure]
  constructor
  · rintro ⟨b, _, _, rfl, rfl, i, _, _, rfl, rfl, rfl, rfl⟩
    simp
  · rintro ⟨hn, rfl⟩
    obtain ⟨b, rest, rfl⟩ := List.exists_cons_of_length_eq_add_one hn
    have hrest : bigEndian 2 (UInt16.ofNat (number rest)).toNat = rest := by
      have hlen : rest.length = 2 := by simpa using hn
      have hlt := number_lt rest
      rw [hlen] at hlt
      rw [UInt16.toNat_ofNat_of_lt' hlt, ← hlen, bigEndian_number]
    exact ⟨b, [b], rest, rfl, rfl, UInt16.ofNat (number rest), rest, [],
      (List.append_nil _).symm, hrest.symm, rfl, rfl⟩

theorem writes_readUtf8 :
    readUtf8.Writes o front e ↔
      ∃ contents : Bytes, contents.length < 2 ^ 16 ∧
        front = bigEndian 2 contents.length ++ contents ∧
        (ModifiedUtf8.decode? contents).map .utf8 = some e := by
  have hdecode : ∀ (contents : Bytes) (t : String),
      ModifiedUtf8.decode contents = .ok t ↔ ModifiedUtf8.decode? contents = some t := by
    intro contents t
    rw [ModifiedUtf8.decode]
    cases ModifiedUtf8.decode? contents <;> simp
  simp only [readUtf8, writes_bind streams_u16, writes_bind still_offset.streams,
    writes_bind (streams_bytes _), writes_bind (still_ofExcept _ _).streams, writes_u16,
    writes_offset, writes_bytes, writes_ofExcept, writes_pure, hdecode, Option.map_eq_some_iff]
  constructor
  · rintro ⟨length, _, _, rfl, rfl, _, _, _, rfl, ⟨rfl, rfl⟩, _, contents, _, rfl, ⟨rfl, hlen⟩, t,
      _, _, rfl, ⟨rfl, ht⟩, rfl, rfl⟩
    refine ⟨contents, hlen ▸ length.toNat_lt, ?_, t, ht, rfl⟩
    rw [hlen, List.nil_append, List.append_nil, List.append_nil]
  · rintro ⟨contents, hlt, rfl, t, ht, rfl⟩
    have hlen : (UInt16.ofNat contents.length).toNat = contents.length :=
      UInt16.toNat_ofNat_of_lt' hlt
    exact ⟨UInt16.ofNat contents.length, _, contents, rfl, by rw [hlen], _, [], contents, rfl,
      ⟨rfl, rfl⟩, contents, contents, [], (List.append_nil _).symm, ⟨rfl, hlen.symm⟩, t, [], [],
      rfl, ⟨rfl, ht⟩, rfl, rfl⟩

/-- A number and what is made of it. -/
theorem writes_map {α : Type} {r : Reader α} {f : α → PoolEntry} (hr : r.Streams) :
    (r >>= fun a => (pure (f a) : Reader PoolEntry)).Writes o front e ↔
      ∃ a, r.Writes o front a ∧ e = f a := by
  simp only [writes_bind hr, writes_pure]
  constructor
  · rintro ⟨a, _, _, rfl, ha, rfl, rfl⟩
    exact ⟨a, by rwa [List.append_nil], rfl⟩
  · rintro ⟨a, ha, rfl⟩
    exact ⟨a, front, [], (List.append_nil _).symm, ha, rfl, rfl⟩

/-- A constant that is a number is laid out with the bytes of that number. -/
theorem exists_number {α : Type} {r : Reader α} {write : α → Bytes} {f : α → PoolEntry}
    {tag t : UInt8} {payload : Bytes} (make : α → RawConstant) (hr : r.Streams)
    (hwrites : ∀ {a}, r.Writes o payload a ↔ payload = write a) (htag : tag.toNat = t.toNat)
    (hmake : ∀ a, (make a).Fits ∧ (make a).bytes = t :: write a ∧
      RawConstant.entry? (make a) = some (f a))
    (h : (r >>= fun a => (pure (f a) : Reader PoolEntry)).Writes o payload e) :
    ∃ c : RawConstant, c.Fits ∧ c.bytes = tag :: payload ∧ c.entry? = some e := by
  obtain ⟨a, ha, rfl⟩ := (writes_map hr).1 h
  obtain ⟨hfits, hbytes, hentry⟩ := hmake a
  exact ⟨make a, hfits, by rw [hbytes, UInt8.toNat_inj.1 htag, hwrites.1 ha], hentry⟩

/-- A constant of a kind that is skipped over is laid out with the bytes that are skipped. -/
theorem exists_skipped {tag : UInt8} {payload : Bytes} {n : Nat} (kind : OpaqueKind)
    (htag : tag.toNat = kind.tag.toNat) (hn : n = kind.width)
    (h : payload.length = n ∧ e = .skipped kind) :
    ∃ c : RawConstant, c.Fits ∧ c.bytes = tag :: payload ∧ c.entry? = some e := by
  obtain ⟨hlen, rfl⟩ := h
  refine ⟨.skipped kind payload, hlen.trans hn, ?_, rfl⟩
  rw [UInt8.toNat_inj.1 htag]
  rfl

/-- **Each constant is read from the bytes that it has in the layout.** -/
theorem inverts_read : Inverts read RawConstant.Fits RawConstant.bytes RawConstant.entry? := by
  intro o front e
  simp only [read, writes_bind still_offset.streams, writes_bind streams_u8, writes_offset,
    writes_u8]
  constructor
  · rintro ⟨_, _, _, rfl, ⟨rfl, rfl⟩, tag, _, payload, rfl, rfl, h⟩
    rw [List.nil_append, List.singleton_append]
    -- one case for each tag, and one for the tags that no constant has
    split at h
    · rename_i htag
      obtain rfl : tag = 1 := UInt8.toNat_inj.1 htag
      obtain ⟨contents, hlt, rfl, he⟩ := writes_readUtf8.1 h
      exact ⟨.utf8 contents, hlt, rfl, he⟩
    · exact exists_number .integer streams_u32 writes_u32 ‹_› (fun _ => ⟨trivial, rfl, rfl⟩) h
    · exact exists_number .float streams_u32 writes_u32 ‹_› (fun _ => ⟨trivial, rfl, rfl⟩) h
    · exact exists_number .long streams_u64 writes_u64 ‹_› (fun _ => ⟨trivial, rfl, rfl⟩) h
    · exact exists_number .double streams_u64 writes_u64 ‹_› (fun _ => ⟨trivial, rfl, rfl⟩) h
    · exact exists_number .classRef streams_u16 writes_u16 ‹_› (fun _ => ⟨trivial, rfl, rfl⟩) h
    · exact exists_number .stringRef streams_u16 writes_u16 ‹_› (fun _ => ⟨trivial, rfl, rfl⟩) h
    · exact exists_skipped .fieldref ‹_› rfl (writes_readSkipped.1 h)
    · exact exists_skipped .methodref ‹_› rfl (writes_readSkipped.1 h)
    · exact exists_skipped .interfaceMethodref ‹_› rfl (writes_readSkipped.1 h)
    · exact exists_skipped .nameAndType ‹_› rfl (writes_readSkipped.1 h)
    · exact exists_skipped .methodHandle ‹_› rfl (writes_readMethodHandle.1 h)
    · exact exists_skipped .methodType ‹_› rfl (writes_readSkipped.1 h)
    · exact exists_skipped .dynamic ‹_› rfl (writes_readSkipped.1 h)
    · exact exists_skipped .invokeDynamic ‹_› rfl (writes_readSkipped.1 h)
    · exact exists_skipped .moduleName ‹_› rfl (writes_readSkipped.1 h)
    · exact exists_skipped .packageName ‹_› rfl (writes_readSkipped.1 h)
    · exact (writes_fail.1 h).elim
  · rintro ⟨c, hfits, rfl, he⟩
    refine ⟨o, [], c.bytes, rfl, ⟨rfl, rfl⟩, c.tag, [c.tag], c.payload, rfl, rfl, ?_⟩
    cases c with
    | utf8 contents => exact writes_readUtf8.2 ⟨contents, hfits, rfl, he⟩
    | integer value =>
      exact (writes_map streams_u32).2 ⟨value, writes_u32.2 rfl, (Option.some.inj he).symm⟩
    | float bits =>
      exact (writes_map streams_u32).2 ⟨bits, writes_u32.2 rfl, (Option.some.inj he).symm⟩
    | long value =>
      exact (writes_map streams_u64).2 ⟨value, writes_u64.2 rfl, (Option.some.inj he).symm⟩
    | double bits =>
      exact (writes_map streams_u64).2 ⟨bits, writes_u64.2 rfl, (Option.some.inj he).symm⟩
    | classRef name =>
      exact (writes_map streams_u16).2 ⟨name, writes_u16.2 rfl, (Option.some.inj he).symm⟩
    | stringRef text =>
      exact (writes_map streams_u16).2 ⟨text, writes_u16.2 rfl, (Option.some.inj he).symm⟩
    | skipped kind contents =>
      cases kind
      case methodHandle =>
        exact writes_readMethodHandle.2 ⟨hfits, (Option.some.inj he).symm⟩
      all_goals exact writes_readSkipped.2 ⟨hfits, (Option.some.inj he).symm⟩

end PoolEntry

/-! ### The pool -/

theorem RawConstant.isWide_eq {c : RawConstant} {e : PoolEntry} (h : c.entry? = some e) :
    e.isWide = c.isWide := by
  cases c with
  | utf8 contents =>
    obtain ⟨t, -, rfl⟩ := Option.map_eq_some_iff.1 h
    rfl
  | _ => cases h; rfl

section Slots

variable {α : Type} {isWide : α → Bool} {x : α} {xs : List α}

theorem slotsOf_cons_of_wide (h : isWide x = true) :
    slotsOf isWide (x :: xs) = some x :: none :: slotsOf isWide xs := by
  simp [slotsOf, h]

theorem slotsOf_cons_of_not_wide (h : ¬isWide x = true) :
    slotsOf isWide (x :: xs) = some x :: slotsOf isWide xs := by
  simp [slotsOf, h]

/-- Only entries fill slots. -/
theorem mem_of_mem_slotsOf (h : some x ∈ slotsOf isWide xs) : x ∈ xs := by
  obtain ⟨y, hy, hmem⟩ := List.mem_flatMap.1 h
  split at hmem
  · obtain rfl : x = y := by simpa using hmem
    exact hy
  · obtain rfl : x = y := by simpa using hmem
    exact hy

end Slots

/-- The decoded constants and their slots. -/
def decodedSlots? (constants : List RawConstant) : Option (List (Option PoolEntry)) :=
  (constants.mapM RawConstant.entry?).map (slotsOf PoolEntry.isWide)

theorem decodedSlots?_cons {c : RawConstant} {cs : List RawConstant}
    {slots : List (Option PoolEntry)} :
    decodedSlots? (c :: cs) = some slots ↔
      ∃ e rest, c.entry? = some e ∧ decodedSlots? cs = some rest ∧
        slots = if c.isWide then some e :: none :: rest else some e :: rest := by
  simp only [decodedSlots?, List.mapM_cons, Option.map_eq_some_iff, Option.bind_eq_bind,
    Option.bind_eq_some_iff, Option.pure_def, Option.some_inj]
  constructor
  · rintro ⟨_, ⟨e, he, es, hes, rfl⟩, rfl⟩
    refine ⟨e, _, he, ⟨es, hes, rfl⟩, ?_⟩
    split
    · rename_i hwide
      exact slotsOf_cons_of_wide ((RawConstant.isWide_eq he).trans hwide)
    · rename_i hwide
      exact slotsOf_cons_of_not_wide fun h => hwide ((RawConstant.isWide_eq he).symm.trans h)
  · rintro ⟨e, _, he, ⟨es, hes, rfl⟩, rfl⟩
    refine ⟨e :: es, ⟨e, he, es, hes, rfl⟩, ?_⟩
    split
    · rename_i hwide
      exact slotsOf_cons_of_wide ((RawConstant.isWide_eq he).trans hwide)
    · rename_i hwide
      exact slotsOf_cons_of_not_wide fun h => hwide ((RawConstant.isWide_eq he).symm.trans h)

/-- **The constants that fill a number of slots** are read from the bytes that they have in the
layout. -/
theorem inverts_readSlots (count : UInt16) (n : Nat) :
    Inverts (ConstantPool.readSlots count n)
      (fun cs => (slotsOf RawConstant.isWide cs).length = n ∧ ∀ c ∈ cs, c.Fits)
      (List.flatMap RawConstant.bytes) decodedSlots? := by
  induction n using Nat.strong_induction_on with
  | _ n ih =>
    intro o front slots
    cases n with
    | zero =>
      rw [ConstantPool.readSlots, writes_pure]
      constructor
      · rintro ⟨rfl, rfl⟩
        exact ⟨[], ⟨rfl, by simp⟩, rfl, rfl⟩
      · rintro ⟨_ | ⟨c, cs⟩, ⟨hlen, -⟩, rfl, hres⟩
        · exact ⟨rfl, (Option.some.inj hres).symm⟩
        · rw [slotsOf, List.flatMap_cons] at hlen
          split at hlen <;> simp at hlen
    | succ n =>
      rw [ConstantPool.readSlots, writes_bind PoolEntry.streams_read]
      constructor
      · rintro ⟨e, f, g, rfl, he, h⟩
        obtain ⟨c, hfits, rfl, hce⟩ := (PoolEntry.inverts_read _ _ _).1 he
        rw [RawConstant.isWide_eq hce] at h
        split at h
        · rename_i hwide
          cases n with
          | zero =>
            simp only [writes_bind still_offset.streams, writes_fail, and_false, exists_false] at h
          | succ m =>
            simp only [writes_bind (ConstantPool.streams_readSlots count m), writes_pure] at h
            obtain ⟨rest, f, _, rfl, hrest, rfl, rfl⟩ := h
            obtain ⟨cs, ⟨hlen, hcs⟩, rfl, hres⟩ := (ih m (by omega) _ _ _).1 hrest
            refine ⟨c :: cs, ⟨?_, List.forall_mem_cons.2 ⟨hfits, hcs⟩⟩, by simp, ?_⟩
            · rw [slotsOf_cons_of_wide hwide, List.length_cons, List.length_cons, hlen]
            · exact decodedSlots?_cons.2 ⟨e, rest, hce, hres, by rw [if_pos hwide]⟩
        · rename_i hwide
          simp only [writes_bind (ConstantPool.streams_readSlots count n), writes_pure] at h
          obtain ⟨rest, f, _, rfl, hrest, rfl, rfl⟩ := h
          obtain ⟨cs, ⟨hlen, hcs⟩, rfl, hres⟩ := (ih n (by omega) _ _ _).1 hrest
          refine ⟨c :: cs, ⟨?_, List.forall_mem_cons.2 ⟨hfits, hcs⟩⟩, by simp, ?_⟩
          · rw [slotsOf_cons_of_not_wide hwide, List.length_cons, hlen]
          · exact decodedSlots?_cons.2 ⟨e, rest, hce, hres, by rw [if_neg hwide]⟩
      · rintro ⟨_ | ⟨c, cs⟩, ⟨hlen, hfits⟩, rfl, hres⟩
        · cases hlen
        · obtain ⟨hc, hcs⟩ := List.forall_mem_cons.1 hfits
          obtain ⟨e, rest, hce, hrest, rfl⟩ := decodedSlots?_cons.1 hres
          refine ⟨e, c.bytes, cs.flatMap RawConstant.bytes, rfl,
            (PoolEntry.inverts_read _ _ _).2 ⟨c, hc, rfl, hce⟩, ?_⟩
          rw [RawConstant.isWide_eq hce]
          split
          · rename_i hwide
            rw [slotsOf_cons_of_wide hwide, List.length_cons, List.length_cons] at hlen
            obtain ⟨m, rfl⟩ : ∃ m, n = m + 1 := ⟨_, (Nat.succ.inj hlen).symm⟩
            simp only [writes_bind (ConstantPool.streams_readSlots count m), writes_pure]
            exact ⟨rest, _, [], (List.append_nil _).symm,
              (ih m (by omega) _ _ _).2 ⟨cs, ⟨by omega, hcs⟩, rfl, hrest⟩, rfl, rfl⟩
          · rename_i hwide
            rw [slotsOf_cons_of_not_wide hwide, List.length_cons] at hlen
            simp only [writes_bind (ConstantPool.streams_readSlots count n), writes_pure]
            exact ⟨rest, _, [], (List.append_nil _).symm,
              (ih n (by omega) _ _ _).2 ⟨cs, ⟨by omega, hcs⟩, rfl, hrest⟩, rfl, rfl⟩

/-- What the declared count and the constants of a pool are. -/
theorem ConstantPool.writes_read {o : Nat} {front : Bytes} {pool : ConstantPool} :
    ConstantPool.read.Writes o front pool ↔
      ∃ cs : List RawConstant, (slotsOf RawConstant.isWide cs).length + 1 < 2 ^ 16 ∧
        (∀ c ∈ cs, c.Fits) ∧
        front = bigEndian 2 ((slotsOf RawConstant.isWide cs).length + 1) ++
          cs.flatMap RawConstant.bytes ∧
        ∃ slots, decodedSlots? cs = some slots ∧ pool = ⟨(none :: slots).toArray⟩ := by
  simp only [ConstantPool.read, writes_bind streams_u16, writes_u16]
  constructor
  · rintro ⟨count, _, g, rfl, rfl, h⟩
    have hlt := count.toNat_lt
    split at h
    · simp only [writes_bind still_offset.streams, writes_fail, and_false, exists_false] at h
    · rename_i n hn
      simp only [writes_bind (ConstantPool.streams_readSlots count n), writes_pure] at h
      obtain ⟨slots, f, _, rfl, hslots, rfl, rfl⟩ := h
      obtain ⟨cs, ⟨hlen, hfits⟩, rfl, hres⟩ := (inverts_readSlots count n _ _ _).1 hslots
      rw [hn] at hlt ⊢
      refine ⟨cs, by rwa [hlen], hfits, ?_, slots, hres, rfl⟩
      rw [hlen, List.append_nil]
  · rintro ⟨cs, hlt, hfits, rfl, slots, hres, rfl⟩
    have hcount := UInt16.toNat_ofNat_of_lt' hlt
    refine ⟨UInt16.ofNat _, _, _, rfl, by rw [hcount], ?_⟩
    rw [hcount]
    simp only [writes_bind (ConstantPool.streams_readSlots _ _), writes_pure]
    exact ⟨slots, _, [], (List.append_nil _).symm,
      (inverts_readSlots _ _ _ _ _).2 ⟨cs, ⟨rfl, hfits⟩, rfl, hres⟩, rfl, rfl⟩

/-! ### What the numbers refer to -/

/-- **Denoting the constants of a layout**: at each number the pool has the decoded constant that
stands there, and nothing where none stands. -/
def ConstantPool.Denotes (pool : ConstantPool) (constants : List RawConstant) : Prop :=
  ∀ i, (constantNo? constants i = none ∧ ∃ e, pool.get i = .error e) ∨
    ∃ c e, constantNo? constants i = some c ∧ c.entry? = some e ∧ pool.get i = .ok e

/-- Decoding keeps the slots. -/
theorem decodedSlots?_eq {cs : List RawConstant} {slots : List (Option PoolEntry)}
    (h : decodedSlots? cs = some slots) :
    slots = (slotsOf RawConstant.isWide cs).map (·.bind RawConstant.entry?) ∧
      ∀ c ∈ cs, ∃ e, c.entry? = some e := by
  induction cs generalizing slots with
  | nil =>
    obtain rfl := Option.some.inj h
    exact ⟨rfl, by simp⟩
  | cons c cs ih =>
    obtain ⟨e, rest, hce, hrest, rfl⟩ := decodedSlots?_cons.1 h
    obtain ⟨rfl, hcs⟩ := ih hrest
    refine ⟨?_, List.forall_mem_cons.2 ⟨⟨e, hce⟩, hcs⟩⟩
    split
    · rename_i hwide
      rw [slotsOf_cons_of_wide hwide]
      simp [hce]
    · rename_i hwide
      rw [slotsOf_cons_of_not_wide hwide]
      simp [hce]

/-- **The pool that is read denotes the constants that are laid out.** -/
theorem denotes_of_decodedSlots? {cs : List RawConstant} {slots : List (Option PoolEntry)}
    (h : decodedSlots? cs = some slots) :
    ConstantPool.Denotes ⟨(none :: slots).toArray⟩ cs := by
  obtain ⟨rfl, hall⟩ := decodedSlots?_eq h
  intro i
  have hslot : (none :: (slotsOf RawConstant.isWide cs).map (·.bind RawConstant.entry?))[i.toNat]? =
      ((none :: slotsOf RawConstant.isWide cs)[i.toNat]?).map (·.bind RawConstant.entry?) := by
    rw [← List.getElem?_map]
    rfl
  rw [constantNo?, ConstantPool.get, List.getElem?_toArray, hslot]
  rcases hi : (none :: slotsOf RawConstant.isWide cs)[i.toNat]? with _ | _ | c
  · exact .inl ⟨rfl, _, rfl⟩
  · exact .inl ⟨rfl, _, rfl⟩
  · have hmem : some c ∈ slotsOf RawConstant.isWide cs := by
      simpa using List.mem_of_getElem? hi
    obtain ⟨e, he⟩ := hall c (mem_of_mem_slotsOf hmem)
    exact .inr ⟨c, e, rfl, he, by simp [he]⟩

section References

variable {pool : ConstantPool} {constants : List RawConstant} {i : UInt16}

theorem ConstantPool.Denotes.utf8_eq_ok (h : pool.Denotes constants) {t : String} :
    pool.utf8 i = .ok t ↔ text? constants i = some t := by
  rw [ConstantPool.utf8, text?]
  rcases h i with ⟨hno, e, he⟩ | ⟨c, e, hc, hce, he⟩
  · rw [hno, he]
    simp [bind, Except.bind]
  · rw [hc, he]
    cases c with
    | utf8 contents =>
      obtain ⟨u, hu, rfl⟩ := Option.map_eq_some_iff.1 hce
      simp [bind, Except.bind, hu]
    | _ => cases hce; simp [bind, Except.bind]

theorem ConstantPool.Denotes.className_eq_ok (h : pool.Denotes constants) {t : String} :
    pool.className i = .ok t ↔ className? constants i = some t := by
  rw [ConstantPool.className, className?]
  rcases h i with ⟨hno, e, he⟩ | ⟨c, e, hc, hce, he⟩
  · rw [hno, he]
    simp [bind, Except.bind]
  · rw [hc, he]
    cases c with
    | utf8 contents =>
      obtain ⟨u, hu, rfl⟩ := Option.map_eq_some_iff.1 hce
      simp [bind, Except.bind]
    | classRef name =>
      cases hce
      exact h.utf8_eq_ok
    | _ => cases hce; simp [bind, Except.bind]

theorem ConstantPool.Denotes.superclassAt_eq_ok (h : pool.Denotes constants) {t : Option String} :
    superclassAt pool i = .ok t ↔ superName? constants i = some t := by
  rw [superclassAt, superName?]
  split
  · simp
  · rw [Option.map_eq_some_iff]
    constructor
    · intro ht
      rcases hname : pool.className i with e | name
      · simp [hname, Except.map] at ht
      · exact ⟨name, h.className_eq_ok.1 hname, by simpa [hname, Except.map] using ht⟩
    · rintro ⟨name, hname, rfl⟩
      rw [h.className_eq_ok.2 hname]
      rfl

theorem ConstantPool.Denotes.objectType_eq_ok (h : pool.Denotes constants) {t : String} :
    objectType pool i = .ok t ↔ objectName? constants i = some t := by
  rw [objectType, objectName?]
  rcases htext : text? constants i with _ | text
  · rcases hutf8 : pool.utf8 i with e | text
    · simp [bind, Except.bind]
    · rw [h.utf8_eq_ok.1 hutf8] at htext
      cases htext
  · rw [h.utf8_eq_ok.2 htext]
    simp only [bind, Except.bind, Option.bind_some, FieldType.parse]
    rcases FieldType.ofText? text with _ | _ | _ | _ <;> simp

theorem ConstantPool.Denotes.stringConstant_eq_ok (h : pool.Denotes constants) {t : String} :
    pool.stringConstant i = .ok t ↔ string? constants i = some t := by
  rw [ConstantPool.stringConstant, string?, text?]
  rcases h i with ⟨hno, e, he⟩ | ⟨c, e, hc, hce, he⟩
  · rw [hno, he]
    simp [bind, Except.bind]
  · rw [hc, he]
    cases c with
    | utf8 contents =>
      obtain ⟨u, hu, rfl⟩ := Option.map_eq_some_iff.1 hce
      simp [bind, Except.bind, hu]
    | stringRef text =>
      cases hce
      exact h.utf8_eq_ok
    | _ => cases hce; simp [bind, Except.bind]

theorem charConstant_eq_ok {code : UInt32} {v : Constant} :
    charConstant code = .ok v ↔
      (if code.toNat.isValidChar then some (Constant.char (Char.ofNat code.toNat)) else none) =
        some v := by
  by_cases hvalid : code.toNat.isValidChar
  · rw [charConstant, dif_pos hvalid, if_pos hvalid, Char.ofNat, dif_pos hvalid, Except.ok.injEq,
      Option.some.injEq]
  · rw [charConstant, dif_neg hvalid, if_neg hvalid]
    simp

theorem ConstantPool.Denotes.constantAt_eq_ok (h : pool.Denotes constants) {kind : ConstantTag}
    {v : Constant} :
    constantAt pool kind i = .ok v ↔ constantValue? constants kind i = some v := by
  cases kind
  case string =>
    rw [constantAt, constantValue?]
    rcases hs : string? constants i with _ | t
    · rcases hp : pool.stringConstant i with e | t
      · simp [bind, Except.bind]
      · rw [h.stringConstant_eq_ok.1 hp] at hs
        cases hs
    · rw [h.stringConstant_eq_ok.2 hs]
      simp [bind, Except.bind, pure, Except.pure]
  all_goals
    rw [constantAt.eq_def, constantValue?.eq_def]
    rcases h i with ⟨hno, e, he⟩ | ⟨c, e, hc, hce, he⟩
    · rw [hno, he]
      simp [bind, Except.bind]
    · rw [hc, he]
      cases c with
      | utf8 contents =>
        obtain ⟨u, hu, rfl⟩ := Option.map_eq_some_iff.1 hce
        simp [bind, Except.bind]
      | _ => cases hce; simp [bind, Except.bind, charConstant_eq_ok]

end References

end Classpath.ClassFile

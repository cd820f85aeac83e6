import Classpath.ClassFile.Reader
import Mathlib.Data.List.Infix

/-!
# Readers that stream

What a reader does with a region is a matter of the bytes at its front. A reader **streams** if,
whenever it succeeds, it has consumed some bytes from the front, would have returned the same value
before any other continuation, and would have found the region truncated had those bytes been cut
short anywhere. Readers of nested structures stream too: the length of a nested region is read
before its contents are looked at, so no error of the contents can come before the cut.

Every reader of class files is made of a few parts, and there is one rule for each of them. A value
that a streaming reader reads is settled by the bytes that it consumes, which is what makes the
format one without a proper prefix of a file being a file
(`Classpath.ClassFile.Reader.Truncates.whole`).

* `Classpath.ClassFile.Reader.Writes` – the bytes that a value is read from.
* `Classpath.ClassFile.Reader.Streams` – the readers in question.
* `Classpath.ClassFile.Reader.writes_bind`, `Classpath.ClassFile.Reader.Streams.bind` – one read
  after another, the rule that the others come down to.
* `Classpath.ClassFile.Reader.AgreeUpTo` – readers that do the same on short regions.
-/

namespace Classpath.ClassFile.Reader

variable {α β : Type} {r r' : Reader α} {k k' : α → Reader β} {o : Nat} {front cut : Bytes} {a : α}
  {b : β}

/-- **Writing a value**: before every continuation, the reader that starts at `o` reads `a` from the
bytes `front`, all of them and nothing else. -/
def Writes (r : Reader α) (o : Nat) (front : Bytes) (a : α) : Prop :=
  ∀ rest, r ⟨front ++ rest, o⟩ = .ok (a, ⟨rest, o + front.length⟩)

/-- The reader finds `contents` too short, at an offset inside them or at their end. -/
def Truncates (r : Reader α) (o : Nat) (contents : Bytes) : Prop :=
  ∃ p, p ≤ o + contents.length ∧ r ⟨contents, o⟩ = .error ⟨.truncated, some p⟩

/-- **Streaming**: what is read depends on the bytes that are consumed, and every proper prefix of
these is too short. -/
structure Streams (r : Reader α) : Prop where
  consumes {s s' : Region} {a : α} : r s = .ok (a, s') →
    ∃ front, s.rest = front ++ s'.rest ∧ r.Writes s.offset front a
  truncates {o : Nat} {front cut : Bytes} {a : α} : r.Writes o front a → cut <+: front →
    cut ≠ front → r.Truncates o cut

/-! ### What is read -/

/-- The value is read, and nothing is left, when the region ends where the value does. -/
theorem Writes.run_eq (h : r.Writes o front a) :
    r ⟨front, o⟩ = .ok (a, ⟨[], o + front.length⟩) := by
  simpa using h []

/-- A reader that streams is at the end of what it consumed. -/
theorem Streams.offset_eq (hr : r.Streams) {s s' : Region} (h : r s = .ok (a, s')) :
    ∃ front, s = ⟨front ++ s'.rest, s.offset⟩ ∧ s' = ⟨s'.rest, s.offset + front.length⟩ ∧
      r.Writes s.offset front a := by
  obtain ⟨front, hs, hw⟩ := hr.consumes h
  have hs' : s = ⟨front ++ s'.rest, s.offset⟩ := by rw [← hs]
  refine ⟨front, hs', ?_, hw⟩
  have := hw s'.rest
  rw [← hs', h] at this
  exact (Prod.mk.inj (Except.ok.inj this)).2

/-- Whether bytes write a value shows on a region that ends with them. -/
theorem Streams.writes_iff (hr : r.Streams) :
    r.Writes o front a ↔ r ⟨front, o⟩ = .ok (a, ⟨[], o + front.length⟩) := by
  refine ⟨Writes.run_eq, fun h => ?_⟩
  obtain ⟨f, hf, -, hw⟩ := hr.offset_eq h
  have hfront : front = f := by simpa using congrArg Region.rest hf
  exact hfront ▸ hw

/-- Reading does not lengthen the region. -/
theorem Streams.length_le (hr : r.Streams) {s s' : Region} (h : r s = .ok (a, s')) :
    s'.rest.length ≤ s.rest.length := by
  obtain ⟨front, hs, -⟩ := hr.consumes h
  simp [hs]

/-! ### The rule of sequence -/

theorem pure_apply (a : α) (s : Region) : (Pure.pure a : Reader α) s = .ok (a, s) :=
  rfl

theorem bind_ok {s s' : Region} (h : r s = .ok (a, s')) : (r >>= k) s = k a s' := by
  simp only [Bind.bind, Reader.bind, h]

theorem bind_error {s : Region} {e : ReadError} (h : r s = .error e) :
    (r >>= k) s = .error e := by
  simp only [Bind.bind, Reader.bind, h]

theorem bind_assoc {γ : Type} {l : β → Reader γ} :
    r >>= k >>= l = r >>= fun a => k a >>= l := by
  funext s
  rcases h : r s with e | ⟨a, t⟩
  · rw [bind_error h, bind_error (bind_error h)]
  · rw [bind_ok h]
    rcases hk : k a t with e | ⟨b, u⟩
    · rw [bind_error hk, bind_error ((bind_ok h).trans hk)]
    · rw [bind_ok hk, bind_ok ((bind_ok h).trans hk)]

/-- A sequence succeeds if both of its parts do. -/
theorem bind_eq_ok {s s' : Region} :
    (r >>= k) s = .ok (b, s') ↔ ∃ a t, r s = .ok (a, t) ∧ k a t = .ok (b, s') := by
  rcases h : r s with e | ⟨a, t⟩
  · simp [bind_error h]
  · rw [bind_ok h]
    simp

/-- **Sequences write one value after the other.** -/
theorem writes_bind (hr : r.Streams) :
    (r >>= k).Writes o front b ↔
      ∃ a f g, front = f ++ g ∧ r.Writes o f a ∧ (k a).Writes (o + f.length) g b := by
  constructor
  · intro h
    obtain ⟨a, t, hra, -⟩ := bind_eq_ok.1 h.run_eq
    obtain ⟨f, hfront, ht, hw⟩ := hr.offset_eq hra
    have hfront : front = f ++ t.rest := congrArg Region.rest hfront
    refine ⟨a, f, t.rest, hfront, hw, fun rest => ?_⟩
    have := h rest
    rwa [hfront, List.append_assoc, bind_ok (hw (t.rest ++ rest)), List.length_append,
      ← Nat.add_assoc] at this
  · rintro ⟨a, f, g, rfl, hf, hg⟩ rest
    rw [List.append_assoc, bind_ok (hf (g ++ rest)), hg rest, List.length_append, Nat.add_assoc]

/-- A proper prefix of a concatenation ends inside its first part or inside its second one. -/
theorem prefix_append_cases {cut f g : Bytes} (h : cut <+: f ++ g) (hne : cut ≠ f ++ g) :
    (cut <+: f ∧ cut ≠ f) ∨ ∃ c, cut = f ++ c ∧ c <+: g ∧ c ≠ g := by
  rcases List.prefix_or_prefix_of_prefix h (List.prefix_append f g) with hcut | ⟨c, rfl⟩
  · by_cases heq : cut = f
    · subst heq
      exact .inr ⟨[], by simp, List.nil_prefix, fun h => hne (by simp [← h])⟩
    · exact .inl ⟨hcut, heq⟩
  · refine .inr ⟨c, rfl, (List.prefix_append_right_inj f).1 h, ?_⟩
    rintro rfl
    exact hne rfl

theorem Streams.bind (hr : r.Streams) (hk : ∀ a, (k a).Streams) : (r >>= k).Streams where
  consumes {s s' b} h := by
    obtain ⟨a, t, hra, hkb⟩ := bind_eq_ok.1 h
    obtain ⟨f, hs, ht, hf⟩ := hr.offset_eq hra
    obtain ⟨g, htg, hg⟩ := (hk a).consumes hkb
    have ho : t.offset = s.offset + f.length := congrArg Region.offset ht
    refine ⟨f ++ g, ?_, (writes_bind hr).2 ⟨a, f, g, rfl, hf, ho ▸ hg⟩⟩
    rw [List.append_assoc, ← htg]
    exact congrArg Region.rest hs
  truncates {o front cut b} h hcut hne := by
    obtain ⟨a, f, g, rfl, hf, hg⟩ := (writes_bind hr).1 h
    rcases prefix_append_cases hcut hne with ⟨hcut, hne⟩ | ⟨c, rfl, hc, hne⟩
    · obtain ⟨p, hp, hfail⟩ := hr.truncates hf hcut hne
      exact ⟨p, hp, bind_error hfail⟩
    · obtain ⟨p, hp, hfail⟩ := (hk a).truncates hg hc hne
      refine ⟨p, ?_, (bind_ok (hf c)).trans hfail⟩
      rw [List.length_append]
      omega

/-! ### Readers that consume nothing -/

/-- **Standing still**: at each offset the reader fails, or returns a value, whatever is there. -/
def Still (r : Reader α) : Prop :=
  ∀ o, (∃ e, ∀ rest, r ⟨rest, o⟩ = .error e) ∨ ∃ a, ∀ rest, r ⟨rest, o⟩ = .ok (a, ⟨rest, o⟩)

theorem Still.writes_iff (h : r.Still) :
    r.Writes o front a ↔ front = [] ∧ r ⟨[], o⟩ = .ok (a, ⟨[], o⟩) := by
  constructor
  · intro hw
    have hrun := hw.run_eq
    rcases h o with ⟨e, he⟩ | ⟨a', ha⟩
    · simp [he] at hrun
    · rw [ha] at hrun
      obtain ⟨rfl, ht⟩ := Prod.mk.inj (Except.ok.inj hrun)
      exact ⟨congrArg Region.rest ht, ha []⟩
  · rintro ⟨rfl, ha⟩ rest
    rcases h o with ⟨e, he⟩ | ⟨a', ha'⟩
    · simp [he] at ha
    · rw [ha'] at ha
      obtain ⟨rfl, -⟩ := Prod.mk.inj (Except.ok.inj ha)
      exact ha' rest

theorem Still.streams (h : r.Still) : r.Streams where
  consumes {s s' a} hs := by
    rcases h s.offset with ⟨e, he⟩ | ⟨a', ha⟩
    · cases hs.symm.trans (he s.rest)
    · obtain ⟨rfl, rfl⟩ := Prod.mk.inj (Except.ok.inj (hs.symm.trans (ha s.rest)))
      exact ⟨[], rfl, h.writes_iff.2 ⟨rfl, ha []⟩⟩
  truncates {o front cut a} hw hcut hne := by
    -- nothing is consumed, so nothing can be cut off
    obtain ⟨rfl, -⟩ := h.writes_iff.1 hw
    exact absurd (List.prefix_nil.1 hcut) hne

theorem still_pure (a : α) : (pure a : Reader α).Still :=
  fun _ => .inr ⟨a, fun _ => rfl⟩

theorem still_offset : offset.Still :=
  fun o => .inr ⟨o, fun _ => rfl⟩

theorem still_fail (cause : Cause) (p : Nat) : (fail cause p : Reader α).Still :=
  fun _ => .inl ⟨_, fun _ => rfl⟩

theorem still_ofExcept (p : Nat) (x : Except ReadError α) : (ofExcept p x).Still :=
  fun _ => by
    cases x with
    | ok a => exact .inr ⟨a, fun _ => rfl⟩
    | error e => exact .inl ⟨_, fun _ => rfl⟩

/-- What is read from a region of its own consumes nothing of the region around it. -/
theorem still_within (region : Region) (r : Reader α) : (within region r).Still :=
  fun _ => by
    rcases h : r region with e | ⟨a, t⟩
    · exact .inl ⟨e, fun _ => by simp only [within, h]⟩
    · exact .inr ⟨a, fun _ => by simp only [within, h]⟩

@[simp] theorem writes_pure {a' : α} :
    (pure a : Reader α).Writes o front a' ↔ front = [] ∧ a' = a := by
  rw [(still_pure a).writes_iff]
  simp [pure_apply, eq_comm]

@[simp] theorem writes_offset {p : Nat} : offset.Writes o front p ↔ front = [] ∧ p = o := by
  rw [still_offset.writes_iff]
  simp [offset, eq_comm]

@[simp] theorem writes_fail {cause : Cause} {p : Nat} :
    (fail cause p : Reader α).Writes o front a ↔ False := by
  rw [(still_fail cause p).writes_iff]
  simp [fail]

@[simp] theorem writes_ofExcept {p : Nat} {x : Except ReadError α} :
    (ofExcept p x).Writes o front a ↔ front = [] ∧ x = .ok a := by
  rw [(still_ofExcept p x).writes_iff]
  cases x <;> simp [ofExcept]

@[simp] theorem writes_within {region : Region} :
    (within region r).Writes o front a ↔ front = [] ∧ ∃ t, r region = .ok (a, t) := by
  rw [(still_within region r).writes_iff]
  rcases h : r region with e | ⟨a', t⟩ <;> simp [within, h]

/-! ### The parts of readers -/

theorem splitAt?_eq_some {n : Nat} {l front rest : List α} :
    splitAt? n l = some (front, rest) ↔ l = front ++ rest ∧ front.length = n := by
  induction n generalizing l front with
  | zero =>
    rw [splitAt?, List.length_eq_zero_iff, Option.some_inj, Prod.mk.injEq]
    constructor
    · rintro ⟨rfl, rfl⟩
      exact ⟨rfl, rfl⟩
    · rintro ⟨rfl, rfl⟩
      exact ⟨rfl, rfl⟩
  | succ n ih =>
    cases l with
    | nil => cases front <;> simp [splitAt?]
    | cons c l =>
      cases front with
      | nil => simp [splitAt?]
      | cons d front =>
        simp only [splitAt?, Option.map_eq_some_iff, Prod.exists, Prod.mk.injEq, List.cons.injEq,
          List.cons_append, List.length_cons, Nat.add_right_cancel_iff]
        constructor
        · rintro ⟨f, t, hsplit, ⟨rfl, rfl⟩, rfl⟩
          obtain ⟨hl, hn⟩ := ih.1 hsplit
          exact ⟨⟨rfl, hl⟩, hn⟩
        · rintro ⟨⟨rfl, hl⟩, hn⟩
          exact ⟨front, rest, ih.2 ⟨hl, hn⟩, ⟨rfl, rfl⟩, rfl⟩

@[simp] theorem writes_bytes {n : Nat} {bs : Bytes} :
    (bytes n).Writes o front bs ↔ front = bs ∧ bs.length = n := by
  constructor
  · intro h
    have hrun := h.run_eq
    rw [bytes] at hrun
    split at hrun
    · rename_i f rest hsplit
      obtain ⟨rfl, ht⟩ := Prod.mk.inj (Except.ok.inj hrun)
      obtain ⟨hfront, hn⟩ := splitAt?_eq_some.1 hsplit
      have hrest : rest = [] := congrArg Region.rest ht
      rw [hrest, List.append_nil] at hfront
      exact ⟨hfront, hn⟩
    · cases hrun
  · rintro ⟨rfl, rfl⟩ rest
    rw [bytes, splitAt?_eq_some.2 ⟨rfl, rfl⟩]

theorem streams_bytes (n : Nat) : (bytes n).Streams where
  consumes {s s' bs} h := by
    rw [bytes] at h
    split at h
    · rename_i f rest hsplit
      obtain ⟨rfl, rfl⟩ := Prod.mk.inj (Except.ok.inj h)
      obtain ⟨hs, hn⟩ := splitAt?_eq_some.1 hsplit
      exact ⟨f, hs, writes_bytes.2 ⟨rfl, hn⟩⟩
    · cases h
  truncates {o front cut bs} h hcut hne := by
    obtain ⟨rfl, rfl⟩ := writes_bytes.1 h
    refine ⟨o, by omega, ?_⟩
    rw [bytes]
    split
    · rename_i f rest hsplit
      -- a proper prefix has fewer bytes than are asked for
      obtain ⟨rfl, hn⟩ := splitAt?_eq_some.1 hsplit
      have hle := hcut.length_le
      rw [List.length_append] at hle
      exact absurd (hcut.eq_of_length (by rw [List.length_append]; omega)) hne
    · rfl

theorem streams_u8 : u8.Streams :=
  (streams_bytes 1).bind fun _ => (still_pure _).streams

theorem streams_u16 : u16.Streams :=
  (streams_bytes 2).bind fun _ => (still_pure _).streams

theorem streams_u32 : u32.Streams :=
  (streams_bytes 4).bind fun _ => (still_pure _).streams

theorem streams_u64 : u64.Streams :=
  (streams_bytes 8).bind fun _ => (still_pure _).streams

theorem streams_reference (find : UInt16 → Except ReadError α) : (reference find).Streams :=
  still_offset.streams.bind fun _ =>
    streams_u16.bind fun _ => (still_ofExcept _ _).streams

theorem Streams.times (hr : r.Streams) (n : Nat) : (r.times n).Streams := by
  induction n with
  | zero => exact (still_pure _).streams
  | succ n ih => exact hr.bind fun _ => ih.bind fun _ => (still_pure _).streams

/-! ### Values that fill a region -/

/-- A value that fills its region is one that is written by the whole of it. -/
theorem Streams.whole_eq_ok (hr : r.Streams) {s t : Region} :
    r.whole s = .ok (a, t) ↔
      r.Writes s.offset s.rest a ∧ t = ⟨[], s.offset + s.rest.length⟩ := by
  constructor
  · intro h
    obtain ⟨a', u, ha, hdone⟩ := bind_eq_ok.1 h
    obtain ⟨f, hs, hu, hw⟩ := hr.offset_eq ha
    obtain ⟨⟨⟩, v, hv, hpure⟩ := bind_eq_ok.1 hdone
    obtain ⟨rfl, rfl⟩ := Prod.mk.inj (Except.ok.inj hpure)
    rw [done] at hv
    split at hv
    · rename_i hrest
      obtain ⟨-, rfl⟩ := Prod.mk.inj (Except.ok.inj hv)
      have hnil : u.rest = [] := List.isEmpty_iff.1 hrest
      have hf : s.rest = f := by
        have := congrArg Region.rest hs
        rwa [hnil, List.append_nil] at this
      rw [hf]
      exact ⟨hw, by rw [hu, hnil]⟩
    · cases hv
  · rintro ⟨hw, rfl⟩
    exact bind_ok hw.run_eq

/-- What is too short for a reader is too short for it to fill. -/
theorem Truncates.whole (h : r.Truncates o cut) : r.whole.Truncates o cut := by
  obtain ⟨p, hp, hfail⟩ := h
  exact ⟨p, hp, bind_error hfail⟩

/-- Bytes after a value that should fill its region are reported, with their number, where they
start. -/
theorem Writes.whole_append (h : r.Writes o front a) {rest : Bytes} (hrest : rest ≠ []) :
    r.whole ⟨front ++ rest, o⟩ =
      .error ⟨.trailingBytes rest.length, some (o + front.length)⟩ := by
  have hdone : done ⟨rest, o + front.length⟩ =
      .error ⟨.trailingBytes rest.length, some (o + front.length)⟩ := by
    rw [done, if_neg (by simpa using hrest)]
  exact (bind_ok (h rest)).trans (bind_error hdone)

/-! ### Readers that agree on short regions -/

/-- The readers do the same on regions of at most `n` bytes. -/
def AgreeUpTo (n : Nat) (r r' : Reader α) : Prop :=
  ∀ s : Region, s.rest.length ≤ n → r s = r' s

variable {n : Nat}

theorem AgreeUpTo.refl (n : Nat) (r : Reader α) : AgreeUpTo n r r :=
  fun _ _ => rfl

theorem AgreeUpTo.bind (hr : r.Streams) (h : AgreeUpTo n r r')
    (hk : ∀ a, AgreeUpTo n (k a) (k' a)) : AgreeUpTo n (r >>= k) (r' >>= k') := by
  intro s hs
  rcases hrs : r s with e | ⟨a, t⟩
  · rw [bind_error hrs, bind_error (h s hs ▸ hrs)]
  · rw [bind_ok hrs, bind_ok (h s hs ▸ hrs)]
    exact hk a t ((hr.length_le hrs).trans hs)

theorem AgreeUpTo.times (hr : r.Streams) (h : AgreeUpTo n r r') (m : Nat) :
    AgreeUpTo n (r.times m) (r'.times m) := by
  induction m with
  | zero => exact .refl n _
  | succ m ih => exact h.bind hr fun _ => ih.bind (hr.times m) fun _ => .refl n _

/-- After the byte of a tag there is one byte less to agree on. -/
theorem agreeUpTo_u8_bind {k k' : UInt8 → Reader β} (h : ∀ tag, AgreeUpTo n (k tag) (k' tag)) :
    AgreeUpTo (n + 1) (u8 >>= k) (u8 >>= k') := by
  intro s hs
  rcases hu : u8 s with e | ⟨tag, t⟩
  · rw [bind_error hu, bind_error hu]
  · rw [bind_ok hu, bind_ok hu]
    refine h tag t ?_
    obtain ⟨bs, u, hbs, hpure⟩ := bind_eq_ok.1 hu
    obtain ⟨f, hf, hw⟩ := (streams_bytes 1).consumes hbs
    obtain ⟨rfl, hlen⟩ := writes_bytes.1 hw
    obtain ⟨-, rfl⟩ := Prod.mk.inj (Except.ok.inj hpure)
    rw [hf, List.length_append] at hs
    omega

end Classpath.ClassFile.Reader

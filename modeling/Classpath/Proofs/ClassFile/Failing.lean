import Classpath.Proofs.ClassFile.Constants

/-!
# Where readers fail

A reader that fails says where. Most reads that can fail are the first thing that is done once some
bytes are consumed, whatever these are followed by; a reader is said to **come to** such a read
(`Classpath.ClassFile.Reader.ComesTo`). An error is **located** if it is the failure of a read that
the reader comes to, at the offset it comes to it: of a read of more bytes than are left, of a check
that nothing is left, or of one of the reads that a format adds to these. The other errors are about
something that was read before, and are placed back in the region, where that starts.

Readers are made of parts, and errors are located in the whole if they are located in the parts:
there is one rule for each way of putting readers together. The rules are about regions of bounded
length, because the reader of nested values calls itself on shorter ones, and about regions that
start at some offset or after it, because that is where such an error is placed.

* `Classpath.ClassFile.Reader.ComesTo` – the read that follows some bytes.
* `Classpath.ClassFile.Reader.Located` – errors that are placed where they arise.
* `Classpath.ClassFile.Reader.LocatesBelow` – readers all of whose errors are.
* `Classpath.ClassFile.Reader.LocatesBelow.bind` – one read after another.
-/

namespace Classpath.ClassFile

/-- The causes that are about something read before they are found: they are placed at its start. -/
def Cause.LooksBack : Cause → Prop
  | .badMagic _ | .badConstantTag _ | .badModifiedUtf8 | .badElementTag _ => True
  | .badAttribute name => name = "Code"
  | _ => False

namespace Reader

variable {α β γ : Type} {r : Reader α} {k : α → Reader β} {o lo n : Nat} {front rest : Bytes}
  {a : α}

/-! ### Failing -/

/-- A sequence fails if one of its parts does. -/
theorem bind_eq_error {s : Region} {e : ReadError} :
    (r >>= k) s = .error e ↔
      r s = .error e ∨ ∃ a t, r s = .ok (a, t) ∧ k a t = .error e := by
  rcases h : r s with e' | ⟨a, t⟩
  · simp [bind_error h]
  · rw [bind_ok h]
    simp

/-- What is made of a value fails just if the value does. -/
theorem map_eq_error {f : α → β} {s : Region} {e : ReadError} :
    (r >>= fun a => (pure (f a) : Reader β)) s = .error e ↔ r s = .error e := by
  rw [bind_eq_error, or_iff_left]
  rintro ⟨a, t, -, hpure⟩
  cases hpure

/-- Bytes are too few for a read just if there are less than it asks for. -/
theorem bytes_eq_error {s : Region} {e : ReadError} :
    bytes n s = .error e ↔ s.rest.length < n ∧ e = ⟨.truncated, some s.offset⟩ := by
  rw [bytes]
  split
  · rename_i f rest hsplit
    obtain ⟨hs, rfl⟩ := splitAt?_eq_some.1 hsplit
    rw [hs, List.length_append]
    constructor
    · intro h
      cases h
    · rintro ⟨hlt, -⟩
      omega
  · rename_i hsplit
    have hlt : s.rest.length < n := by
      by_contra hle
      have hfront := splitAt?_eq_some.2 ⟨(List.take_append_drop n s.rest).symm,
        List.length_take_of_le (Nat.le_of_not_lt hle)⟩
      cases hsplit.symm.trans hfront
    simp [hlt, eq_comm]

/-! ### Coming to a read -/

/-- **Coming to a read**: having consumed `front`, the reader runs `p` first, whatever follows. -/
def ComesTo (r : Reader α) (o : Nat) (front : Bytes) (p : Reader γ) : Prop :=
  ∃ k : γ → Reader α, ∀ rest, r ⟨front ++ rest, o⟩ = (p >>= k) ⟨rest, o + front.length⟩

theorem bind_pure : (r >>= fun a => pure a) = r := by
  funext s
  rcases h : r s with e | ⟨a, t⟩
  · rw [bind_error h]
  · rw [bind_ok h, pure_apply]

/-- What is done after a read depends on its outcome alone. -/
theorem bind_congr {r' : Reader α} {s s' : Region} (h : r s = r' s') :
    (r >>= k) s = (r' >>= k) s' := by
  rcases hr : r s with e | ⟨a, t⟩
  · rw [bind_error hr, bind_error (h ▸ hr)]
  · rw [bind_ok hr, bind_ok (h ▸ hr)]

/-- A reader comes to itself at once. -/
theorem ComesTo.refl (r : Reader α) (o : Nat) : r.ComesTo o [] r :=
  ⟨pure, fun rest => by rw [bind_pure]; rfl⟩

/-- What the first of two reads comes to, both of them come to. -/
theorem ComesTo.bind {p : Reader γ} (h : r.ComesTo o front p) : (r >>= k).ComesTo o front p := by
  obtain ⟨l, hl⟩ := h
  exact ⟨fun c => l c >>= k, fun rest => (bind_congr (hl rest)).trans (by rw [bind_assoc])⟩

/-- What the second of two reads comes to, both of them come to, past the bytes of the first. -/
theorem ComesTo.of_writes {g : Bytes} {p : Reader γ} (hw : r.Writes o front a)
    (h : (k a).ComesTo (o + front.length) g p) : (r >>= k).ComesTo o (front ++ g) p := by
  obtain ⟨l, hl⟩ := h
  refine ⟨l, fun rest => ?_⟩
  rw [List.append_assoc, bind_ok (hw (g ++ rest)), hl rest, List.length_append, Nat.add_assoc]

/-! ### Located errors -/

/-- Reads that can fail: a reader, a region and its error there. -/
abbrev Faults : Type 1 :=
  (γ : Type) → Reader γ → Region → ReadError → Prop

/-- The reads that fail where they start: of more bytes than there are, of nothing where there is
something, and those of `F`. -/
inductive Fault (F : Faults) : (γ : Type) → Reader γ → Region → ReadError → Prop
  | short {n : Nat} {s : Region} (lt : s.rest.length < n) :
    Fault F Bytes (bytes n) s ⟨.truncated, some s.offset⟩
  | trailing {s : Region} (ne : s.rest ≠ []) :
    Fault F Unit done s ⟨.trailingBytes s.rest.length, some s.offset⟩
  | other {γ : Type} {p : Reader γ} {s : Region} {e : ReadError} (is : F γ p s e) : Fault F γ p s e

/-- **A located error** is the failure of a read that the reader comes to, or it is about something
that was read before and placed in the region. -/
inductive Located (F : Faults) (r : Reader α) (s : Region) : ReadError → Prop
  | read {front rest : Bytes} {γ : Type} {p : Reader γ} {e : ReadError}
    (rest_eq : s.rest = front ++ rest) (comes : r.ComesTo s.offset front p)
    (fault : Fault F γ p ⟨rest, s.offset + front.length⟩ e) : Located F r s e
  | back {cause : Cause} {p : Nat} (looks : cause.LooksBack)
    (le : p ≤ s.offset + s.rest.length) : Located F r s ⟨cause, some p⟩

/-- On regions of less than `n` bytes that do not start before `lo`, every error is located. -/
def LocatesBelow (F : Faults) (lo n : Nat) (r : Reader α) : Prop :=
  ∀ s e, lo ≤ s.offset → s.rest.length < n → r s = .error e → Located F r s e

variable {F : Faults}

theorem Located.bind {s : Region} {e : ReadError} (h : Located F r s e) :
    Located F (r >>= k) s e := by
  cases h with
  | read rest_eq comes fault => exact .read rest_eq comes.bind fault
  | back looks le => exact .back looks le

theorem Located.of_writes {e : ReadError} (hw : r.Writes o front a)
    (h : Located F (k a) ⟨rest, o + front.length⟩ e) :
    Located F (r >>= k) ⟨front ++ rest, o⟩ e := by
  cases h with
  | @read g rest' _ _ _ rest_eq comes fault =>
    obtain rfl : rest = g ++ rest' := rest_eq
    refine .read (List.append_assoc _ _ _).symm (comes.of_writes hw) ?_
    rwa [List.length_append, ← Nat.add_assoc]
  | back looks le =>
    refine .back looks ?_
    rwa [List.length_append, ← Nat.add_assoc]

/-- A region only gets shorter, at its front. -/
theorem Streams.le_offset (hr : r.Streams) {s t : Region} (h : r s = .ok (a, t)) :
    s.offset ≤ t.offset := by
  obtain ⟨f, -, ht, -⟩ := hr.offset_eq h
  rw [ht]
  exact Nat.le_add_right _ _

/-- What is wrong after a value has been read is located in the whole. -/
theorem Located.of_eq_ok (hr : r.Streams) {s t : Region} {e : ReadError} (hrun : r s = .ok (a, t))
    (h : Located F (k a) t e) : Located F (r >>= k) s e := by
  obtain ⟨f, hs, ht, hw⟩ := hr.offset_eq hrun
  rw [ht] at h
  rw [hs]
  exact h.of_writes hw

/-- **The errors of a sequence** are located if those of its parts are. -/
theorem LocatesBelow.bind (h : LocatesBelow F lo n r) (hr : r.Streams)
    (hk : ∀ a, LocatesBelow F lo n (k a)) : LocatesBelow F lo n (r >>= k) := by
  rintro s e hlo hn hfail
  rcases bind_eq_error.1 hfail with hrun | ⟨a, t, hrun, hfail⟩
  · exact (h s e hlo hn hrun).bind
  · have ho := hlo.trans (hr.le_offset hrun)
    have hlen := (hr.length_le hrun).trans_lt hn
    exact (hk a t e ho hlen hfail).of_eq_ok hr hrun

theorem locatesBelow_pure (a : α) : LocatesBelow F lo n (pure a : Reader α) := by
  intro s e _ _ hfail
  cases hfail

/-- What is made of a value cannot fail. -/
theorem LocatesBelow.map (h : LocatesBelow F lo n r) (f : α → β) :
    LocatesBelow F lo n (r >>= fun a => pure (f a)) := by
  intro s e hlo hn hfail
  exact (h s e hlo hn (map_eq_error.1 hfail)).bind

/-- A sequence that starts with noting the offset is about regions that start there. -/
theorem locatesBelow_offset_bind {k : Nat → Reader α}
    (h : ∀ start, LocatesBelow F start n (k start)) : LocatesBelow F lo n (offset >>= k) := by
  intro s e _ hn hfail
  rw [bind_ok (rfl : offset s = .ok (s.offset, s))] at hfail
  have hlocated := h s.offset s e le_rfl hn hfail
  cases hlocated with
  | read rest_eq comes fault =>
    exact .read rest_eq (comes.of_writes (writes_offset.2 ⟨rfl, rfl⟩)) fault
  | back looks le => exact .back looks le

/-- An error about something that starts at `lo` is placed there. -/
theorem locatesBelow_fail {cause : Cause} (h : cause.LooksBack) :
    LocatesBelow F lo n (fail cause lo : Reader α) := by
  intro s e hlo _ hfail
  cases hfail
  exact .back h (Nat.le_add_right_of_le hlo)

/-- What is wrong with a value that starts at `lo` is placed there. -/
theorem locatesBelow_ofExcept {x : Except ReadError α}
    (h : ∀ e, x = .error e → e.offset = none ∧ e.cause.LooksBack) :
    LocatesBelow F lo n (ofExcept lo x) := by
  intro s e hlo _ hfail
  cases x with
  | ok a => cases hfail
  | error e' =>
    cases hfail
    obtain ⟨hnone, hback⟩ := h e' rfl
    rw [ReadError.orAt, hnone]
    exact .back hback (Nat.le_add_right_of_le hlo)

theorem locatesBelow_bytes (m : Nat) : LocatesBelow F lo n (bytes m) := by
  intro s e _ _ hfail
  obtain ⟨hlt, rfl⟩ := bytes_eq_error.1 hfail
  exact .read (List.nil_append _).symm (.refl _ _) (.short hlt)

theorem locatesBelow_u8 : LocatesBelow F lo n u8 :=
  (locatesBelow_bytes 1).map _

theorem locatesBelow_u16 : LocatesBelow F lo n u16 :=
  (locatesBelow_bytes 2).map _

theorem locatesBelow_u32 : LocatesBelow F lo n u32 :=
  (locatesBelow_bytes 4).map _

theorem locatesBelow_u64 : LocatesBelow F lo n u64 :=
  (locatesBelow_bytes 8).map _

/-- After the byte of a tag there is one byte less. -/
theorem locatesBelow_u8_bind {k : UInt8 → Reader β} (h : ∀ tag, LocatesBelow F lo n (k tag)) :
    LocatesBelow F lo (n + 1) (u8 >>= k) := by
  intro s e hlo hn hfail
  rcases bind_eq_error.1 hfail with hrun | ⟨tag, t, hrun, hfail⟩
  · exact (locatesBelow_u8 s e hlo hn hrun).bind
  · obtain ⟨f, hs, ht, hw⟩ := streams_u8.offset_eq hrun
    obtain rfl := writes_u8.1 hw
    have ho : t.offset = s.offset + 1 := congrArg Region.offset ht
    have hlen : s.rest.length = 1 + t.rest.length := by
      rw [congrArg Region.rest hs, List.length_append, List.length_singleton]
    exact (h tag t e (by omega) (by omega) hfail).of_eq_ok streams_u8 hrun

theorem LocatesBelow.times (h : LocatesBelow F lo n r) (hr : r.Streams) (m : Nat) :
    LocatesBelow F lo n (r.times m) := by
  induction m with
  | zero => exact locatesBelow_pure []
  | succ m ih => exact h.bind hr fun _ => ih.map _

theorem LocatesBelow.table (h : LocatesBelow F lo n r) (hr : r.Streams) :
    LocatesBelow F lo n (readTable r) :=
  locatesBelow_u16.bind streams_u16 fun _ => h.times hr _

theorem LocatesBelow.whole (h : LocatesBelow F lo n r) (hr : r.Streams) :
    LocatesBelow F lo n r.whole := by
  refine h.bind hr fun a => ?_
  intro s e _ _ hfail
  have hrun := map_eq_error.1 hfail
  rw [done] at hrun
  split at hrun
  · cases hrun
  · rename_i hne
    cases hrun
    refine .read (List.nil_append _).symm ((ComesTo.refl done s.offset).bind) (.trailing ?_)
    exact fun hnil => hne (List.isEmpty_iff.2 hnil)

/-- **References** are located if what they fail for has no place of its own. -/
theorem locatesBelow_reference {find : UInt16 → Except ReadError α}
    (h : ∀ i e, find i = .error e → e.offset = none ∧ ∀ rest p,
      F α (reference find) ⟨indexBytes i ++ rest, p⟩ ⟨e.cause, some p⟩) :
    LocatesBelow F lo n (reference find) := by
  intro s e hlo hn hfail
  rcases bind_eq_error.1 hfail with hrun | ⟨_, t, hrun, hfail⟩
  · cases hrun
  · obtain ⟨rfl, rfl⟩ := Prod.mk.inj (Except.ok.inj hrun)
    rcases bind_eq_error.1 hfail with hrun | ⟨i, t, hrun, hfail⟩
    · exact (locatesBelow_u16 s e hlo hn hrun).bind.of_writes (writes_offset.2 ⟨rfl, rfl⟩)
    · obtain ⟨f, hs, -, hw⟩ := streams_u16.offset_eq hrun
      obtain rfl : f = indexBytes i := writes_u16.1 hw
      have hrest : s.rest = indexBytes i ++ t.rest := congrArg Region.rest hs
      rcases hfind : find i with e' | a
      · rw [hfind] at hfail
        cases hfail
        obtain ⟨hnone, hF⟩ := h i e' hfind
        rw [ReadError.orAt, hnone]
        refine .read (List.nil_append _).symm (.refl _ _) (.other ?_)
        rw [hrest]
        exact hF t.rest s.offset
      · rw [hfind] at hfail
        cases hfail

end Reader

end Classpath.ClassFile

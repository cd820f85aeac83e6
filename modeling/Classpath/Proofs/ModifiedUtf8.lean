import Classpath.ClassFile.ModifiedUtf8
import Mathlib.Data.List.Basic

/-!
# Modified UTF-8, decoded and encoded

The decoder against the encoding that it should read. Bytes **split** into forms of one, two and
three bytes, each of which writes a 16-bit unit, and the units are the UTF-16 of the text. Both
steps are settled on their own: how bytes split does not depend on what the units are, and units are
read as characters without looking at the bytes again.

A byte tells by its range which form it begins, or that it goes on with one, so bytes split in at
most one way. No form has a byte 0 or a byte from `0xF0` on, and UTF-16 has no surrogate outside a
pair, which is why none of these is accepted.

* `Classpath.ModifiedUtf8.Splits` – the forms and the units that they write.
* `Classpath.ModifiedUtf8.utf16` – the units of a text.
* `Classpath.ModifiedUtf8.decode_eq_ok_iff_splits` – what is decoded, and as what.
-/

namespace Classpath.ModifiedUtf8

/-! ### Forms -/

/-- A byte that goes on with a form. -/
def IsContinuation (b : UInt8) : Prop :=
  0x80 ≤ b ∧ b ≤ 0xBF

/-- **Splitting into forms**: the bytes are forms of one, two and three bytes one after the other,
and the units are their values. -/
inductive Splits : Bytes → List Nat → Prop
  | nil : Splits [] []
  | one {b : UInt8} {bs : Bytes} {us : List Nat} (lead : 0x01 ≤ b ∧ b ≤ 0x7F)
    (rest : Splits bs us) : Splits (b :: bs) (b.toNat :: us)
  | two {b c : UInt8} {bs : Bytes} {us : List Nat} (lead : 0xC0 ≤ b ∧ b ≤ 0xDF)
    (next : IsContinuation c) (rest : Splits bs us) :
    Splits (b :: c :: bs) (((b.toNat - 0xC0) * 64 + (c.toNat - 0x80)) :: us)
  | three {b c d : UInt8} {bs : Bytes} {us : List Nat} (lead : 0xE0 ≤ b ∧ b ≤ 0xEF)
    (next : IsContinuation c) (last : IsContinuation d) (rest : Splits bs us) :
    Splits (b :: c :: d :: bs)
      (((b.toNat - 0xE0) * 4096 + (c.toNat - 0x80) * 64 + (d.toNat - 0x80)) :: us)

/-- The UTF-16 units of a text. -/
def utf16 (s : String) : List Nat :=
  s.toList.flatMap unitsOfChar

/-- What holds of the 256 bytes holds of each. -/
theorem forall_byte {p : UInt8 → Prop} (h : ∀ n : Fin 256, p (UInt8.ofNat n)) : ∀ b, p b := by
  intro b
  have := h ⟨b.toNat, b.toNat_lt⟩
  rwa [UInt8.ofNat_toNat] at this

/-- The bits by which a byte is told to begin a form are those of a range of bytes. -/
theorem lead_iff :
    ∀ b : UInt8, ((b ≠ 0 ∧ b < 0x80) ↔ 0x01 ≤ b ∧ b ≤ 0x7F) ∧
      (b &&& 0xE0 = 0xC0 ↔ 0xC0 ≤ b ∧ b ≤ 0xDF) ∧ (b &&& 0xF0 = 0xE0 ↔ 0xE0 ≤ b ∧ b ≤ 0xEF) :=
  forall_byte (by decide +kernel)

/-- The other bits are what is left above the beginning of the range. -/
theorem payload_eq :
    ∀ b : UInt8, (0xC0 ≤ b ∧ b ≤ 0xDF → (b &&& 0x1F).toNat = b.toNat - 0xC0) ∧
      (0xE0 ≤ b ∧ b ≤ 0xEF → (b &&& 0x0F).toNat = b.toNat - 0xE0) :=
  forall_byte (by decide +kernel)

theorem continuation?_eq_some :
    ∀ (b : UInt8) {n : Nat}, continuation? b = some n ↔ IsContinuation b ∧ n = b.toNat - 0x80 := by
  have h : ∀ b, continuation? b = if 0x80 ≤ b ∧ b ≤ 0xBF then some (b.toNat - 0x80) else none :=
    forall_byte (by decide +kernel)
  intro b n
  rw [h, IsContinuation, Option.ite_none_right_eq_some, Option.some_inj, eq_comm (a := n)]

/-- A byte begins at most one form: the ranges are apart. -/
theorem not_lead_one {b : UInt8} (h : 0xC0 ≤ b) : ¬(b ≠ 0 ∧ b < 0x80) := by
  rintro ⟨-, hlt⟩
  exact absurd (UInt8.lt_of_le_of_lt h hlt) (by decide)

theorem not_lead_two {b : UInt8} (h : 0xE0 ≤ b) : ¬b &&& 0xE0 = 0xC0 := by
  intro hb
  exact absurd (UInt8.le_trans h ((lead_iff b).2.1.1 hb).2) (by decide)

/-- **What the general loop finds** are the units of a splitting. -/
theorem units?_eq_some {bs : Bytes} {us : List Nat} : units? bs = some us ↔ Splits bs us := by
  constructor
  · intro h
    fun_induction units? bs generalizing us with
    | case1 =>
      cases h
      exact .nil
    | case2 b bs hb ih =>
      obtain ⟨us', hus, rfl⟩ := Option.map_eq_some_iff.1 h
      exact .one ((lead_iff b).1.1 hb) (ih hus)
    | case3 b _ hb c bs ih =>
      simp only [Option.bind_eq_bind, Option.bind_eq_some_iff, continuation?_eq_some,
        Option.pure_def, Option.some_inj] at h
      obtain ⟨low, ⟨hc, hlow⟩, us', hus, heq⟩ := h
      have hlead := (lead_iff b).2.1.1 hb
      rw [← heq, hlow, (payload_eq b).1 hlead]
      exact .two hlead hc (ih hus)
    | case5 b _ _ hb c d bs ih =>
      simp only [Option.bind_eq_bind, Option.bind_eq_some_iff, continuation?_eq_some,
        Option.pure_def, Option.some_inj] at h
      obtain ⟨mid, ⟨hc, hmid⟩, low, ⟨hd, hlow⟩, us', hus, heq⟩ := h
      have hlead := (lead_iff b).2.2.1 hb
      rw [← heq, hmid, hlow, (payload_eq b).2 hlead]
      exact .three hlead hc hd (ih hus)
    | case4 => cases h
    | case6 => cases h
    | case7 => cases h
  · intro h
    induction h with
    | nil => rfl
    | @one b bs us lead rest ih =>
      rw [units?.eq_def]
      dsimp only
      rw [if_pos ((lead_iff b).1.2 lead), ih]
      rfl
    | @two b c bs us lead next rest ih =>
      rw [units?.eq_def]
      dsimp only
      rw [if_neg (not_lead_one lead.1), if_pos ((lead_iff b).2.1.2 lead),
        (continuation?_eq_some c).2 ⟨next, rfl⟩, ih, (payload_eq b).1 lead]
      rfl
    | @three b c d bs us lead next last rest ih =>
      have hlead : 0xC0 ≤ b := UInt8.le_trans (by decide) lead.1
      rw [units?.eq_def]
      dsimp only
      rw [if_neg (not_lead_one hlead), if_neg (not_lead_two lead.1),
        if_pos ((lead_iff b).2.2.2 lead), (continuation?_eq_some c).2 ⟨next, rfl⟩,
        (continuation?_eq_some d).2 ⟨last, rfl⟩, ih, (payload_eq b).2 lead]
      rfl

/-- Units have 16 bits. -/
theorem Splits.lt {bs : Bytes} {us : List Nat} (h : Splits bs us) : ∀ u ∈ us, u < 0x10000 := by
  induction h with
  | nil => simp
  | @one b bs us lead rest ih =>
    have hb := b.toNat_lt
    exact List.forall_mem_cons.2 ⟨by omega, ih⟩
  | @two b c bs us lead next rest ih =>
    have hb := b.toNat_lt
    have hc := c.toNat_lt
    exact List.forall_mem_cons.2 ⟨by omega, ih⟩
  | @three b c d bs us lead next last rest ih =>
    have hb : b.toNat ≤ 0xEF := UInt8.le_iff_toNat_le.1 lead.2
    have hc : c.toNat ≤ 0xBF := UInt8.le_iff_toNat_le.1 next.2
    have hd : d.toNat ≤ 0xBF := UInt8.le_iff_toNat_le.1 last.2
    exact List.forall_mem_cons.2 ⟨by omega, ih⟩

/-- **No byte of a form is 0 or begins a form of four bytes.** -/
theorem Splits.byte {bs : Bytes} {us : List Nat} (h : Splits bs us) :
    ∀ b ∈ bs, b ≠ 0 ∧ b < 0xF0 := by
  have hrange : ∀ b : UInt8, 0x01 ≤ b → b ≤ 0xEF → b ≠ 0 ∧ b < 0xF0 := fun b hlow hhigh =>
    ⟨by rintro rfl; exact absurd hlow (by decide), UInt8.lt_of_le_of_lt hhigh (by decide)⟩
  have hcont : ∀ b : UInt8, IsContinuation b → b ≠ 0 ∧ b < 0xF0 := fun b hb =>
    hrange b (UInt8.le_trans (by decide) hb.1) (UInt8.le_trans hb.2 (by decide))
  induction h with
  | nil => simp
  | @one b bs us lead rest ih =>
    have hb := hrange b lead.1 (UInt8.le_trans lead.2 (by decide))
    exact List.forall_mem_cons.2 ⟨hb, ih⟩
  | @two b c bs us lead next rest ih =>
    have hb := hrange b (UInt8.le_trans (by decide) lead.1) (UInt8.le_trans lead.2 (by decide))
    exact List.forall_mem_cons.2 ⟨hb, List.forall_mem_cons.2 ⟨hcont c next, ih⟩⟩
  | @three b c d bs us lead next last rest ih =>
    have hb := hrange b (UInt8.le_trans (by decide) lead.1) lead.2
    exact List.forall_mem_cons.2 ⟨hb, List.forall_mem_cons.2 ⟨hcont c next,
      List.forall_mem_cons.2 ⟨hcont d last, ih⟩⟩⟩

/-! ### Units -/

theorem toNat_ofNat {n : Nat} (h : n.isValidChar) : (Char.ofNat n).toNat = n := by
  rw [Char.ofNat, dif_pos h]
  rfl

theorem isHighSurrogate_iff {u : Nat} : isHighSurrogate u = true ↔ 0xD800 ≤ u ∧ u < 0xDC00 := by
  simp [isHighSurrogate]

theorem isLowSurrogate_iff {u : Nat} : isLowSurrogate u = true ↔ 0xDC00 ≤ u ∧ u < 0xE000 := by
  simp [isLowSurrogate]

/-- The halves of a pair are apart. -/
theorem isLowSurrogate_eq_false {u : Nat} (h : isHighSurrogate u = true) :
    isLowSurrogate u = false := by
  rw [isHighSurrogate_iff] at h
  rw [← Bool.not_eq_true, isLowSurrogate_iff]
  omega

/-- **A character is one unit that is no surrogate, or a pair of surrogates.** -/
theorem unitsOfChar_cases (c : Char) :
    (unitsOfChar c = [c.toNat] ∧ isHighSurrogate c.toNat = false ∧
      isLowSurrogate c.toNat = false) ∨
    ∃ u v, unitsOfChar c = [u, v] ∧ isHighSurrogate u = true ∧ isLowSurrogate v = true ∧
      0x10000 + (u - 0xD800) * 0x400 + (v - 0xDC00) = c.toNat := by
  have hvalid : c.toNat < 0xD800 ∨ 0xDFFF < c.toNat ∧ c.toNat < 0x110000 := c.valid
  rw [unitsOfChar]
  split
  · refine .inl ⟨rfl, ?_, ?_⟩
    · rw [← Bool.not_eq_true, isHighSurrogate_iff]
      omega
    · rw [← Bool.not_eq_true, isLowSurrogate_iff]
      omega
  · refine .inr ⟨_, _, rfl, isHighSurrogate_iff.2 ?_, isLowSurrogate_iff.2 ?_, ?_⟩ <;> omega

theorem chars?_of_unit {u : Nat} (hhigh : isHighSurrogate u = false)
    (hlow : isLowSurrogate u = false) (us : List Nat) :
    chars? (u :: us) = (chars? us).map (Char.ofNat u :: ·) := by
  rw [chars?.eq_def]
  simp [hhigh, hlow]

theorem chars?_of_pair {u v : Nat} (hhigh : isHighSurrogate u = true)
    (hlow : isLowSurrogate v = true) (us : List Nat) :
    chars? (u :: v :: us) =
      (chars? us).map (Char.ofNat (0x10000 + (u - 0xD800) * 0x400 + (v - 0xDC00)) :: ·) := by
  rw [chars?.eq_def]
  simp [hhigh, hlow]

theorem chars?_unitsOfChar_append (c : Char) (us : List Nat) :
    chars? (unitsOfChar c ++ us) = (chars? us).map (c :: ·) := by
  obtain ⟨h, hhigh, hlow⟩ | ⟨u, v, h, hhigh, hlow, hc⟩ := unitsOfChar_cases c
  · rw [h, List.singleton_append, chars?_of_unit hhigh hlow, Char.ofNat_toNat]
  · rw [h, List.cons_append, List.singleton_append, chars?_of_pair hhigh hlow, hc,
      Char.ofNat_toNat]

theorem chars?_units (cs : List Char) : chars? (cs.flatMap unitsOfChar) = some cs := by
  induction cs with
  | nil => rfl
  | cons c cs ih => rw [List.flatMap_cons, chars?_unitsOfChar_append, ih, Option.map_some]

theorem unitsOfChar_ofNat {n : Nat} (hvalid : n.isValidChar) (h : n < 0x10000) :
    unitsOfChar (Char.ofNat n) = [n] := by
  rw [unitsOfChar, toNat_ofNat hvalid, if_pos h]

theorem unitsOfChar_ofPair {u v : Nat} (hhigh : isHighSurrogate u = true)
    (hlow : isLowSurrogate v = true) :
    unitsOfChar (Char.ofNat (0x10000 + (u - 0xD800) * 0x400 + (v - 0xDC00))) = [u, v] := by
  rw [isHighSurrogate_iff] at hhigh
  rw [isLowSurrogate_iff] at hlow
  have hvalid : (0x10000 + (u - 0xD800) * 0x400 + (v - 0xDC00)).isValidChar :=
    .inr ⟨by omega, by omega⟩
  rw [unitsOfChar, toNat_ofNat hvalid, if_neg (by omega)]
  exact congrArg₂ (fun a b => [a, b]) (by omega) (by omega)

/-- What units are read as is what they are the units of. -/
theorem of_chars?_eq_some {us : List Nat} {cs : List Char} (hus : ∀ u ∈ us, u < 0x10000)
    (h : chars? us = some cs) : us = cs.flatMap unitsOfChar := by
  fun_induction chars? us generalizing cs with
  | case1 =>
    cases h
    rfl
  | case2 u hhigh v us hlow ih =>
    obtain ⟨cs', hcs, rfl⟩ := Option.map_eq_some_iff.1 h
    have hrest : us = cs'.flatMap unitsOfChar := ih (fun w hw => hus w (by simp [hw])) hcs
    rw [List.flatMap_cons, unitsOfChar_ofPair hhigh hlow, ← hrest]
    rfl
  | case3 => cases h
  | case4 => cases h
  | case5 => cases h
  | case6 u us hhigh hlow ih =>
    obtain ⟨cs', hcs, rfl⟩ := Option.map_eq_some_iff.1 h
    have hu : u < 0x10000 := hus u (by simp)
    rw [isHighSurrogate_iff] at hhigh
    rw [isLowSurrogate_iff] at hlow
    have hvalid : u.isValidChar := by
      rw [Nat.isValidChar]
      omega
    have hrest : us = cs'.flatMap unitsOfChar := ih (fun w hw => hus w (by simp [hw])) hcs
    rw [List.flatMap_cons, unitsOfChar_ofNat hvalid hu, ← hrest]
    rfl

/-- **Every surrogate has its other half beside it**: a first half is followed by a second one, and
a second half follows a first one. -/
def Paired (us : List Nat) : Prop :=
  ∀ before u after, us = before ++ u :: after →
    (isHighSurrogate u = true → ∃ v ∈ after.head?, isLowSurrogate v = true) ∧
    (isLowSurrogate u = true → ∃ v ∈ before.getLast?, isHighSurrogate v = true)

theorem Paired.unit_cons {u : Nat} {us : List Nat} (h : Paired us)
    (hhigh : isHighSurrogate u = false) (hlow : isLowSurrogate u = false) : Paired (u :: us) := by
  intro before w after heq
  cases before with
  | nil =>
    obtain ⟨rfl, rfl⟩ := List.cons.inj heq
    simp [hhigh, hlow]
  | cons a before =>
    obtain ⟨rfl, rfl⟩ := List.cons.inj heq
    obtain ⟨hnext, hlast⟩ := h before w after rfl
    refine ⟨hnext, fun hw => ?_⟩
    obtain ⟨v, hv, hvhigh⟩ := hlast hw
    exact ⟨v, by simp [List.getLast?_cons, Option.mem_def.1 hv], hvhigh⟩

theorem Paired.pair_cons {u v : Nat} {us : List Nat} (h : Paired us)
    (hhigh : isHighSurrogate u = true) (hlow : isLowSurrogate v = true) :
    Paired (u :: v :: us) := by
  intro before w after heq
  match before with
  | [] =>
    obtain ⟨rfl, rfl⟩ := List.cons.inj heq
    exact ⟨fun _ => ⟨v, rfl, hlow⟩, fun hw => by simp [isLowSurrogate_eq_false hhigh] at hw⟩
  | [a] =>
    obtain ⟨rfl, htail⟩ := List.cons.inj heq
    obtain ⟨rfl, rfl⟩ := List.cons.inj htail
    refine ⟨fun hw => ?_, fun _ => ⟨u, rfl, hhigh⟩⟩
    rw [isLowSurrogate_eq_false hw] at hlow
    cases hlow
  | a :: b :: before =>
    obtain ⟨rfl, htail⟩ := List.cons.inj heq
    obtain ⟨rfl, rfl⟩ := List.cons.inj htail
    obtain ⟨hnext, hlast⟩ := h before w after rfl
    refine ⟨hnext, fun hw => ?_⟩
    obtain ⟨x, hx, hxhigh⟩ := hlast hw
    exact ⟨x, by simp [List.getLast?_cons, Option.mem_def.1 hx], hxhigh⟩

theorem paired_utf16 (cs : List Char) : Paired (cs.flatMap unitsOfChar) := by
  induction cs with
  | nil =>
    intro before u after h
    simp at h
  | cons c cs ih =>
    rw [List.flatMap_cons]
    obtain ⟨h, hhigh, hlow⟩ | ⟨u, v, h, hhigh, hlow, -⟩ := unitsOfChar_cases c
    · rw [h]
      exact ih.unit_cons hhigh hlow
    · rw [h]
      exact ih.pair_cons hhigh hlow

/-! ### Texts -/

theorem splits_of_isPlain {bs : Bytes} (h : isPlain bs = true) : Splits bs (bs.map (·.toNat)) := by
  induction bs with
  | nil => exact .nil
  | cons b bs ih =>
    rw [isPlain, List.all_cons, Bool.and_eq_true] at h
    exact .one ((lead_iff b).1.1 (by simpa using h.1)) (ih h.2)

theorem chars?_of_plain {us : List Nat} (h : ∀ u ∈ us, u < 0x80) :
    chars? us = some (us.map Char.ofNat) := by
  induction us with
  | nil => rfl
  | cons u us ih =>
    obtain ⟨hu, hus⟩ := List.forall_mem_cons.1 h
    have hhigh : isHighSurrogate u = false := by
      rw [← Bool.not_eq_true, isHighSurrogate_iff]
      omega
    have hlow : isLowSurrogate u = false := by
      rw [← Bool.not_eq_true, isLowSurrogate_iff]
      omega
    rw [chars?_of_unit hhigh hlow, ih hus]
    rfl

/-- **The shortcut for plain bytes agrees with the general loop.** -/
theorem units?_of_isPlain {bs : Bytes} (h : isPlain bs = true) :
    (units? bs).bind chars? = some (bs.map fun b => Char.ofNat b.toNat) := by
  have hlt : ∀ u ∈ bs.map (·.toNat), u < 0x80 := by
    intro u hu
    obtain ⟨b, hb, rfl⟩ := List.mem_map.1 hu
    have hplain := List.all_eq_true.1 h b hb
    simp only [Bool.and_eq_true, decide_eq_true_eq] at hplain
    exact UInt8.lt_iff_toNat_lt.1 hplain.2
  rw [units?_eq_some.2 (splits_of_isPlain h), Option.bind_some, chars?_of_plain hlt, List.map_map]
  rfl

theorem decodeChars?_eq (bs : Bytes) : decodeChars? bs = (units? bs).bind chars? := by
  rw [decodeChars?]
  split
  · rename_i h
    rw [units?_of_isPlain h]
  · rfl

/-- **What bytes encode** is the text whose units they split into. -/
theorem decode?_eq_some {bs : Bytes} {s : String} :
    decode? bs = some s ↔ Splits bs (utf16 s) := by
  rw [decode?, decodeChars?_eq, Option.map_eq_some_iff, utf16]
  constructor
  · rintro ⟨cs, h, rfl⟩
    obtain ⟨us, hus, hcs⟩ := Option.bind_eq_some_iff.1 h
    have hsplits := units?_eq_some.1 hus
    rwa [String.toList_ofList, ← of_chars?_eq_some hsplits.lt hcs]
  · intro h
    refine ⟨s.toList, ?_, String.ofList_toList⟩
    rw [units?_eq_some.2 h, Option.bind_some, chars?_units]

theorem Splits.unique {bs : Bytes} {us us' : List Nat} (h : Splits bs us) (h' : Splits bs us') :
    us = us' :=
  Option.some.inj ((units?_eq_some.2 h).symm.trans (units?_eq_some.2 h'))

/-! ### Writing -/

theorem toNat_ofNat_byte {n : Nat} (h : n < 256) : (UInt8.ofNat n).toNat = n :=
  UInt8.toNat_ofNat_of_lt' h

/-- A byte that is made of a number lies where the number does. -/
theorem ofNat_mem_range (low high : Nat) {a b : UInt8} {n : Nat} (ha : a.toNat = low)
    (hb : b.toNat = high) (h : low ≤ n ∧ n ≤ high) : a ≤ UInt8.ofNat n ∧ UInt8.ofNat n ≤ b := by
  have hlt := b.toNat_lt
  rw [UInt8.le_iff_toNat_le, UInt8.le_iff_toNat_le, toNat_ofNat_byte (by omega), ha, hb]
  exact h

theorem isContinuation_ofNat {n : Nat} (h : n < 64) : IsContinuation (UInt8.ofNat (0x80 + n)) :=
  ofNat_mem_range 0x80 0xBF rfl rfl (by omega)

/-- The bytes that are written for a unit are a form of its value. -/
theorem splits_bytesOfUnit {u : Nat} (hu : u < 0x10000) {bs : Bytes} {us : List Nat}
    (h : Splits bs us) : Splits (bytesOfUnit u ++ bs) (u :: us) := by
  rw [bytesOfUnit]
  split
  · have hlead : 0x01 ≤ UInt8.ofNat u ∧ UInt8.ofNat u ≤ 0x7F :=
      ofNat_mem_range 0x01 0x7F rfl rfl (by omega)
    have hform := Splits.one hlead h
    rwa [toNat_ofNat_byte (by omega)] at hform
  · split
    · have hlead : 0xC0 ≤ UInt8.ofNat (0xC0 + u / 64) ∧ UInt8.ofNat (0xC0 + u / 64) ≤ 0xDF :=
        ofNat_mem_range 0xC0 0xDF rfl rfl (by omega)
      have hnext := isContinuation_ofNat (Nat.mod_lt u (by decide : 0 < 64))
      have hform := Splits.two hlead hnext h
      rw [toNat_ofNat_byte (by omega), toNat_ofNat_byte (by omega)] at hform
      have hvalue : (0xC0 + u / 64 - 0xC0) * 64 + (0x80 + u % 64 - 0x80) = u := by omega
      rwa [hvalue] at hform
    · have hlead : 0xE0 ≤ UInt8.ofNat (0xE0 + u / 4096) ∧ UInt8.ofNat (0xE0 + u / 4096) ≤ 0xEF :=
        ofNat_mem_range 0xE0 0xEF rfl rfl (by omega)
      have hnext := isContinuation_ofNat (Nat.mod_lt (u / 64) (by decide : 0 < 64))
      have hlast := isContinuation_ofNat (Nat.mod_lt u (by decide : 0 < 64))
      have hform := Splits.three hlead hnext hlast h
      rw [toNat_ofNat_byte (by omega), toNat_ofNat_byte (by omega), toNat_ofNat_byte (by omega)]
        at hform
      have hvalue : (0xE0 + u / 4096 - 0xE0) * 4096 + (0x80 + u / 64 % 64 - 0x80) * 64 +
          (0x80 + u % 64 - 0x80) = u := by omega
      rwa [hvalue] at hform

theorem utf16_lt (s : String) : ∀ u ∈ utf16 s, u < 0x10000 := by
  intro u hu
  obtain ⟨c, -, hc⟩ := List.mem_flatMap.1 hu
  rw [unitsOfChar] at hc
  have hvalid : c.toNat < 0xD800 ∨ 0xDFFF < c.toNat ∧ c.toNat < 0x110000 := c.valid
  split at hc
  · obtain rfl := List.mem_singleton.1 hc
    omega
  · simp only [List.mem_cons, List.not_mem_nil, or_false] at hc
    omega

/-- **A text is written as forms of its units.** -/
theorem splits_encode (s : String) : Splits (encode s) (utf16 s) := by
  have h : ∀ us : List Nat, (∀ u ∈ us, u < 0x10000) → Splits (us.flatMap bytesOfUnit) us := by
    intro us hus
    induction us with
    | nil => exact .nil
    | cons u us ih =>
      obtain ⟨hu, hus⟩ := List.forall_mem_cons.1 hus
      rw [List.flatMap_cons]
      exact splits_bytesOfUnit hu (ih hus)
  exact h (utf16 s) (utf16_lt s)

theorem decode_eq_ok {bs : Bytes} {s : String} : decode bs = .ok s ↔ Splits bs (utf16 s) := by
  rw [← decode?_eq_some, decode]
  cases decode? bs <;> simp

/-- There is one complaint. -/
theorem decode_eq_error {bs : Bytes} (h : ¬∃ s, decode bs = .ok s) :
    decode bs = .error ⟨.badModifiedUtf8, none⟩ := by
  rw [decode] at h ⊢
  split
  · rename_i s hs
    exact (h ⟨s, by rw [hs]⟩).elim
  · rfl

/-- **What is decoded.** Bytes are decoded as a text just if they split into forms whose units are
the UTF-16 of it, and any other bytes are refused with one complaint. The shortcut for plain bytes
agrees with the general loop wherever it is taken. So the encoding of every text is decoded as that
text; and bytes that are decoded have no byte 0 among them and none that begins a form of four
bytes, and write no surrogate without its other half. -/
theorem decode_eq_ok_iff_splits :
    (∀ bs s, decode bs = .ok s ↔ ∃ us, Splits bs us ∧ us = utf16 s) ∧
    (∀ bs, (¬∃ us s, Splits bs us ∧ us = utf16 s) →
      decode bs = .error ⟨.badModifiedUtf8, none⟩) ∧
    (∀ bs, isPlain bs = true →
      decodeChars? bs = some (bs.map fun b => Char.ofNat b.toNat) ∧
      (units? bs).bind chars? = decodeChars? bs) ∧
    (∀ s, decode (encode s) = .ok s) ∧
    ∀ bs s, decode bs = .ok s →
      (∀ b ∈ bs, b ≠ 0 ∧ b < 0xF0) ∧ ∀ us, Splits bs us → Paired us := by
  refine ⟨fun bs s => ?_, fun bs h => ?_, fun bs h => ⟨?_, (decodeChars?_eq bs).symm⟩, fun s => ?_,
    fun bs s h => ⟨?_, fun us hus => ?_⟩⟩
  · rw [decode_eq_ok]
    constructor
    · intro h
      exact ⟨utf16 s, h, rfl⟩
    · rintro ⟨us, h, rfl⟩
      exact h
  · refine decode_eq_error fun ⟨s, hs⟩ => h ⟨utf16 s, s, decode_eq_ok.1 hs, rfl⟩
  · exact (decodeChars?_eq bs).trans (units?_of_isPlain h)
  · exact decode_eq_ok.2 (splits_encode s)
  · exact (decode_eq_ok.1 h).byte
  · rw [hus.unique (decode_eq_ok.1 h)]
    exact paired_utf16 s.toList

-- the character 0 takes two bytes, and one outside the basic plane a pair of three
example : encode "a\x00" = [0x61, 0xC0, 0x80] := by decide
example : encode "😀" = [0xED, 0xA0, 0xBD, 0xED, 0xB8, 0x80] := by decide

end Classpath.ModifiedUtf8

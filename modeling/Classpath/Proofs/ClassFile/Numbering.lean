import Classpath.Proofs.ClassFile.Located

/-!
# The numbers of constants

A class file refers to its constants by numbers that it does not write down. The first constant has
the number 1 and every other one the number behind those that the constant before it takes: two for
longs and doubles and one for all others. What the file declares is how many numbers there are, the
number 0 included, and not how many constants. So constants are read as long as there are numbers
left, and either they end where the numbers do, or the last of them takes one number too many.

All that is said of the table comes from one fact about lists, that slots are counted as numbers are
(`Classpath.ClassFile.getElem?_slotsOf`), and all that is said of constants that overrun their number
from one about reading, by induction on the numbers that are left
(`Classpath.ClassFile.ConstantPool.readSlots_eq_error_iff`).

* `Classpath.ClassFile.numberOf` – the number of a constant, from those before it.
* `Classpath.ClassFile.ConstantsBetween` – constants that some bytes spell.
* `Classpath.ClassFile.ConstantPool.Numbers` – a table that has each constant at its number.
* `Classpath.ClassFile.Overruns` – constants that take more numbers than there are.
* `Classpath.ClassFile.ConstantPool.read_numbers` – the constants that are read, and their numbers.
-/

namespace Classpath.ClassFile

open Reader

variable {c : RawConstant} {cs before : List RawConstant} {i j n : Nat}

/-! ### Counting numbers -/

/-- How many numbers a constant takes. -/
def RawConstant.width (c : RawConstant) : Nat :=
  if c.isWide then 2 else 1

/-- **The number of the constant at a position**: the one behind the number 0 and those that the
constants before it take. -/
def numberOf (cs : List RawConstant) (i : Nat) : Nat :=
  1 + ((cs.take i).map RawConstant.width).sum

theorem RawConstant.width_of_wide (h : c.isWide = true) : c.width = 2 :=
  if_pos h

theorem RawConstant.width_of_not_wide (h : ¬c.isWide = true) : c.width = 1 :=
  if_neg h

theorem RawConstant.width_pos (c : RawConstant) : 0 < c.width := by
  rw [width]
  split <;> decide

@[simp] theorem numberOf_zero (cs : List RawConstant) : numberOf cs 0 = 1 := rfl

theorem numberOf_cons_succ (c : RawConstant) (cs : List RawConstant) (i : Nat) :
    numberOf (c :: cs) (i + 1) = c.width + numberOf cs i := by
  rw [numberOf, numberOf, List.take_succ_cons, List.map_cons, List.sum_cons]
  omega

theorem numberOf_succ (h : cs[i]? = some c) : numberOf cs (i + 1) = numberOf cs i + c.width := by
  rw [numberOf, numberOf, List.take_add_one, h, List.map_append, List.sum_append]
  simp [Nat.add_assoc]

theorem numberOf_mono (cs : List RawConstant) (h : i ≤ j) : numberOf cs i ≤ numberOf cs j := by
  have hstart : cs.take i <+: cs.take j := List.take_prefix_take_left h
  obtain ⟨more, hmore⟩ := hstart
  rw [numberOf, numberOf, ← hmore, List.map_append, List.sum_append]
  omega

/-- **A constant takes its number and those before the next one.** -/
theorem numberOf_add_width_le (h : cs[i]? = some c) (hij : i < j) :
    numberOf cs i + c.width ≤ numberOf cs j :=
  numberOf_succ h ▸ numberOf_mono cs hij

theorem numberOf_pos (cs : List RawConstant) (i : Nat) : 0 < numberOf cs i :=
  Nat.lt_of_lt_of_le Nat.one_pos (numberOf_mono cs (Nat.zero_le i))

theorem numberOf_lt_length (h : cs[i]? = some c) : numberOf cs i < numberOf cs cs.length := by
  have hwidth := numberOf_add_width_le h (List.getElem?_eq_some_iff.1 h).1
  have hpos := c.width_pos
  omega

theorem numberOf_concat (before : List RawConstant) (c : RawConstant) :
    numberOf (before ++ [c]) (before ++ [c]).length = numberOf before before.length + c.width := by
  rw [List.length_append, List.length_singleton, numberOf_succ (c := c) (by simp)]
  simp [numberOf]

/-! ### Numbers and slots -/

theorem length_slotsOf_add_one (cs : List RawConstant) :
    (slotsOf RawConstant.isWide cs).length + 1 = numberOf cs cs.length := by
  induction cs with
  | nil => rfl
  | cons c cs ih =>
    rw [List.length_cons, numberOf_cons_succ, ← ih]
    by_cases hwide : c.isWide = true
    · rw [slotsOf_cons_of_wide hwide, RawConstant.width_of_wide hwide]
      simp only [List.length_cons]
      omega
    · rw [slotsOf_cons_of_not_wide hwide, RawConstant.width_of_not_wide hwide]
      simp only [List.length_cons]
      omega

theorem getElem?_slotsOf_cons_add (c : RawConstant) (cs : List RawConstant) (j : Nat) :
    (slotsOf RawConstant.isWide (c :: cs))[j + c.width]? =
      (slotsOf RawConstant.isWide cs)[j]? := by
  by_cases hwide : c.isWide = true
  · rw [slotsOf_cons_of_wide hwide, RawConstant.width_of_wide hwide]
    rfl
  · rw [slotsOf_cons_of_not_wide hwide, RawConstant.width_of_not_wide hwide]
    rfl

/-- **Slots are counted as numbers are**: a constant is in the slot of its number, and no other slot
has one. -/
theorem getElem?_slotsOf :
    (slotsOf RawConstant.isWide cs)[j]? = some (some c) ↔
      ∃ i, cs[i]? = some c ∧ numberOf cs i = j + 1 := by
  induction cs generalizing j with
  | nil => simp [slotsOf]
  | cons first cs ih =>
    have hpos := first.width_pos
    rcases Nat.lt_or_ge j first.width with hlt | hge
    · -- what comes later has a number behind those of the first constant
      have hlater : ∀ i, numberOf (first :: cs) (i + 1) ≠ j + 1 := by
        intro i
        have hnumber := numberOf_pos cs i
        rw [numberOf_cons_succ]
        omega
      have hfirst : (∃ i, (first :: cs)[i]? = some c ∧ numberOf (first :: cs) i = j + 1) ↔
          first = c ∧ 0 = j := by
        constructor
        · rintro ⟨_ | i, hi, hj⟩
          · rw [numberOf_zero] at hj
            exact ⟨by simpa using hi, by omega⟩
          · exact absurd hj (hlater i)
        · rintro ⟨rfl, rfl⟩
          exact ⟨0, rfl, rfl⟩
      rw [hfirst]
      by_cases hwide : first.isWide = true
      · rw [slotsOf_cons_of_wide hwide]
        rw [RawConstant.width_of_wide hwide] at hlt
        obtain rfl | rfl : j = 0 ∨ j = 1 := by omega
        · simp
        · simp
      · rw [slotsOf_cons_of_not_wide hwide]
        rw [RawConstant.width_of_not_wide hwide] at hlt
        obtain rfl : j = 0 := by omega
        simp
    · obtain ⟨j, rfl⟩ := Nat.exists_eq_add_of_le' hge
      rw [getElem?_slotsOf_cons_add, ih]
      constructor
      · rintro ⟨i, hi, hj⟩
        refine ⟨i + 1, hi, ?_⟩
        rw [numberOf_cons_succ]
        omega
      · rintro ⟨_ | i, hi, hj⟩
        · rw [numberOf_zero] at hj
          omega
        · rw [numberOf_cons_succ] at hj
          exact ⟨i, hi, by omega⟩

theorem constantNo?_eq_some {k : UInt16} :
    constantNo? cs k = some c ↔ ∃ i, cs[i]? = some c ∧ numberOf cs i = k.toNat := by
  rw [constantNo?, Option.join_eq_some_iff]
  rcases hk : k.toNat with _ | j
  · simp only [List.getElem?_cons_zero]
    constructor
    · intro h
      cases h
    · rintro ⟨i, -, hi⟩
      exact absurd hi (numberOf_pos cs i).ne'
  · rw [List.getElem?_cons_succ, getElem?_slotsOf]

/-! ### The table -/

namespace ConstantPool

variable {pool pool' : ConstantPool} {k : UInt16} {e : PoolEntry}

/-- **A table that has each constant at its number**, and `count` numbers. -/
structure Numbers (pool : ConstantPool) (cs : List RawConstant) (count : UInt16) : Prop where
  size : pool.slots.size = count.toNat
  /-- The number behind the last constant is the first one that there is not. -/
  ends : numberOf cs cs.length = count.toNat
  /-- A constant is in the slot of its number, and is found there. -/
  get_numberOf : ∀ i c, cs[i]? = some c → ∃ e, c.entry? = some e ∧
    pool.slots[numberOf cs i]? = some (some e) ∧
    ∀ k : UInt16, k.toNat = numberOf cs i → pool.get k = .ok e
  get_isOk_iff : ∀ k, (∃ e, pool.get k = .ok e) ↔ ∃ i < cs.length, k.toNat = numberOf cs i
  get_zero : pool.get 0 = .error ⟨.badConstantIndex 0, none⟩
  /-- The second number of a constant that takes two refers to nothing. -/
  get_second : ∀ i c, cs[i]? = some c → c.isWide = true → ∀ k : UInt16,
    k.toNat = numberOf cs i + 1 → pool.get k = .error ⟨.badConstantIndex k, none⟩
  get_beyond : ∀ k, count ≤ k → pool.get k = .error ⟨.badConstantIndex k, none⟩

theorem get_eq_ok : pool.get k = .ok e ↔ pool.slots[k.toNat]? = some (some e) := by
  rw [get]
  split
  · rename_i entry hslot
    rw [hslot, Except.ok.injEq, Option.some.injEq, Option.some.injEq]
  · rename_i hnone
    constructor
    · intro h
      cases h
    · intro h
      exact absurd h (hnone e)

theorem get_eq_error (h : ∀ e, pool.get k ≠ .ok e) :
    pool.get k = .error ⟨.badConstantIndex k, none⟩ := by
  rcases hget : pool.get k with e | e
  · rw [get] at hget
    split at hget
    · cases hget
    · rw [← Except.error.inj hget]
  · exact absurd hget (h e)

theorem Denotes.get_eq_ok_iff (h : pool.Denotes cs) : pool.get k = .ok e ↔
    ∃ i c, cs[i]? = some c ∧ numberOf cs i = k.toNat ∧ c.entry? = some e := by
  have hno : ∀ {i c}, cs[i]? = some c → numberOf cs i = k.toNat → constantNo? cs k = some c :=
    fun hi hk => constantNo?_eq_some.2 ⟨_, hi, hk⟩
  rcases h k with ⟨hnone, e', he'⟩ | ⟨c, e', hc, hentry, he'⟩
  · rw [he']
    constructor
    · intro h
      cases h
    · rintro ⟨i, c, hi, hk, -⟩
      rw [hno hi hk] at hnone
      cases hnone
  · rw [he', Except.ok.injEq]
    constructor
    · rintro rfl
      obtain ⟨i, hi, hk⟩ := constantNo?_eq_some.1 hc
      exact ⟨i, c, hi, hk, hentry⟩
    · rintro ⟨i, c', hi, hk, hentry'⟩
      obtain rfl := Option.some.inj ((hno hi hk).symm.trans hc)
      exact Option.some.inj (hentry.symm.trans hentry')

/-- **A table that denotes constants has each of them at its number**, if it is long enough. -/
theorem Denotes.numbers {count : UInt16} (h : pool.Denotes cs)
    (hsize : pool.slots.size = count.toNat) (hends : numberOf cs cs.length = count.toNat) :
    pool.Numbers cs count := by
  have hfails : ∀ k : UInt16, (∀ i c, cs[i]? = some c → numberOf cs i ≠ k.toNat) →
      pool.get k = .error ⟨.badConstantIndex k, none⟩ := by
    intro k hk
    refine get_eq_error fun e he => ?_
    obtain ⟨i, c, hi, hnumber, -⟩ := h.get_eq_ok_iff.1 he
    exact hk i c hi hnumber
  have hfound : ∀ i c, cs[i]? = some c → ∃ e, c.entry? = some e ∧
      pool.slots[numberOf cs i]? = some (some e) ∧
      ∀ k : UInt16, k.toNat = numberOf cs i → pool.get k = .ok e := by
    intro i c hi
    have hk : (UInt16.ofNat (numberOf cs i)).toNat = numberOf cs i :=
      UInt16.toNat_ofNat_of_lt' ((numberOf_lt_length hi).trans (hends ▸ count.toNat_lt))
    have hno : constantNo? cs (UInt16.ofNat (numberOf cs i)) = some c :=
      constantNo?_eq_some.2 ⟨i, hi, hk.symm⟩
    rcases h (UInt16.ofNat (numberOf cs i)) with ⟨hnone, -⟩ | ⟨c', e, hc, hentry, hget⟩
    · rw [hno] at hnone
      cases hnone
    · obtain rfl := Option.some.inj (hno.symm.trans hc)
      refine ⟨e, hentry, hk ▸ get_eq_ok.1 hget, fun k hnumber => ?_⟩
      exact h.get_eq_ok_iff.2 ⟨i, c, hi, hnumber.symm, hentry⟩
  exact {
    size := hsize
    ends := hends
    get_numberOf := hfound
    get_isOk_iff := fun k => by
      constructor
      · rintro ⟨e, he⟩
        obtain ⟨i, c, hi, hnumber, -⟩ := h.get_eq_ok_iff.1 he
        exact ⟨i, (List.getElem?_eq_some_iff.1 hi).1, hnumber.symm⟩
      · rintro ⟨i, hi, hnumber⟩
        obtain ⟨e, -, -, hget⟩ := hfound i cs[i] (List.getElem?_eq_getElem hi)
        exact ⟨e, hget k hnumber⟩
    get_zero := hfails 0 fun i c _ => (numberOf_pos cs i).ne'
    get_second := fun i c hi hwide k hk => hfails k fun j c' hj hnumber => by
      -- a constant before this one has a lower number, and one behind it a higher one
      rcases Nat.lt_or_ge i j with hlt | hge
      · have hnext := numberOf_add_width_le hi hlt
        rw [RawConstant.width_of_wide hwide] at hnext
        omega
      · have hle := numberOf_mono cs hge
        omega
    get_beyond := fun k hk => hfails k fun i c hi hnumber => by
      have hlt := numberOf_lt_length hi
      have hle : count.toNat ≤ k.toNat := hk
      omega }

/-- Constants and their numbers are all that there is to a table. -/
theorem Numbers.unique {count : UInt16} (h : pool.Numbers cs count)
    (h' : pool'.Numbers cs count) : pool = pool' := by
  have hfound : ∀ {pool pool' : ConstantPool}, pool.Numbers cs count → pool'.Numbers cs count →
      ∀ k e, pool.get k = .ok e → pool'.get k = .ok e := by
    intro pool pool' h h' k e he
    obtain ⟨i, hi, hnumber⟩ := (h.get_isOk_iff k).1 ⟨e, he⟩
    obtain ⟨e₁, hentry, -, hget⟩ := h.get_numberOf i cs[i] (List.getElem?_eq_getElem hi)
    obtain ⟨e₂, hentry', -, hget'⟩ := h'.get_numberOf i cs[i] (List.getElem?_eq_getElem hi)
    obtain rfl := Option.some.inj (hentry.symm.trans hentry')
    rw [hget' k hnumber, ← he, hget k hnumber]
  have hslots : pool.slots = pool'.slots := by
    refine Array.ext (h.size.trans h'.size.symm) fun i hi hi' => Option.ext fun e => ?_
    have hk : (UInt16.ofNat i).toNat = i :=
      UInt16.toNat_ofNat_of_lt' (hi.trans (h.size ▸ count.toNat_lt))
    have hget : ∀ {pool : ConstantPool} (hi : i < pool.slots.size),
        pool.slots[i] = some e ↔ pool.get (UInt16.ofNat i) = .ok e := by
      intro pool hi
      rw [get_eq_ok, hk, Array.getElem?_eq_getElem hi, Option.some.injEq]
    rw [hget hi, hget hi']
    exact ⟨hfound h h' _ e, hfound h' h _ e⟩
  cases pool
  cases pool'
  exact congrArg _ hslots

end ConstantPool

/-! ### Constants that are read -/

/-- **Constants that some bytes spell**: those from the start of the region `s` to the start of `t`
are the constants, written out one after the other. -/
structure ConstantsBetween (s : Region) (cs : List RawConstant) (t : Region) : Prop where
  rest_eq : s.rest = cs.flatMap RawConstant.bytes ++ t.rest
  offset_eq : t.offset = s.offset + (cs.flatMap RawConstant.bytes).length
  fits : ∀ c ∈ cs, c.Fits
  decodes : ∀ c ∈ cs, ∃ e, c.entry? = some e

variable {s t u : Region} {e : PoolEntry}

theorem constantsBetween_nil (s : Region) : ConstantsBetween s [] s :=
  ⟨rfl, rfl, by simp, by simp⟩

theorem ConstantsBetween.eq_of_nil (h : ConstantsBetween s [] t) : t = s := by
  obtain ⟨rest, offset⟩ := s
  obtain ⟨rest', offset'⟩ := t
  obtain ⟨rfl : rest = rest', rfl : offset' = offset, -, -⟩ := h
  rfl

/-- The first of some constants is read, and the others follow it. -/
theorem ConstantsBetween.exists_read (h : ConstantsBetween s (c :: cs) u) :
    ∃ e t, PoolEntry.read s = .ok (e, t) ∧ c.entry? = some e ∧ ConstantsBetween t cs u := by
  obtain ⟨hfits, hcs⟩ := List.forall_mem_cons.1 h.fits
  obtain ⟨⟨e, he⟩, hdecodes⟩ := List.forall_mem_cons.1 h.decodes
  have hrest : s = ⟨c.bytes ++ (cs.flatMap RawConstant.bytes ++ u.rest), s.offset⟩ := by
    rw [← List.append_assoc, ← List.flatMap_cons, ← h.rest_eq]
  have hread := (PoolEntry.inverts_read s.offset c.bytes e).2 ⟨c, hfits, rfl, he⟩
  refine ⟨e, _, by rw [hrest]; exact hread _, he, rfl, ?_, hcs, hdecodes⟩
  rw [h.offset_eq, List.flatMap_cons, List.length_append, Nat.add_assoc]

/-- What is read is a constant, in front of those that follow it. -/
theorem PoolEntry.exists_of_read (h : PoolEntry.read s = .ok (e, t)) : ∃ c : RawConstant,
    c.entry? = some e ∧ ∀ cs u, ConstantsBetween t cs u → ConstantsBetween s (c :: cs) u := by
  obtain ⟨f, hs, ht, hw⟩ := PoolEntry.streams_read.offset_eq h
  obtain ⟨c, hfits, rfl, he⟩ := (PoolEntry.inverts_read _ _ _).1 hw
  have hrest : s.rest = c.bytes ++ t.rest := congrArg Region.rest hs
  have hoffset : t.offset = s.offset + c.bytes.length := congrArg Region.offset ht
  refine ⟨c, he, fun cs u hcs => ⟨?_, ?_, ?_, ?_⟩⟩
  · rw [hrest, hcs.rest_eq, List.flatMap_cons, List.append_assoc]
  · rw [hcs.offset_eq, hoffset, List.flatMap_cons, List.length_append, Nat.add_assoc]
  · exact List.forall_mem_cons.2 ⟨hfits, hcs.fits⟩
  · exact List.forall_mem_cons.2 ⟨⟨e, he⟩, hcs.decodes⟩

/-- Constants that can be decoded fill slots. -/
theorem exists_decodedSlots? (h : ∀ c ∈ cs, ∃ e, c.entry? = some e) :
    ∃ slots, decodedSlots? cs = some slots := by
  induction cs with
  | nil => exact ⟨_, rfl⟩
  | cons c cs ih =>
    obtain ⟨⟨e, he⟩, hcs⟩ := List.forall_mem_cons.1 h
    obtain ⟨rest, hrest⟩ := ih hcs
    exact ⟨_, decodedSlots?_cons.2 ⟨e, rest, he, hrest, rfl⟩⟩

/-- **The table that is read has the constants that follow the count, at their numbers.** -/
theorem ConstantPool.read_eq_ok_iff {pool : ConstantPool} :
    ConstantPool.read s = .ok (pool, t) ↔ ∃ (count : UInt16) (rest : Bytes) (cs : List RawConstant),
      s.rest = bigEndian 2 count.toNat ++ rest ∧ ConstantsBetween ⟨rest, s.offset + 2⟩ cs t ∧
      pool.Numbers cs count := by
  have hnumbers : ∀ {cs slots} {count : UInt16}, decodedSlots? cs = some slots →
      numberOf cs cs.length = count.toNat →
      Numbers ⟨(none :: slots).toArray⟩ cs count := by
    intro cs slots count hslots hends
    refine (denotes_of_decodedSlots? hslots).numbers ?_ hends
    rw [(decodedSlots?_eq hslots).1, ← hends, ← length_slotsOf_add_one]
    simp
  constructor
  · intro h
    obtain ⟨front, hs, ht, hw⟩ := ConstantPool.streams_read.offset_eq h
    obtain ⟨cs, hlt, hfits, rfl, slots, hslots, rfl⟩ := ConstantPool.writes_read.1 hw
    have hcount := UInt16.toNat_ofNat_of_lt' hlt
    refine ⟨UInt16.ofNat ((slotsOf RawConstant.isWide cs).length + 1),
      cs.flatMap RawConstant.bytes ++ t.rest, cs, ?_,
      ⟨rfl, ?_, hfits, (decodedSlots?_eq hslots).2⟩, hnumbers hslots ?_⟩
    · rw [hcount, ← List.append_assoc]
      exact congrArg Region.rest hs
    · have hoffset := congrArg Region.offset ht
      rw [List.length_append, length_bigEndian, ← Nat.add_assoc] at hoffset
      exact hoffset
    · rw [hcount, length_slotsOf_add_one]
  · rintro ⟨count, rest, cs, hs, hcs, hpool⟩
    obtain ⟨slots, hslots⟩ := exists_decodedSlots? hcs.decodes
    have hends : (slotsOf RawConstant.isWide cs).length + 1 = count.toNat :=
      (length_slotsOf_add_one cs).trans hpool.ends
    have hw := (ConstantPool.writes_read (o := s.offset)).2
      ⟨cs, hends ▸ count.toNat_lt, hcs.fits, rfl, slots, hslots, rfl⟩
    have hread := hw t.rest
    rw [hends, List.append_assoc, ← hcs.rest_eq, ← hs, List.length_append, length_bigEndian,
      ← Nat.add_assoc, ← hcs.offset_eq] at hread
    rw [hpool.unique (hnumbers hslots hpool.ends)]
    exact hread

/-! ### Constants that overrun their number -/

/-- **Constants that overrun their number**: there is a number below `n` for each of them, and the
last one takes more. -/
structure Overruns (n : Nat) (cs : List RawConstant) : Prop where
  starts : ∀ i < cs.length, numberOf cs i < n
  ends : n < numberOf cs cs.length

theorem not_overruns_succ_nil : ¬ Overruns (n + 1) [] := by
  intro h
  have hends : n + 1 < 1 := h.ends
  omega

theorem not_overruns_one : ¬ Overruns 1 cs := by
  intro h
  rcases cs with _ | ⟨c, cs⟩
  · exact not_overruns_succ_nil h
  · have hstart := h.starts 0 (Nat.succ_pos _)
    rw [numberOf_zero] at hstart
    omega

theorem overruns_zero : Overruns 0 cs ↔ cs = [] := by
  constructor
  · intro h
    by_contra hne
    exact absurd (h.starts 0 (List.length_pos_of_ne_nil hne)) (Nat.not_lt_zero _)
  · rintro rfl
    exact ⟨by simp, Nat.one_pos⟩

/-- Behind a constant there are less numbers left. -/
theorem overruns_cons {m : Nat} (hm : m = n + c.width) :
    Overruns (m + 1) (c :: cs) ↔ Overruns (n + 1) cs := by
  have hpos := c.width_pos
  constructor
  · intro h
    refine ⟨fun i hi => ?_, ?_⟩
    · have hstart := h.starts (i + 1) (Nat.succ_lt_succ hi)
      rw [numberOf_cons_succ] at hstart
      omega
    · have hends := h.ends
      rw [List.length_cons, numberOf_cons_succ] at hends
      omega
  · intro h
    refine ⟨?_, ?_⟩
    · rintro (_ | i) hi
      · rw [numberOf_zero]
        omega
      · have hstart := h.starts i (Nat.lt_of_succ_lt_succ hi)
        rw [numberOf_cons_succ]
        omega
    · have hends := h.ends
      rw [List.length_cons, numberOf_cons_succ]
      omega

/-- With one number left, a constant that takes two is the last one. -/
theorem overruns_two_of_wide (h : c.isWide = true) : Overruns 2 (c :: cs) ↔ cs = [] := by
  have hwidth := RawConstant.width_of_wide h
  constructor
  · intro hover
    rcases cs with _ | ⟨c', cs⟩
    · rfl
    · have hstart := hover.starts 1 (by simp)
      rw [numberOf_cons_succ, numberOf_zero, hwidth] at hstart
      omega
  · rintro rfl
    refine ⟨fun i hi => ?_, ?_⟩
    · obtain rfl : i = 0 := by simpa using hi
      exact Nat.one_lt_two
    · rw [List.length_singleton, numberOf_cons_succ, hwidth]
      decide

/-- **There are two ways to overrun a number**: no number at all is declared, not even the number 0,
or the last of the numbers is the first one of a constant that takes two. -/
theorem overruns_iff : Overruns n cs ↔ n = 0 ∧ cs = [] ∨
    ∃ before c, cs = before ++ [c] ∧ c.isWide = true ∧ n = numberOf before before.length + 1 := by
  rcases List.eq_nil_or_concat cs with rfl | ⟨before, c, rfl⟩
  · have hends : Overruns n [] → n = 0 := fun h => Nat.lt_one_iff.1 h.ends
    constructor
    · intro h
      exact .inl ⟨hends h, rfl⟩
    · rintro (⟨rfl, -⟩ | ⟨before, c, hsplit, -⟩)
      · exact overruns_zero.2 rfl
      · simp at hsplit
  · rw [List.concat_eq_append]
    have hlast : numberOf (before ++ [c]) before.length = numberOf before before.length := by
      simp [numberOf]
    constructor
    · intro h
      have hstart := h.starts before.length (by simp)
      have hends := h.ends
      rw [hlast] at hstart
      rw [numberOf_concat] at hends
      by_cases hwide : c.isWide = true
      · rw [RawConstant.width_of_wide hwide] at hends
        exact .inr ⟨before, c, rfl, hwide, by omega⟩
      · rw [RawConstant.width_of_not_wide hwide] at hends
        omega
    · rintro (⟨-, hnil⟩ | ⟨before', c', hsplit, hwide, rfl⟩)
      · simp at hnil
      · obtain ⟨rfl, hc⟩ := List.append_inj' hsplit rfl
        obtain rfl : c = c' := by simpa using hc
        refine ⟨fun i hi => ?_, ?_⟩
        · have hle : i ≤ before.length := by simpa [Nat.lt_succ_iff] using hi
          exact Nat.lt_succ_of_le (hlast ▸ numberOf_mono _ hle)
        · rw [numberOf_concat, RawConstant.width_of_wide hwide]
          omega

/-- Constants that overrun their number take one too many. -/
theorem Overruns.numberOf_length (h : Overruns n cs) : numberOf cs cs.length = n + 1 := by
  rcases overruns_iff.1 h with ⟨rfl, rfl⟩ | ⟨before, c, rfl, hwide, rfl⟩
  · rfl
  · rw [numberOf_concat, RawConstant.width_of_wide hwide]

namespace ConstantPool

variable {count k : UInt16} {p : Option Nat}

/-- Behind a constant, reading goes on with the numbers that are left. -/
theorem readSlots_eq_error_of_read {m : Nat} {err : ReadError}
    (hread : PoolEntry.read s = .ok (e, t)) (he : c.entry? = some e) (hm : m = n + c.width) :
    readSlots count m s = .error err ↔ readSlots count n t = .error err := by
  subst hm
  by_cases hwide : c.isWide = true
  · rw [RawConstant.width_of_wide hwide, readSlots, bind_ok hread, RawConstant.isWide_eq he,
      if_pos hwide]
    exact map_eq_error
  · rw [RawConstant.width_of_not_wide hwide, readSlots, bind_ok hread, RawConstant.isWide_eq he,
      if_neg hwide]
    exact map_eq_error

theorem readSlots_one_of_wide (hread : PoolEntry.read s = .ok (e, t)) (he : c.entry? = some e)
    (hwide : c.isWide = true) :
    readSlots count 1 s = .error ⟨.badConstantIndex count, some t.offset⟩ := by
  rw [readSlots, bind_ok hread, RawConstant.isWide_eq he, if_pos hwide]
  rfl

/-- **Reading fails for its number of constants exactly where they overrun it**, at their end. -/
theorem readSlots_eq_error_iff {m : Nat} :
    readSlots count m s = .error ⟨.badConstantIndex k, p⟩ ↔
      k = count ∧ ∃ cs t, ConstantsBetween s cs t ∧ Overruns (m + 1) cs ∧ p = some t.offset := by
  induction m using Nat.strong_induction_on generalizing s with
  | _ m ih =>
    rcases m with _ | m
    · constructor
      · intro h
        cases h
      · rintro ⟨-, cs, t, -, hover, -⟩
        exact absurd hover not_overruns_one
    · have hbehind : ∀ {c e t}, PoolEntry.read s = .ok (e, t) → c.entry? = some e →
          (readSlots count (m + 1) s = .error ⟨.badConstantIndex k, p⟩ ↔ k = count ∧
            ∃ cs u, ConstantsBetween t cs u ∧ Overruns (m + 2) (c :: cs) ∧ p = some u.offset) := by
        intro c e t hread he
        rcases Nat.lt_or_ge (m + 1) c.width with hlast | hleft
        · -- the last number is the first one of a constant that takes two
          obtain ⟨hwide, rfl⟩ : c.isWide = true ∧ m = 0 := by
            rw [RawConstant.width] at hlast
            split at hlast
            · exact ⟨‹_›, by omega⟩
            · omega
          rw [readSlots_one_of_wide hread he hwide]
          constructor
          · intro h
            cases h
            exact ⟨rfl, [], t, constantsBetween_nil t, (overruns_two_of_wide hwide).2 rfl, rfl⟩
          · rintro ⟨rfl, cs, u, hcs, hover, rfl⟩
            obtain rfl := (overruns_two_of_wide hwide).1 hover
            rw [hcs.eq_of_nil]
        · obtain ⟨n, hn⟩ := Nat.exists_eq_add_of_le' hleft
          have hpos := c.width_pos
          rw [readSlots_eq_error_of_read hread he hn, ih n (by omega)]
          simp only [overruns_cons hn]
      constructor
      · intro h
        have hread : ∃ e t, PoolEntry.read s = .ok (e, t) := by
          rw [readSlots] at h
          rcases bind_eq_error.1 h with hread | ⟨e, t, hread, -⟩
          · exact absurd hread PoolEntry.read_ne_badConstantIndex
          · exact ⟨e, t, hread⟩
        obtain ⟨e, t, hread⟩ := hread
        obtain ⟨c, he, hcons⟩ := PoolEntry.exists_of_read hread
        obtain ⟨hk, cs, u, hcs, hover, hp⟩ := (hbehind hread he).1 h
        exact ⟨hk, c :: cs, u, hcons cs u hcs, hover, hp⟩
      · rintro ⟨hk, _ | ⟨c, cs⟩, u, hcs, hover, hp⟩
        · exact absurd hover not_overruns_succ_nil
        · obtain ⟨e, t, hread, he, hcs⟩ := hcs.exists_read
          exact (hbehind hread he).2 ⟨hk, cs, u, hcs, hover, hp⟩

/-- The count of a table stands before its constants. -/
theorem read_eq_error_iff :
    ConstantPool.read s = .error ⟨.badConstantIndex k, p⟩ ↔
      ∃ (rest : Bytes) (cs : List RawConstant) (t : Region),
        s.rest = bigEndian 2 k.toNat ++ rest ∧ ConstantsBetween ⟨rest, s.offset + 2⟩ cs t ∧
        Overruns k.toNat cs ∧ p = some t.offset := by
  have hcount : ∀ count rest, s.rest = bigEndian 2 count.toNat ++ rest →
      u16 s = .ok (count, ⟨rest, s.offset + 2⟩) := by
    intro count rest hs
    have hw := (writes_u16 (o := s.offset)).2 (rfl : bigEndian 2 count.toNat = _) rest
    rw [← hs, length_bigEndian] at hw
    exact hw
  rw [ConstantPool.read]
  constructor
  · intro h
    rcases bind_eq_error.1 h with hfail | ⟨count, t, hread, h⟩
    · obtain ⟨-, he⟩ := bytes_eq_error.1 (map_eq_error.1 hfail)
      cases he
    · obtain ⟨f, hs, ht, hw⟩ := streams_u16.offset_eq hread
      obtain rfl := writes_u16.1 hw
      have hrest : s.rest = bigEndian 2 count.toNat ++ t.rest := congrArg Region.rest hs
      rw [length_bigEndian] at ht
      rcases hn : count.toNat with _ | n <;> simp only [hn] at h
      · cases h
        refine ⟨t.rest, [], t, hrest, ?_, hn ▸ overruns_zero.2 rfl, rfl⟩
        rw [← ht]
        exact constantsBetween_nil t
      · obtain ⟨rfl, cs, u, hcs, hover, hp⟩ := readSlots_eq_error_iff.1 (map_eq_error.1 h)
        refine ⟨t.rest, cs, u, hrest, ?_, hn ▸ hover, hp⟩
        rw [← ht]
        exact hcs
  · rintro ⟨rest, cs, t, hs, hcs, hover, rfl⟩
    rw [bind_ok (hcount k rest hs)]
    rcases hn : k.toNat with _ | n
    · obtain rfl := overruns_zero.1 (hn ▸ hover)
      obtain rfl := hcs.eq_of_nil
      rfl
    · exact map_eq_error.2 (readSlots_eq_error_iff.2 ⟨rfl, cs, t, hcs, hn ▸ hover, rfl⟩)

/-- **The numbers of the constants that are read.** A table is read just from the count of its
numbers and the constants that take them, and it has each of these at its number and nothing at the
others. And constants are found to overrun the count of their numbers just if they do. -/
theorem read_numbers (contents : Bytes) (o : Nat) :
    (∀ pool t, ConstantPool.read ⟨contents, o⟩ = .ok (pool, t) ↔
      ∃ (count : UInt16) (rest : Bytes) (cs : List RawConstant),
        contents = bigEndian 2 count.toNat ++ rest ∧ ConstantsBetween ⟨rest, o + 2⟩ cs t ∧
        pool.Numbers cs count) ∧
    ∀ k p, ConstantPool.read ⟨contents, o⟩ = .error ⟨.badConstantIndex k, p⟩ ↔
      ∃ (rest : Bytes) (cs : List RawConstant) (t : Region),
        contents = bigEndian 2 k.toNat ++ rest ∧ ConstantsBetween ⟨rest, o + 2⟩ cs t ∧
        Overruns k.toNat cs ∧ p = some t.offset :=
  ⟨fun _ _ => read_eq_ok_iff, fun _ _ => read_eq_error_iff⟩

/-- A double in the last number that there is. -/
example : ConstantPool.read ⟨[0, 2, 6, 0, 0, 0, 0, 0, 0, 0, 0], 0⟩ =
    .error ⟨.badConstantIndex 2, some 11⟩ := rfl

end ConstantPool

end Classpath.ClassFile

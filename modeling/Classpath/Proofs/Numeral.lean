import Mathlib.Algebra.Group.Int.Defs
import Classpath.Number.Numeral
import Classpath.Proofs.Text

/-!
# Numerals that were written

An integer that was written in decimals is read back, and a text is no numeral if it has a point and
begins with something else than a numeral does.

* `Classpath.Numeral.int?_toString` – reading back an integer.
* `Classpath.Numeral.int?_eq_none`, `Classpath.Numeral.double?_eq_none` – texts that are no
  numerals.
-/

namespace Classpath

theorem digit?_eq_some {c : Char} (h : c.isDigit) : digit? c = some (c.toNat - '0'.toNat) := by
  rw [Char.isDigit_iff_toNat] at h
  exact if_pos ⟨Char.le_def.mpr (UInt32.le_iff_toNat_le.mpr h.1),
    Char.le_def.mpr (UInt32.le_iff_toNat_le.mpr h.2)⟩

namespace Numeral

variable {s : List Char} {c : Char}

/-! ### Reading back -/

theorem foldDigits?_eq_some (h : ∀ c ∈ s, c.isDigit) (n : Nat) :
    foldDigits? n s = some (Nat.ofDigitChars 10 s n) := by
  induction s generalizing n with
  | nil => rfl
  | cons c s ih =>
    obtain ⟨hc, hs⟩ := List.forall_mem_cons.mp h
    rw [foldDigits?, digit?_eq_some hc, Option.bind_some, ih hs, Nat.ofDigitChars_cons]

theorem nat?_toDigits (n : Nat) : nat? (Nat.toDigits 10 n) = some n := by
  have hdigits : ∀ c ∈ Nat.toDigits 10 n, c.isDigit := fun c hc =>
    Nat.isDigit_of_mem_toDigits (by decide) (by decide) hc
  rw [nat?, if_neg (by simp [Nat.toDigits_ne_nil]), foldDigits?_eq_some hdigits,
    Nat.ofDigitChars_ten_toDigits]

theorem splitSign_eq_self (hminus : s.head? ≠ some '-') (hplus : s.head? ≠ some '+') :
    splitSign s = (false, s) := by
  rw [splitSign]
  · rintro rest rfl
    exact hminus rfl
  · rintro rest rfl
    exact hplus rfl

theorem signed?_toString (n : Int) : signed? (toString n).toList = some n := by
  rw [Int.toString_eq_repr, Int.repr_eq_if]
  split
  · rename_i hn
    have hdigits : ∀ c ∈ (Nat.toDigits 10 n.toNat).head?, c.isDigit := fun c hc =>
      Nat.isDigit_of_mem_toDigits (by decide) (by decide) (List.mem_of_mem_head? hc)
    have hsign : splitSign (Nat.toDigits 10 n.toNat) = (false, Nat.toDigits 10 n.toNat) := by
      refine splitSign_eq_self (fun h => ?_) fun h => ?_
      · exact absurd (hdigits _ h) (by decide)
      · exact absurd (hdigits _ h) (by decide)
    rw [Nat.toList_repr, signed?, hsign]
    simp only [nat?_toDigits]
    exact congrArg some (Int.toNat_of_nonneg hn)
  · rename_i hn
    have htext : ("-" ++ (-n).toNat.repr).toList = '-' :: Nat.toDigits 10 (-n).toNat := by
      simp
    have hneg : ((-n).toNat : Int) = -n := Int.toNat_of_nonneg (by omega)
    rw [htext, signed?, splitSign]
    simp only [nat?_toDigits]
    change some (-((-n).toNat : Int)) = some n
    rw [hneg, Int.neg_neg]

/-- **An integer is read back** if it fits. -/
theorem int?_toString {bits : Nat} {n : Int} (hlow : -2 ^ (bits - 1) ≤ n)
    (hhigh : n < 2 ^ (bits - 1)) : int? bits (toString n).toList = some n := by
  rw [int?, signed?_toString, Option.filter_some]
  simp [hlow, hhigh]

theorem toString_ne_nil (n : Int) : (toString n).toList ≠ [] := by
  rw [Int.toString_eq_repr, Int.repr_eq_if]
  split <;> simp [Nat.toDigits_ne_nil]

/-- An integer is written in digits, and possibly with a sign. -/
theorem isDigit_of_mem_toString {n : Int} (h : c ∈ (toString n).toList) : c = '-' ∨ c.isDigit := by
  have hdigits : ∀ m : Nat, c ∈ Nat.toDigits 10 m → c.isDigit := fun m hm =>
    Nat.isDigit_of_mem_toDigits (by decide) (by decide) hm
  rw [Int.toString_eq_repr, Int.repr_eq_if] at h
  split at h
  · exact .inr (hdigits _ (by simpa using h))
  · rw [String.toList_append, List.mem_append] at h
    rcases h with hsign | hdigit
    · exact .inl (by simpa using hsign)
    · exact .inr (hdigits _ (by simpa using hdigit))

/-- An integer has only characters that every digit and the sign are among. -/
theorem forall_mem_toString {P : Char → Prop} (hsign : P '-') (hdigit : ∀ c : Char, c.isDigit → P c)
    (n : Int) : ∀ c ∈ (toString n).toList, P c := by
  intro c hc
  rcases isDigit_of_mem_toString hc with rfl | hd
  · exact hsign
  · exact hdigit c hd

/-! ### Other texts -/

theorem foldDigits?_eq_none (hc : c ∈ s) (hdigit : digit? c = none) (n : Nat) :
    foldDigits? n s = none := by
  induction s generalizing n with
  | nil => cases hc
  | cons d s ih =>
    rcases List.mem_cons.mp hc with rfl | hs
    · rw [foldDigits?, hdigit, Option.bind_none]
    · rcases hd : digit? d with _ | m
      · rw [foldDigits?, hd, Option.bind_none]
      · rw [foldDigits?, hd, Option.bind_some, ih hs]

theorem nat?_eq_none (hc : c ∈ s) (hdigit : digit? c = none) : nat? s = none := by
  rw [nat?, foldDigits?_eq_none hc hdigit, ite_self]

/-- A point is not part of an integer. -/
theorem signed?_eq_none (h : '.' ∈ s) : signed? s = none := by
  have hmagnitude : '.' ∈ (splitSign s).2 := by
    unfold splitSign
    split <;> simpa using h
  have hnone := nat?_eq_none hmagnitude (by decide)
  rw [signed?]
  simp only [hnone]
  rfl

theorem int?_eq_none (bits : Nat) (h : '.' ∈ s) : int? bits s = none := by
  rw [int?, signed?_eq_none h]
  rfl

/-- What stands before the exponent begins as the text does: an exponent has no point. -/
theorem mem_of_splitExponent? (h : '.' ∈ s) {mantissa : List Char} {exponent : Int}
    (hsplit : splitExponent? (c :: s) = some (mantissa, exponent)) : c ∈ mantissa := by
  rw [splitExponent?] at hsplit
  by_cases hmark : isExponentMark c = true
  · rw [List.dropWhile_cons_of_neg (by simpa using hmark)] at hsplit
    simp only [signed?_eq_none h] at hsplit
    cases hsplit
  · have hkeep : (c :: s).takeWhile (!isExponentMark ·) =
        c :: s.takeWhile (!isExponentMark ·) := List.takeWhile_cons_of_pos (by simpa using hmark)
    split at hsplit
    · obtain ⟨rfl, -⟩ := Prod.mk.inj (Option.some.inj hsplit)
      exact List.mem_cons_self ..
    · obtain ⟨e, -, heq⟩ := Option.map_eq_some_iff.mp hsplit
      obtain ⟨rfl, -⟩ := Prod.mk.inj heq
      rw [hkeep]
      exact List.mem_cons_self ..

/-- **A text that has a point is no decimal** if it begins with neither a digit nor the point. -/
theorem decimal?_eq_none (hc : digit? c = none) (hne : c ≠ '.') (h : '.' ∈ s) :
    decimal? (c :: s) = none := by
  rw [decimal?]
  rcases hsplit : splitExponent? (c :: s) with _ | ⟨mantissa, exponent⟩
  · rfl
  · have hmem := mem_of_splitExponent? h hsplit
    simp only [Option.bind_eq_bind, Option.bind_some]
    rcases hcut : cutAt? '.' mantissa with _ | ⟨whole, fraction⟩
    · simp only [nat?_eq_none hmem hc]
      rfl
    · rw [eq_append_of_cutAt?_eq_some hcut] at hmem
      have hdigits : c ∈ whole ++ fraction := by
        rcases List.mem_append.mp hmem with hwhole | hrest
        · exact List.mem_append_left fraction hwhole
        · exact List.mem_append_right whole ((List.mem_cons.mp hrest).resolve_left hne)
      simp only [nat?_eq_none hdigits hc]
      rfl

theorem double?_eq_none (hc : digit? c = none) (hne : c ≠ '.') (hminus : c ≠ '-') (hplus : c ≠ '+')
    (h : '.' ∈ s) : double? (c :: s) = none := by
  have hsign : splitSign (c :: s) = (false, c :: s) :=
    splitSign_eq_self (by simpa using hminus) (by simpa using hplus)
  have hpoint : '.' ∈ lowerAscii (c :: s) :=
    List.mem_map.mpr ⟨'.', List.mem_cons_of_mem c h, by decide⟩
  have hname : ∀ name : List Char, '.' ∉ name → lowerAscii (c :: s) ≠ name := by
    rintro name hnot rfl
    exact hnot hpoint
  rw [double?, hsign]
  simp only [hname "inf".toList (by decide), hname "infinity".toList (by decide),
    hname "nan".toList (by decide), decimal?_eq_none hc hne h]
  rfl

end Numeral

end Classpath

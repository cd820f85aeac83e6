import Classpath.Text
import Classpath.Number.Binary64

/-!
# Numerals

The decimal numerals that are read as values: integers with an optional sign, and decimals with an
optional point and exponent.

* `Classpath.Numeral.int?` – the integer that a text writes, within bounds.
* `Classpath.Numeral.double?` – the double-precision number that a text writes.
-/

namespace Classpath.Numeral

/-- The number that a list of decimal digits writes, which must hold nothing else. -/
def foldDigits? : Nat → List Char → Option Nat
  | n, [] => some n
  | n, c :: rest => (digit? c).bind fun d => foldDigits? (10 * n + d) rest

/-- The number that a nonempty text of decimal digits writes. -/
def nat? (s : List Char) : Option Nat :=
  if s.isEmpty then none else foldDigits? 0 s

/-- The number that a text of digits writes, which may have a plus sign. -/
def unsigned? : List Char → Option Nat
  | '+' :: s => nat? s
  | s => nat? s

/-- Whether a text starts with a minus sign, and the text without its sign. -/
def splitSign : List Char → Bool × List Char
  | '-' :: rest => (true, rest)
  | '+' :: rest => (false, rest)
  | s => (false, s)

/-- The integer that a text of digits with an optional sign writes. -/
def signed? (s : List Char) : Option Int :=
  let (negative, magnitude) := splitSign s
  (nat? magnitude).map fun n => if negative then -(n : Int) else n

/-- The integer of at most `bits` bits, sign included, that a text writes. -/
def int? (bits : Nat) (s : List Char) : Option Int :=
  let bound : Int := Nat.pow 2 (bits - 1)
  (signed? s).filter fun n => -bound ≤ n && n < bound

/-- A mark of an exponent. -/
def isExponentMark (c : Char) : Bool :=
  c = 'e' || c = 'E'

/-- The digits before an exponent, and the exponent, 0 if there is none. -/
def splitExponent? (s : List Char) : Option (List Char × Int) :=
  match s.dropWhile (!isExponentMark ·) with
  | [] => some (s, 0)
  | _ :: exponent =>
    (signed? exponent).map fun e => (s.takeWhile (!isExponentMark ·), e)

/-- The digits of a decimal and the power of ten that they count. There is a digit before or after
the point. -/
def decimal? (s : List Char) : Option (Nat × Int) := do
  let (mantissa, exponent) ← splitExponent? s
  match cutAt? '.' mantissa with
  | none => (nat? mantissa).map fun n => (n, exponent)
  | some (whole, fraction) =>
    (nat? (whole ++ fraction)).map fun n => (n, exponent - fraction.length)

/-- A text with its ASCII capitals made small. -/
def lowerAscii (s : List Char) : List Char :=
  s.map Char.toLower

/-- The bits of the double-precision number that a text writes: a decimal, or a name of infinity or
of no number in any case. -/
def double? (s : List Char) : Option Nat :=
  let (negative, magnitude) := splitSign s
  let name := lowerAscii magnitude
  let bits? :=
    if name = "inf".toList || name = "infinity".toList then some Binary64.infinity
    else if name = "nan".toList then some Binary64.nan
    else (decimal? magnitude).map fun (n, e) => Binary64.ofDecimal n e
  bits?.map fun bits => if negative then Binary64.negate bits else bits

end Classpath.Numeral

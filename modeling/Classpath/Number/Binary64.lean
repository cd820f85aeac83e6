/-!
# Double-precision numbers

Numbers of the format with 53 significant bits, given by their 64 bits. All arithmetic is exact:
a decimal is a fraction of natural numbers, and the number nearest to it is found by division.

* `Classpath.Binary64.nearest` – the number nearest to a fraction, a tie going to the even one.
* `Classpath.Binary64.ofDecimal` – the number nearest to `digits · 10 ^ exponent`.
* `Classpath.Binary64.text` – the fewest digits that read back as the number, positional.
-/

namespace Classpath.Binary64

/-! ### Rounding -/

/-- The first of the 53 significant bits, which is not written out: `2 ^ 52`. -/
def hiddenBit : Nat := 0x10000000000000

/-- The bit of the sign: `2 ^ 63`. -/
def signBit : Nat := 0x8000000000000000

/-- The bits of infinity. -/
def infinity : Nat := 0x7FF * hiddenBit

/-- The bits of a number that is none. -/
def nan : Nat := 0x7FF8000000000000

/-- `num / den` times `base ^ e`, as a fraction. -/
def scaled (base num den : Nat) (e : Int) : Nat × Nat :=
  match e with
  | .ofNat n => (num * Nat.pow base n, den)
  | .negSucc n => (num, den * Nat.pow base (n + 1))

/-- The largest `e` with `2 ^ e ≤ num / den`, for a positive fraction. -/
def floorLog (num den : Nat) : Int :=
  let guess : Int := (Nat.log2 num : Int) - (Nat.log2 den : Int)
  let (n, d) := scaled 2 num den (-guess)
  if n < d then guess - 1 else guess

/-- The natural number nearest to a fraction, a tie going to the even one. -/
def roundDiv (num den : Nat) : Nat :=
  let q := num / den
  let r := num % den
  if 2 * r > den || (2 * r = den && q % 2 = 1) then q + 1 else q

/-- The bits of the number nearest to a fraction. Its last bit is worth `2 ^ e`, where `e` is so
small that 53 bits are used but never below -1074; a number too large is infinite. -/
def nearest (num den : Nat) : Nat :=
  if num = 0 then 0
  else
    let e := max (floorLog num den - 52) (-1074)
    if e > 971 then infinity
    else
      let (n, d) := scaled 2 num den (-e)
      min infinity ((e + 1074).toNat * hiddenBit + roundDiv n d)

/-- The bits of the number nearest to `digits · 10 ^ exponent`. Exponents far outside the range of
the format are settled by the count of digits alone. -/
def ofDecimal (digits : Nat) (exponent : Int) : Nat :=
  if digits = 0 then 0
  else
    let size : Int := (Nat.toDigits 10 digits).length + exponent
    if size > 310 then infinity
    else if size < -330 then 0
    else
      let (n, d) := scaled 10 digits 1 exponent
      nearest n d

/-- The bits of a number with its sign reversed. -/
def negate (bits : Nat) : Nat :=
  (bits + signBit) % (2 * signBit)

/-! ### Text -/

/-- The significant digits and the exponent of two that a finite number's bits write. -/
def decode (bits : Nat) : Nat × Int :=
  let field : Nat := bits / hiddenBit % 0x800
  let fraction : Nat := bits % hiddenBit
  if field = 0 then (fraction, -1074) else (fraction + hiddenBit, (field : Int) - 1075)

/-- Whether the bits are those of no number. -/
def isNan (bits : Nat) : Bool :=
  bits % signBit > infinity

/-- An integer by which numbers are in order; both zeros have the same one. -/
def orderKey (bits : Nat) : Int :=
  let magnitude : Nat := bits % signBit
  if bits / signBit % 2 = 1 then -magnitude else magnitude

/-- Four times the ends of the interval of fractions that round to a number, in units of its last
bit. The interval is shorter below a power of two. -/
def interval (m : Nat) (e : Int) : Nat × Nat :=
  (if m = hiddenBit && e > -1074 then 4 * m - 1 else 4 * m - 2, 4 * m + 2)

/-- A multiple of `10 ^ p` that reads back as `m · 2 ^ e`, by its factor; of two such multiples the
one nearer to the number. -/
def onGrid? (m : Nat) (e p : Int) : Option Nat :=
  let (low, high) := interval m e
  -- All of these are counted in units of `2 ^ (e - 2)`, and then in multiples of `10 ^ p`.
  let (unitNum, unitDen) := scaled 2 1 1 (e - 2)
  let (n, d) := scaled 10 unitNum unitDen (-p)
  let inside (k : Nat) : Bool :=
    if m % 2 = 0 then low * n ≤ k * d && k * d ≤ high * n
    else low * n < k * d && k * d < high * n
  let value := 4 * m * n
  let k := value / d
  let below := inside k && k ≠ 0
  let above := inside (k + 1)
  if below && above then
    let r := value % d
    some (if 2 * r > d || (2 * r = d && k % 2 = 1) then k + 1 else k)
  else if below then some k
  else if above then some (k + 1)
  else none

/-- The fewest digits that read back as `m · 2 ^ e`, and the power of ten that they count. The
number has `size` digits before the point; grids get finer until one holds such a multiple. -/
def shortest (m : Nat) (e size : Int) : Nat → Nat → Nat × Int
  | _, 0 => (0, 0)
  | n, more + 1 =>
    match onGrid? m e (size - n) with
    | some k => (k, size - n)
    | none => shortest m e size (n + 1) more

/-- The count of decimal digits before the point, at least for numbers above 1, and a bound for it
otherwise. -/
def decimalSize (m : Nat) (e : Int) : Int :=
  let (n, d) := scaled 2 m 1 e
  if n ≥ d then (Nat.toDigits 10 (n / d)).length
  else 1 - (Nat.toDigits 10 (d / n)).length

/-- `digits · 10 ^ p` without an exponent, and at least one digit after the point. -/
def positional (digits : Nat) (p : Int) : String :=
  let ds := Nat.toDigits 10 digits
  match p with
  | .ofNat n => String.ofList (ds ++ List.replicate n '0') ++ ".0"
  | .negSucc n =>
    let places := n + 1
    let ds := List.replicate (places + 1 - ds.length) '0' ++ ds
    String.ofList (ds.take (ds.length - places)) ++ "."
      ++ String.ofList (ds.drop (ds.length - places))

/-- The text of a number: the fewest digits that read back as it. -/
def text (bits : Nat) : String :=
  let negative := bits / signBit % 2 = 1
  let magnitude := bits % signBit
  if isNan bits then "NaN"
  else
    let body :=
      if magnitude = infinity then "inf"
      else if magnitude = 0 then "0.0"
      else
        let (m, e) := decode magnitude
        let (digits, p) := shortest m e (decimalSize m e) 0 20
        positional digits p
    if negative then "-" ++ body else body

/-- The text of a number, without a point if it is whole. -/
def shortText (bits : Nat) : String :=
  let digits := (text bits).toList
  String.ofList ((['.', '0'].isSuffixOf? digits).getD digits)

end Classpath.Binary64

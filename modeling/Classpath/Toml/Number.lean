import Classpath.Toml.Strings
import Classpath.Toml.Value

/-!
# Numbers, dates and times of TOML

Digits may be grouped by single underscores. An integer has 64 bits, sign included; a number with a
point or an exponent is rounded to double precision and must not be too large for it. Dates are days
of the calendar, and times are those of a clock that may show a leap second.

* `Classpath.Toml.number` – an integer or a floating-point number.
* `Classpath.Toml.dateTime` – a date, a time or both.
-/

namespace Classpath.Toml

/-! ### Numbers -/

/-- One or more digits, grouped or not, without the underscores. -/
def digits (isDigit : Char → Bool) : Reading (List Char) := fun s =>
  let run := s.takeWhile fun c => isDigit c || c = '_'
  let groups := run.splitOn '_'
  if groups.any (·.isEmpty) then none else some (groups.flatten, s.drop run.length)

/-- One or more decimal digits. -/
def decimalDigits : Reading (List Char) :=
  digits Char.isDigit

/-- An integer of 64 bits, sign included. -/
def integerValue? (n : Int) : Option Value :=
  if -0x8000000000000000 ≤ n ∧ n < 0x8000000000000000 then some (.integer n) else none

/-- An integer in another base than ten; its mark has been read. -/
def based (base : Nat) (s : List Char) : Option (Value × List Char) := do
  let isDigit (c : Char) : Bool := ((hexDigit? c).map fun d => decide (d < base)).getD false
  let (ds, s) ← digits isDigit s
  let n := (ds.filterMap hexDigit?).foldl (fun n d => base * n + d) 0
  some (← integerValue? n, s)

/-- The digits after a point, if there is one. -/
def fraction : Reading (Option (List Char))
  | '.' :: s => (decimalDigits s).map fun (ds, s) => (some ds, s)
  | s => some (none, s)

/-- The exponent, if there is one. -/
def exponent : Reading (Option Int)
  | [] => some (none, [])
  | c :: s =>
    if Numeral.isExponentMark c then do
      let (negative, s) := Numeral.splitSign s
      let (ds, s) ← decimalDigits s
      let n ← Numeral.nat? ds
      some (some (if negative then -(n : Int) else n), s)
    else some (none, c :: s)

/-- The floating-point number `digits · 10 ^ e`, with its sign. Only a negative one may be too
large. -/
def floatValue? (negative : Bool) (digits : Nat) (e : Int) : Option Value :=
  let bits := Binary64.ofDecimal digits e
  if negative then some (.float (Binary64.negate bits))
  else if bits = Binary64.infinity then none
  else some (.float bits)

/-- A decimal number; its sign has been read. A leading zero stands alone before the point. -/
def decimal (negative : Bool) (s : List Char) : Option (Value × List Char) := do
  let (whole, s) ← decimalDigits s
  if whole.head? = some '0' && whole.length ≠ 1 then none
  else
    let (places, s) ← fraction s
    let (e, s) ← exponent s
    let n ← Numeral.nat? (whole ++ places.getD [])
    let value ←
      if places.isNone && e.isNone then integerValue? (if negative then -(n : Int) else n)
      else floatValue? negative n (e.getD 0 - (places.getD []).length)
    some (value, s)

/-- A number without its sign. -/
def magnitude (negative : Bool) : List Char → Option (Value × List Char)
  | 'i' :: 'n' :: 'f' :: s =>
    some (.float (if negative then Binary64.negate Binary64.infinity else Binary64.infinity), s)
  | 'n' :: 'a' :: 'n' :: s => some (.float Binary64.nan, s)
  | s => decimal negative s

/-- An integer or a floating-point number. Other bases than ten take no sign. -/
def number : List Char → Option (Value × List Char)
  | '0' :: 'x' :: s => based 16 s
  | '0' :: 'o' :: s => based 8 s
  | '0' :: 'b' :: s => based 2 s
  | '-' :: s => magnitude true s
  | '+' :: s => magnitude false s
  | s => magnitude false s

/-! ### Dates and times -/

/-- A number of exactly `width` digits within bounds. -/
def field (width low high : Nat) : Reading Nat := fun s => do
  let n ← Numeral.nat? (s.take width)
  if width ≤ s.length && low ≤ n && n ≤ high then some (n, s.drop width) else none

/-- The text after the character that it must start with. -/
def mark? (c : Char) (s : List Char) : Option (List Char) :=
  if s.head? = some c then some (s.drop 1) else none

/-- The number of days of a month. -/
def daysIn (year month : Nat) : Nat :=
  if month = 2 then
    if year % 4 = 0 && (year % 100 ≠ 0 || year % 400 = 0) then 29 else 28
  else if month ∈ [4, 6, 9, 11] then 30
  else 31

/-- The text after a date. -/
def afterDate? (s : List Char) : Option (List Char) := do
  let (year, s) ← field 4 0 9999 s
  let (month, s) ← field 2 1 12 (← mark? '-' s)
  let (_, s) ← field 2 1 (daysIn year month) (← mark? '-' s)
  some s

/-- The text after hours and minutes. -/
def afterMinutes? (s : List Char) : Option (List Char) := do
  let (_, s) ← field 2 0 23 s
  let (_, s) ← field 2 0 59 (← mark? ':' s)
  some s

/-- The text after a time of day. -/
def afterTime? (s : List Char) : Option (List Char) := do
  let (_, s) ← field 2 0 60 (← mark? ':' (← afterMinutes? s))
  let places := (s.drop 1).takeWhile Char.isDigit
  some (if s.head? = some '.' && !places.isEmpty then s.drop (places.length + 1) else s)

/-- The text after the offset from universal time that may stand there. -/
def afterOffset (s : List Char) : List Char :=
  match s with
  | 'Z' :: rest | 'z' :: rest => rest
  | '+' :: rest | '-' :: rest => (afterMinutes? rest).getD s
  | _ => s

/-- The text after the time that may follow a date. -/
def afterTimeOfDate (s : List Char) : List Char :=
  match s with
  | c :: rest =>
    if c = 'T' || c = 't' || c = ' ' then ((afterTime? rest).map afterOffset).getD s else s
  | [] => []

/-- A date, a time or both. -/
def dateTime (s : List Char) : Option (Value × List Char) := do
  let rest ← ((afterDate? s).map afterTimeOfDate).or (afterTime? s)
  some (.dateTime (String.ofList (s.take (s.length - rest.length))), rest)

end Classpath.Toml

import Classpath.Number.Numeral
import Classpath.Pattern.Support

/-!
# Fields in log filters

A directive of a log filter may hold for the spans with a certain field, or for those in which this
field has a certain value. A value is a truth value or a number if it reads as one, and a pattern
otherwise, which must be one that can be used.

* `Classpath.LogValue`, `Classpath.LogField` – values and fields.
* `Classpath.LogField.compare` – their order.
-/

namespace Classpath

/-- A value that a field must have. -/
inductive LogValue where
  | boolean (b : Bool)
  /-- A double-precision number, by its bits. -/
  | double (bits : Nat)
  /-- The value of a computation that has no number as its result. -/
  | noNumber
  | natural (n : Nat)
  | integer (n : Int)
  | pattern (text : List Char)
  deriving DecidableEq, Repr

namespace LogValue

/-- The value that a text writes. Numbers are read as natural numbers of 64 bits before they are read
as integers of 64 bits, and as these before they are read as doubles. -/
def ofText? (s : List Char) : Option LogValue :=
  if s = "true".toList then some (.boolean true)
  else if s = "false".toList then some (.boolean false)
  else
    match (Numeral.unsigned? s).filter (· < UInt64.size), Numeral.int? 64 s, Numeral.double? s with
    | some n, _, _ => some (.natural n)
    | none, some n, _ => some (.integer n)
    | none, none, some bits => some (if Binary64.isNan bits then .noNumber else .double bits)
    | none, none, none => if Pattern.isUsable s then some (.pattern s) else none

/-- A value as it is written. -/
def text : LogValue → List Char
  | boolean b => (toString b).toList
  | double bits => (Binary64.shortText bits).toList
  | noNumber => "NaN".toList
  | natural n => (toString n).toList
  | integer n => (toString n).toList
  | pattern text => text

/-- The place of the kind of a value among the kinds. -/
def rank : LogValue → Nat
  | boolean _ => 0
  | double _ => 1
  | noNumber => 2
  | natural _ => 3
  | integer _ => 4
  | pattern _ => 5

/-- Values of different kinds are in the order of the kinds, and those of a kind in its own. -/
def compare : LogValue → LogValue → Ordering
  | boolean a, boolean b => Ord.compare a b
  | double a, double b => Ord.compare (Binary64.orderKey a) (Binary64.orderKey b)
  | natural a, natural b => Ord.compare a b
  | integer a, integer b => Ord.compare a b
  | pattern a, pattern b => compareText a b
  | a, b => Ord.compare a.rank b.rank

end LogValue

/-- A field of a span, and the value that it must have, if any. -/
structure LogField where
  name : List Char
  value : Option LogValue := none
  deriving DecidableEq, Repr

namespace LogField

/-- A field and its value; further values are passed over. -/
def ofText? (s : List Char) : Option LogField :=
  match s.splitOn '=' with
  | name :: value :: _ => (LogValue.ofText? value).map fun v => ⟨name, some v⟩
  | _ => some ⟨s, none⟩

/-- A field as it is written. -/
def text (f : LogField) : List Char :=
  f.name ++ f.value.elim [] ('=' :: ·.text)

/-- Fields: those with a value come last. -/
def compare (a b : LogField) : Ordering :=
  ((Ord.compare a.value.isSome b.value.isSome).then (compareText a.name b.name)).then
    (compareOption LogValue.compare a.value b.value)

end LogField

end Classpath

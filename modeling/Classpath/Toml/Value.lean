import Classpath.Text.Quoted
import Classpath.Number.Binary64

/-!
# Values of TOML

What a TOML document holds: a table of values by key. The entries of a table are in the order in
which the document brings them, each key once.

* `Classpath.Toml.Value` – a value.
* `Classpath.Toml.Value.describe` – a value as errors name it.
-/

namespace Classpath.Toml

/-- A value. -/
inductive Value where
  | string (text : String)
  | integer (n : Int)
  /-- A double-precision number, by its bits. -/
  | float (bits : Nat)
  | boolean (b : Bool)
  /-- A date, a time or both, as it is written. -/
  | dateTime (text : String)
  | array (elements : List Value)
  | table (entries : List (String × Value))
  deriving Repr, Inhabited

/-- A table, in document order. -/
abbrev Table := List (String × Value)

/-- A value as errors name it. -/
def Value.describe : Value → String
  | string text => "string " ++ quotedText text
  | integer n => "integer `" ++ toString n ++ "`"
  | float bits => "floating point `" ++ Binary64.text bits ++ "`"
  | boolean b => "boolean `" ++ toString b ++ "`"
  | array _ => "sequence"
  | dateTime _ | table _ => "map"

end Classpath.Toml

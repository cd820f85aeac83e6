import Classpath.Toml.Value

/-!
# Decoding of settings

A decoder takes a value of a document for what the settings ask for at its place. A record may be
written as a table or, with its fields in order, as an array. Keys that mean nothing are no errors:
they are passed over and reported by their paths.

* `Classpath.Decoder` – a decoder.
* `Classpath.Decoder.record` – a record, from decoders for its fields.
* `Classpath.Mismatch` – what can be wrong with a value, with its wording.
-/

namespace Classpath

/-! ### What can be wrong -/

/-- What can be wrong with a value. -/
inductive Mismatch where
  /-- A name is none of the ones that are allowed. -/
  | unknownVariant (found : String) (allowed : List String)
  | invalidType (found : Toml.Value) (expected : String)
  /-- An integer is out of bounds. -/
  | invalidValue (found : Int) (expected : String)
  | missingField (name : String)
  /-- A value cannot be taken for one of several names, or an array is too short for a record. -/
  | malformed
  deriving Repr, Inhabited

/-- A name between back quotes. -/
def backQuoted (name : String) : String :=
  "`" ++ name ++ "`"

/-- The names that are allowed, as errors list them. -/
def alternatives : List String → String
  | [a] => backQuoted a
  | [a, b] => backQuoted a ++ " or " ++ backQuoted b
  | names => "one of " ++ ", ".intercalate (names.map backQuoted)

/-- The wording of a mismatch. -/
def Mismatch.message : Mismatch → String
  | unknownVariant found allowed =>
    "unknown variant " ++ backQuoted found ++ ", expected " ++ alternatives allowed
  | invalidType found expected => "invalid type: " ++ found.describe ++ ", expected " ++ expected
  | invalidValue found expected =>
    "invalid value: integer " ++ backQuoted (toString found) ++ ", expected " ++ expected
  | missingField name => "missing field " ++ backQuoted name
  | malformed => "malformed value"

/-! ### Decoders -/

/-- What was decoded, and the paths of the keys that mean nothing. -/
structure Decoded (α : Type) where
  value : α
  unknown : List (List String) := []
  deriving Repr

/-- What a value of a document is taken for. -/
abbrev Decoder (α : Type) :=
  Toml.Value → Except Mismatch (Decoded α)

namespace Decoder

variable {α β : Type}

/-- A truth value. -/
def bool : Decoder Bool
  | .boolean b => .ok ⟨b, []⟩
  | v => .error (.invalidType v "a boolean")

/-- A text, by the name under which errors ask for it. -/
def textNamed (name : String) : Decoder String
  | .string text => .ok ⟨text, []⟩
  | v => .error (.invalidType v name)

/-- A natural number below a bound, by the name of its type. -/
def natBelow (bound : Nat) (name : String) : Decoder Nat
  | .integer n =>
    if 0 ≤ n ∧ n < bound then .ok ⟨n.toNat, []⟩ else .error (.invalidValue n name)
  | v => .error (.invalidType v name)

/-- What is decoded, changed by a function. -/
def map (f : α → β) (d : Decoder α) : Decoder β :=
  fun v => (d v).map fun a => ⟨f a.value, a.unknown⟩

/-- The alternative of a name. -/
def named (label : α → String) (all : List α) (name : String) : Except Mismatch (Decoded α) :=
  match all.find? (label · = name) with
  | some a => .ok ⟨a, []⟩
  | none => .error (.unknownVariant name (all.map label))

/-- Whether a value has no parts that would mean something. -/
def isEmpty : Toml.Value → Bool
  | .table entries => entries.isEmpty
  | .array elements => elements.isEmpty
  | _ => false

/-- One of several alternatives, by its name. A table with this name as its only key and nothing in
it stands for the name too. -/
def oneOf (label : α → String) (all : List α) : Decoder α
  | .string name => named label all name
  | .table [(name, content)] => do
    let a ← named label all name
    if isEmpty content then return a else .error .malformed
  | _ => .error .malformed

/-- Keys put in front of the paths of what a decoder reports. -/
def below (key : String) (a : Decoded α) : Decoded α :=
  { a with unknown := a.unknown.map (key :: ·) }

/-- The elements of a list, by a decoder for each. -/
def elements (d : Decoder α) : Nat → List Toml.Value → Except Mismatch (Decoded (List α))
  | _, [] => .ok ⟨[], []⟩
  | index, v :: rest => do
    let a := below (toString index) (← d v)
    let others ← elements d (index + 1) rest
    return ⟨a.value :: others.value, a.unknown ++ others.unknown⟩

/-- A list. -/
def list (d : Decoder α) : Decoder (List α)
  | .array vs => elements d 0 vs
  | v => .error (.invalidType v "a sequence")

/-! ### Records -/

/-- A field of a record: its key, and how its value changes the record. -/
structure Field (α : Type) where
  key : String
  read : α → Decoder α

/-- The field of a key that is set to what a decoder gives. -/
def field (key : String) (d : Decoder β) (set : α → β → α) : Field α :=
  ⟨key, fun a => map (set a) d⟩

/-- A record changed by the entries of a table, in their order. -/
def fromEntries (fields : List (Field α)) : Toml.Table → Decoded α → Except Mismatch (Decoded α)
  | [], a => .ok a
  | (key, v) :: rest, a =>
    match fields.find? (·.key = key) with
    | none => fromEntries fields rest { a with unknown := a.unknown ++ [[key]] }
    | some f => do
      let b := below key (← f.read a.value v)
      fromEntries fields rest ⟨b.value, a.unknown ++ b.unknown⟩

/-- A record whose fields are set in order. Values beyond the last field are passed over, and fields
beyond the last value stay as they are. -/
def fromElements : List (Field α) → List Toml.Value → Decoded α → Except Mismatch (Decoded α)
  | f :: fields, v :: rest, a => do
    let b := below f.key (← f.read a.value v)
    fromElements fields rest ⟨b.value, a.unknown ++ b.unknown⟩
  | _, _, a => .ok a

/-- The key that stands for a date where a record is expected. -/
def dateKey : String := "$__toml_private_datetime"

/-- A record by its name; fields that are not mentioned are those of `start`. -/
def record (name : String) (fields : List (Field α)) (start : α) : Decoder α
  | .table entries => fromEntries fields entries ⟨start, []⟩
  | .array vs => fromElements fields vs ⟨start, []⟩
  | .dateTime _ => .ok ⟨start, [[dateKey]]⟩
  | v => .error (.invalidType v ("struct " ++ name))

end Decoder

end Classpath

import Classpath.ClassFile.Error

/-!
# Type descriptors

The notation in which class files write types: a letter for a primitive type, `L` name `;` for a
class and `[` before the component of an array. A method descriptor lists its parameters in
parentheses and then its result.

* `Classpath.FieldType.text`, `Classpath.MethodDescriptor.text` – the notation.
* `Classpath.FieldType.ofText?`, `Classpath.MethodDescriptor.ofText?` – reading it back.
-/

namespace Classpath

/-- The primitive types. -/
inductive Primitive where
  | byte | char | double | float | int | long | short | boolean
  deriving DecidableEq, Repr, Inhabited

namespace Primitive

/-- The letter that stands for the type. -/
def letter : Primitive → Char
  | byte => 'B'
  | char => 'C'
  | double => 'D'
  | float => 'F'
  | int => 'I'
  | long => 'J'
  | short => 'S'
  | boolean => 'Z'

/-- The type that a letter stands for. -/
def ofLetter? : Char → Option Primitive
  | 'B' => some byte
  | 'C' => some char
  | 'D' => some double
  | 'F' => some float
  | 'I' => some int
  | 'J' => some long
  | 'S' => some short
  | 'Z' => some boolean
  | _ => none

end Primitive

/-- The type of a field, a parameter or a result. -/
inductive FieldType where
  | primitive (type : Primitive)
  /-- A class, by its internal name, as in `java/lang/String`. -/
  | object (name : String)
  | array (component : FieldType)
  deriving DecidableEq, Repr, Inhabited

namespace FieldType

/-- The descriptor of a type. -/
def chars : FieldType → List Char
  | primitive type => [type.letter]
  | object name => 'L' :: name.toList ++ [';']
  | array component => '[' :: component.chars

/-- The descriptor of a type. -/
def text (t : FieldType) : String :=
  String.ofList t.chars

/-- The internal name of the innermost component, if it is a class. -/
def elementClass? : FieldType → Option String
  | primitive _ => none
  | object name => some name
  | array component => component.elementClass?

/-- Reads one descriptor from the front of a text and returns what follows it. -/
def scan? : List Char → Option (FieldType × List Char)
  | [] => none
  | '[' :: rest => (scan? rest).map fun (component, rest) => (array component, rest)
  | 'L' :: rest =>
    match cutAt? ';' rest with
    | some (c :: name, rest) => some (object (String.ofList (c :: name)), rest)
    | _ => none
  | c :: rest => (Primitive.ofLetter? c).map fun type => (primitive type, rest)

/-- The type that a whole text describes. -/
def ofChars? (s : List Char) : Option FieldType :=
  match scan? s with
  | some (t, []) => some t
  | _ => none

/-- The type that a whole text describes. -/
def ofText? (s : String) : Option FieldType :=
  ofChars? s.toList

/-- The type that a text describes, or the complaint that it describes none. -/
def parse (s : String) : Except ClassFile.ReadError FieldType :=
  match ofText? s with
  | some t => .ok t
  | none => .error ⟨.badDescriptor s, none⟩

/-- An array type's innermost component and its number of dimensions; 0 for any other type. -/
def peel : FieldType → FieldType × Nat
  | array component => (component.peel.1, component.peel.2 + 1)
  | t => (t, 0)

/-- Reading a descriptor shortens the text. -/
theorem scan?_length_lt {s rest : List Char} {t : FieldType} (h : scan? s = some (t, rest)) :
    rest.length < s.length := by
  fun_induction scan? s generalizing t rest with
  | case1 => simp at h
  | case2 s ih =>
    obtain ⟨⟨c, r⟩, hc, heq⟩ := Option.map_eq_some_iff.1 h
    obtain ⟨-, rfl⟩ := Prod.mk.inj heq
    exact Nat.lt_succ_of_lt (ih hc)
  | case3 s c name r hcut =>
    obtain ⟨-, rfl⟩ := Prod.mk.inj (Option.some.inj h)
    rw [eq_append_of_cutAt?_eq_some hcut]
    simp only [List.length_cons, List.length_append]
    omega
  | case4 => simp at h
  | case5 c s =>
    obtain ⟨p, -, heq⟩ := Option.map_eq_some_iff.1 h
    obtain ⟨-, rfl⟩ := Prod.mk.inj heq
    simp

end FieldType

/-- A method's parameters and its result; no result type means that nothing is returned. -/
structure MethodDescriptor where
  params : List FieldType
  result : Option FieldType
  deriving DecidableEq, Repr, Inhabited

namespace MethodDescriptor

/-- The descriptor of a method. -/
def chars (m : MethodDescriptor) : List Char :=
  '(' :: (m.params.flatMap FieldType.chars ++ ')' :: (m.result.elim ['V'] FieldType.chars))

/-- The descriptor of a method. -/
def text (m : MethodDescriptor) : String :=
  String.ofList m.chars

/-- Reads types up to a closing parenthesis and returns what follows it. -/
def scanParams? (s : List Char) : Option (List FieldType × List Char) :=
  match s with
  | ')' :: rest => some ([], rest)
  | s =>
    match _h : FieldType.scan? s with
    | none => none
    | some (t, rest) => (scanParams? rest).map fun (ts, rest) => (t :: ts, rest)
termination_by s.length
decreasing_by exact FieldType.scan?_length_lt _h

/-- The method that a whole text describes. -/
def ofChars? : List Char → Option MethodDescriptor
  | '(' :: s =>
    match scanParams? s with
    | none => none
    | some (params, ['V']) => some ⟨params, none⟩
    | some (params, rest) => (FieldType.ofChars? rest).map fun t => ⟨params, some t⟩
  | _ => none

/-- The method that a whole text describes. -/
def ofText? (s : String) : Option MethodDescriptor :=
  ofChars? s.toList

/-- The method that a text describes, or the complaint that it describes none. -/
def parse (s : String) : Except ClassFile.ReadError MethodDescriptor :=
  match ofText? s with
  | some m => .ok m
  | none => .error ⟨.badDescriptor s, none⟩

end MethodDescriptor

end Classpath

import Classpath.ClassType

/-!
# Annotations

An annotation names its interface and gives values to some of its elements. Values are constants,
enum constants, class literals, annotations and arrays of values. Classes are named in two ways –
by internal names in a class file, by class types elsewhere – and the type of values is generic in
how they are named.

* `Classpath.ElementValue` – the values.
* `Classpath.AnnotationUse` – an annotation as it is written.
-/

namespace Classpath

/-- A constant value. Floating-point numbers are kept as their bits. -/
inductive Constant where
  | byte (value : Int8)
  | char (value : Char)
  | short (value : Int16)
  | int (value : Int32)
  | long (value : Int64)
  | float (bits : UInt32)
  | double (bits : UInt64)
  | boolean (value : Bool)
  | string (value : String)
  deriving DecidableEq, Repr, Inhabited

/-- The value of an annotation element, with classes named by `τ`. -/
inductive ElementValue (τ : Type) where
  | const (value : Constant)
  /-- A constant of an enum. -/
  | enumConstant (type : τ) (constant : String)
  /-- A class literal, by its descriptor. -/
  | classLiteral (descriptor : String)
  /-- A nested annotation. -/
  | nested (type : τ) (elements : List (String × ElementValue τ))
  | array (values : List (ElementValue τ))
  deriving Repr, Inhabited

/-- An annotation: its interface and its elements as written. -/
structure AnnotationUse (τ : Type) where
  type : τ
  elements : List (String × ElementValue τ)
  deriving Repr, Inhabited

end Classpath

import Classpath.ClassFile.ConstantPool
import Classpath.Descriptor

/-!
# Annotations in class files

An element value starts with a tag that says what follows: an index into the constant pool, a nested
annotation or a table of values. The types that annotations and enum constants name are checked to
be classes while they are read, so a reader of annotations only ever sees internal names.

Values nest to any depth. Every value takes at least the byte of its tag, so a region of `n` bytes
holds none that nests deeper than `n`, and reading is bounded by that number.

* `Classpath.ClassFile.readElementValue` – a value.
* `Classpath.ClassFile.readAnnotations` – a table of annotations.
-/

namespace Classpath.ClassFile

/-- The internal name of the class whose descriptor stands at an index. -/
def objectType (pool : ConstantPool) (index : UInt16) : Except ReadError String := do
  let text ← pool.utf8 index
  match ← FieldType.parse text with
  | .object name => .ok name
  | _ => .error ⟨.badDescriptor text, none⟩

/-- The kinds of constant that an element value can be. -/
inductive ConstantTag where
  | byte | char | double | float | int | long | short | boolean | string
  deriving DecidableEq, Repr

namespace ConstantTag

/-- The kind that a tag stands for. -/
def ofChar? : Char → Option ConstantTag
  | 'B' => some byte
  | 'C' => some char
  | 'D' => some double
  | 'F' => some float
  | 'I' => some int
  | 'J' => some long
  | 'S' => some short
  | 'Z' => some boolean
  | 's' => some string
  | _ => none

/-- The kind of pool constant that holds such a value. -/
def poolLabel : ConstantTag → String
  | long => "Long"
  | float => "Float"
  | double => "Double"
  | string => "String"
  | _ => "Integer"

end ConstantTag

/-- The character with a given code, which must be a Unicode scalar value. -/
def charConstant (code : UInt32) : Except ReadError Constant :=
  if h : code.toNat.isValidChar then .ok (.char (Char.ofNatAux code.toNat h))
  else .error ⟨.badAttribute "char element_value", none⟩

/-- The constant of a given kind at an index. -/
def constantAt (pool : ConstantPool) (tag : ConstantTag) (index : UInt16) :
    Except ReadError Constant := do
  match tag with
  | .string => return .string (← pool.stringConstant index)
  | tag =>
    match tag, ← pool.get index with
    | .int, .integer v => .ok (.int v.toInt32)
    | .byte, .integer v => .ok (.byte v.toUInt8.toInt8)
    | .short, .integer v => .ok (.short v.toUInt16.toInt16)
    | .boolean, .integer v => .ok (.boolean (v != 0))
    | .char, .integer v => charConstant v
    | .long, .long v => .ok (.long v.toInt64)
    | .float, .float bits => .ok (.float bits)
    | .double, .double bits => .ok (.double bits)
    | tag, other => .error (ConstantPool.mismatch index tag.poolLabel other)

/-- An annotation whose values are read by `value`. -/
def annotationOf (pool : ConstantPool) (value : Reader (ElementValue String)) :
    Reader (AnnotationUse String) := do
  let type ← Reader.reference (objectType pool)
  let count ← Reader.u16
  let elements ← Reader.times (do
    let name ← Reader.reference pool.utf8
    return (name, ← value)) count.toNat
  return ⟨type, elements⟩

/-- A value that nests at most `depth` deep. -/
def elementValueWithin (pool : ConstantPool) : Nat → Reader (ElementValue String)
  | 0 => do Reader.fail .truncated (← Reader.offset)
  | depth + 1 => do
    let start ← Reader.offset
    let tag ← Reader.u8
    match Char.ofNat tag.toNat with
    | 'e' =>
      let type ← Reader.reference (objectType pool)
      return .enumConstant type (← Reader.reference pool.utf8)
    | 'c' => return .classLiteral (← Reader.reference pool.utf8)
    | '@' =>
      let inner ← annotationOf pool (elementValueWithin pool depth)
      return .nested inner.type inner.elements
    | '[' =>
      let count ← Reader.u16
      return .array (← Reader.times (elementValueWithin pool depth) count.toNat)
    | c =>
      match ConstantTag.ofChar? c with
      | some kind => return .const (← Reader.reference (constantAt pool kind))
      | none => Reader.fail (.badElementTag tag) start

/-- A value. -/
def readElementValue (pool : ConstantPool) : Reader (ElementValue String) :=
  fun s => elementValueWithin pool s.rest.length s

/-- A table of annotations. -/
def readAnnotations (pool : ConstantPool) : Reader (List (AnnotationUse String)) := do
  let count ← Reader.u16
  Reader.times (annotationOf pool (readElementValue pool)) count.toNat

end Classpath.ClassFile

import Classpath.ClassFile.Basic
import Mathlib.Algebra.Group.Nat.Defs

/-!
# The layout of class files

A class file as it is laid out, before any index is followed. A `RawClassFile` has the constants in
the order in which they are numbered and every other structure with the indices that stand in it,
and the bytes of it are written out structure by structure. Two things are asked of it apart from
that. Every table and text has to be short enough for the field that holds its length
(`RawClassFile.Fits`). And what the indices refer to has to be of the kind that their place asks
for; following them all gives the contents of the file (`RawClassFile.resolve?`).

Nothing here reads bytes: this is the format, and `Classpath.ClassFile.parse` is held against it.

* `Classpath.ClassFile.RawConstant` – the constants, and `Classpath.ClassFile.constantNo?` the one
  that has a given number.
* `Classpath.ClassFile.RawValue`, `Classpath.ClassFile.RawAnnotationUse` – annotations.
* `Classpath.ClassFile.RawAttribute`, `Classpath.ClassFile.RawMember` – attributes and members.
* `Classpath.ClassFile.RawClassFile` – the file; its `bytes`, its limits and what it resolves to.
-/

namespace Classpath.ClassFile

/-- The `n` bytes that write a number, most significant byte first. -/
def bigEndian : Nat → Nat → Bytes
  | 0, _ => []
  | n + 1, v => bigEndian n (v / 256) ++ [UInt8.ofNat v]

/-- A table: the number of its entries, in two bytes, and the entries. -/
def tableBytes {α : Type} (bytes : α → Bytes) (entries : List α) : Bytes :=
  bigEndian 2 entries.length ++ entries.flatMap bytes

/-- An index into the constants. -/
def indexBytes (index : UInt16) : Bytes :=
  bigEndian 2 index.toNat

/-! ### Constants -/

namespace OpaqueKind

/-- The tag of a constant that is skipped over. -/
def tag : OpaqueKind → UInt8
  | fieldref => 9
  | methodref => 10
  | interfaceMethodref => 11
  | nameAndType => 12
  | methodHandle => 15
  | methodType => 16
  | dynamic => 17
  | invokeDynamic => 18
  | moduleName => 19
  | packageName => 20

/-- How many bytes follow the tag. -/
def width : OpaqueKind → Nat
  | fieldref | methodref | interfaceMethodref | nameAndType | dynamic | invokeDynamic => 4
  | methodHandle => 3
  | methodType | moduleName | packageName => 2

end OpaqueKind

/-- A constant as it is laid out: texts and what is skipped over are bytes. -/
inductive RawConstant where
  | utf8 (contents : Bytes)
  | integer (value : UInt32)
  | float (bits : UInt32)
  | long (value : UInt64)
  | double (bits : UInt64)
  | classRef (name : UInt16)
  | stringRef (text : UInt16)
  | skipped (kind : OpaqueKind) (contents : Bytes)
  deriving DecidableEq, Repr

namespace RawConstant

/-- The byte that tells the kind of a constant. -/
def tag : RawConstant → UInt8
  | utf8 _ => 1
  | integer _ => 3
  | float _ => 4
  | long _ => 5
  | double _ => 6
  | classRef _ => 7
  | stringRef _ => 8
  | skipped kind _ => kind.tag

/-- What follows the tag. -/
def payload : RawConstant → Bytes
  | utf8 contents => bigEndian 2 contents.length ++ contents
  | integer value => bigEndian 4 value.toNat
  | float bits => bigEndian 4 bits.toNat
  | long value => bigEndian 8 value.toNat
  | double bits => bigEndian 8 bits.toNat
  | classRef name => indexBytes name
  | stringRef text => indexBytes text
  | skipped _ contents => contents

/-- A constant, written out. -/
def bytes (c : RawConstant) : Bytes :=
  c.tag :: c.payload

/-- A text has a length of two bytes, and a constant that is skipped over the width of its kind. -/
def Fits : RawConstant → Prop
  | utf8 contents => contents.length < 2 ^ 16
  | skipped kind contents => contents.length = kind.width
  | _ => True

/-- The constant with its text decoded, if it can be. -/
def entry? : RawConstant → Option PoolEntry
  | utf8 contents => (ModifiedUtf8.decode? contents).map .utf8
  | integer value => some (.integer value)
  | float bits => some (.float bits)
  | long value => some (.long value)
  | double bits => some (.double bits)
  | classRef name => some (.classRef name)
  | stringRef text => some (.stringRef text)
  | skipped kind _ => some (.skipped kind)

/-- Whether the constant takes two numbers. -/
def isWide : RawConstant → Bool
  | long _ | double _ => true
  | _ => false

end RawConstant

/-- Entries in the slots that they take: a wide one takes a second slot, which stays empty. -/
def slotsOf {α : Type} (isWide : α → Bool) (entries : List α) : List (Option α) :=
  entries.flatMap fun e => if isWide e then [some e, none] else [some e]

section Constants

variable (constants : List RawConstant)

/-- The constant with a given number. The numbers start at 1. -/
def constantNo? (index : UInt16) : Option RawConstant :=
  ((none :: slotsOf RawConstant.isWide constants)[index.toNat]?).join

/-- The text with a given number. -/
def text? (index : UInt16) : Option String :=
  match constantNo? constants index with
  | some (.utf8 contents) => ModifiedUtf8.decode? contents
  | _ => none

/-- The internal name of the class with a given number. -/
def className? (index : UInt16) : Option String :=
  match constantNo? constants index with
  | some (.classRef name) => text? constants name
  | _ => none

/-- The superclass with a given number; the number 0 stands for none. -/
def superName? (index : UInt16) : Option (Option String) :=
  if index = 0 then some none
  else (className? constants index).map some

/-- The internal name of the class whose descriptor is the text with a given number. -/
def objectName? (index : UInt16) : Option String :=
  match (text? constants index).bind FieldType.ofText? with
  | some (.object name) => some name
  | _ => none

/-- The string with a given number: a text, or a constant that refers to one. -/
def string? (index : UInt16) : Option String :=
  match constantNo? constants index with
  | some (.stringRef text) => text? constants text
  | _ => text? constants index

/-- The value of a given kind with a given number. A character is a Unicode scalar value. -/
def constantValue? (kind : ConstantTag) (index : UInt16) : Option Constant :=
  match kind, constantNo? constants index with
  | .byte, some (.integer v) => some (.byte v.toUInt8.toInt8)
  | .short, some (.integer v) => some (.short v.toUInt16.toInt16)
  | .int, some (.integer v) => some (.int v.toInt32)
  | .boolean, some (.integer v) => some (.boolean (v != 0))
  | .char, some (.integer v) =>
    if v.toNat.isValidChar then some (.char (Char.ofNat v.toNat)) else none
  | .long, some (.long v) => some (.long v.toInt64)
  | .float, some (.float bits) => some (.float bits)
  | .double, some (.double bits) => some (.double bits)
  | .string, _ => (string? constants index).map .string
  | _, _ => none

end Constants

/-! ### Annotations -/

/-- The tag of a constant value. -/
def ConstantTag.byteTag : ConstantTag → UInt8
  | byte => 0x42
  | char => 0x43
  | double => 0x44
  | float => 0x46
  | int => 0x49
  | long => 0x4A
  | short => 0x53
  | boolean => 0x5A
  | string => 0x73

/-- The value of an annotation element, by indices. -/
inductive RawValue where
  | const (kind : ConstantTag) (index : UInt16)
  | enumConstant (type constant : UInt16)
  | classLiteral (descriptor : UInt16)
  | nested (type : UInt16) (elements : List (UInt16 × RawValue))
  | array (values : List RawValue)

namespace RawValue

mutual

/-- A value, written out: its tag and what that calls for. -/
def bytes : RawValue → Bytes
  | const kind index => kind.byteTag :: indexBytes index
  | enumConstant type constant => 0x65 :: (indexBytes type ++ indexBytes constant)
  | classLiteral descriptor => 0x63 :: indexBytes descriptor
  | nested type elements =>
    0x40 :: (indexBytes type ++ (bigEndian 2 elements.length ++ elementsBytes elements))
  | array values => 0x5B :: (bigEndian 2 values.length ++ valuesBytes values)

/-- Elements, written out: the index of each one's name and its value. -/
def elementsBytes : List (UInt16 × RawValue) → Bytes
  | [] => []
  | (name, value) :: rest => (indexBytes name ++ value.bytes) ++ elementsBytes rest

/-- Values, written out one after the other. -/
def valuesBytes : List RawValue → Bytes
  | [] => []
  | value :: rest => value.bytes ++ valuesBytes rest

end

/-- Every table in the value has a length of two bytes. -/
inductive Fits : RawValue → Prop
  | const (kind : ConstantTag) (index : UInt16) : Fits (const kind index)
  | enumConstant (type constant : UInt16) : Fits (enumConstant type constant)
  | classLiteral (descriptor : UInt16) : Fits (classLiteral descriptor)
  | nested (type : UInt16) {elements : List (UInt16 × RawValue)}
    (length : elements.length < 2 ^ 16) (fits : ∀ e ∈ elements, Fits e.2) :
    Fits (nested type elements)
  | array {values : List RawValue} (length : values.length < 2 ^ 16)
    (fits : ∀ v ∈ values, Fits v) : Fits (array values)

section Resolution

variable (constants : List RawConstant)

mutual

/-- The value with its indices followed. -/
def resolve? : RawValue → Option (ElementValue String)
  | const kind index => (constantValue? constants kind index).map .const
  | enumConstant type constant => do
    return .enumConstant (← objectName? constants type) (← text? constants constant)
  | classLiteral descriptor => (text? constants descriptor).map .classLiteral
  | nested type elements => do
    return .nested (← objectName? constants type) (← resolveElements? elements)
  | array values => (resolveValues? values).map .array

/-- The elements with their indices followed. -/
def resolveElements? : List (UInt16 × RawValue) → Option (List (String × ElementValue String))
  | [] => some []
  | (name, value) :: rest => do
    return (← text? constants name, ← value.resolve?) :: (← resolveElements? rest)

/-- The values with their indices followed. -/
def resolveValues? : List RawValue → Option (List (ElementValue String))
  | [] => some []
  | value :: rest => do
    return (← value.resolve?) :: (← resolveValues? rest)

end

end Resolution

end RawValue

/-- An annotation, by indices. -/
structure RawAnnotationUse where
  type : UInt16
  elements : List (UInt16 × RawValue)

namespace RawAnnotationUse

/-- An annotation, written out. -/
def bytes (a : RawAnnotationUse) : Bytes :=
  indexBytes a.type ++ (bigEndian 2 a.elements.length ++ RawValue.elementsBytes a.elements)

/-- Every table in the annotation has a length of two bytes. -/
def Fits (a : RawAnnotationUse) : Prop :=
  a.elements.length < 2 ^ 16 ∧ ∀ e ∈ a.elements, e.2.Fits

/-- The annotation with its indices followed. -/
def resolve? (constants : List RawConstant) (a : RawAnnotationUse) :
    Option (AnnotationUse String) := do
  return ⟨← objectName? constants a.type, ← RawValue.resolveElements? constants a.elements⟩

end RawAnnotationUse

/-! ### Attributes -/

/-- What stands in an attribute. Of the code of a method, what follows the instructions is any
bytes, and so is all of an attribute that is not looked into. -/
inductive RawBody where
  | visible (annotations : List RawAnnotationUse)
  | invisible (annotations : List RawAnnotationUse)
  | default (value : RawValue)
  | code (maxStack maxLocals : UInt16) (instructions rest : Bytes)
  | other (contents : Bytes)

/-- What an attribute says. -/
inductive AttributeValue where
  | visible (annotations : List (AnnotationUse String))
  | invisible (annotations : List (AnnotationUse String))
  | default (value : ElementValue String)
  | code (code : Code)
  /-- Nothing that is looked into. -/
  | other

/-- The attributes with these names are the ones that are looked into. -/
def knownAttributes : List String :=
  ["RuntimeVisibleAnnotations", "RuntimeInvisibleAnnotations", "AnnotationDefault", "Code"]

namespace RawBody

/-- The contents of an attribute, written out. -/
def bytes : RawBody → Bytes
  | visible annotations | invisible annotations => tableBytes RawAnnotationUse.bytes annotations
  | default value => value.bytes
  | code maxStack maxLocals instructions rest =>
    bigEndian 2 maxStack.toNat ++ (bigEndian 2 maxLocals.toNat ++
      (bigEndian 4 instructions.length ++ (instructions ++ rest)))
  | other contents => contents

/-- Every table in the attribute has a length of two bytes, and the instructions one of four. -/
def Fits : RawBody → Prop
  | visible annotations | invisible annotations =>
    annotations.length < 2 ^ 16 ∧ ∀ a ∈ annotations, a.Fits
  | default value => value.Fits
  | code _ _ instructions _ => instructions.length < 2 ^ 32
  | other _ => True

/-- What stands in an attribute goes by the attribute's name. -/
def IsNamed : RawBody → String → Prop
  | visible _, name => name = "RuntimeVisibleAnnotations"
  | invisible _, name => name = "RuntimeInvisibleAnnotations"
  | default _, name => name = "AnnotationDefault"
  | code _ _ _ _, name => name = "Code"
  | other _, name => name ∉ knownAttributes

instance : (body : RawBody) → (name : String) → Decidable (body.IsNamed name)
  | visible _, _ | invisible _, _ | default _, _ | code _ _ _ _, _ =>
    inferInstanceAs (Decidable (_ = _))
  | other _, _ => inferInstanceAs (Decidable (_ ∉ _))

/-- The contents with their indices followed. Code has at least one instruction. -/
def resolve? (constants : List RawConstant) : RawBody → Option AttributeValue
  | visible annotations => (annotations.mapM (RawAnnotationUse.resolve? constants)).map .visible
  | invisible annotations => (annotations.mapM (RawAnnotationUse.resolve? constants)).map .invisible
  | default value => (value.resolve? constants).map .default
  | code maxStack maxLocals instructions _ =>
    if instructions = [] then none else some (.code ⟨maxStack, maxLocals, instructions⟩)
  | other _ => some .other

end RawBody

/-- An attribute: the index of its name, and its contents. -/
structure RawAttribute where
  name : UInt16
  body : RawBody

namespace RawAttribute

/-- An attribute, written out: its name, the number of bytes in it, in four bytes, and these. -/
def bytes (a : RawAttribute) : Bytes :=
  indexBytes a.name ++ (bigEndian 4 a.body.bytes.length ++ a.body.bytes)

/-- The contents have a length of four bytes. -/
def Fits (a : RawAttribute) : Prop :=
  a.body.bytes.length < 2 ^ 32 ∧ a.body.Fits

/-- The attribute with its indices followed. -/
def resolve? (constants : List RawConstant) (a : RawAttribute) : Option AttributeValue := do
  let name ← text? constants a.name
  if a.body.IsNamed name then a.body.resolve? constants else none

end RawAttribute

namespace AttributeValue

/-- The annotations that are visible at run time. -/
def visible? : AttributeValue → List (AnnotationUse String)
  | visible annotations => annotations
  | _ => []

/-- The other annotations. -/
def invisible? : AttributeValue → List (AnnotationUse String)
  | invisible annotations => annotations
  | _ => []

/-- The code. -/
def code? : AttributeValue → Option Code
  | code c => some c
  | _ => none

/-- The default of an annotation element. -/
def default? : AttributeValue → Option (ElementValue String)
  | default value => some value
  | _ => none

end AttributeValue

/-- What attributes say together: annotations of one kind are joined in the order of the
attributes, and of several codes or defaults the last one counts. -/
def Attributes.ofValues (values : List AttributeValue) : Attributes where
  visible := values.flatMap (·.visible?)
  invisible := values.flatMap (·.invisible?)
  code := (values.filterMap (·.code?)).getLast?
  defaultValue := (values.filterMap (·.default?)).getLast?

/-- What a table of attributes says. -/
def attributes? (constants : List RawConstant) (attributes : List RawAttribute) :
    Option Attributes :=
  (attributes.mapM (RawAttribute.resolve? constants)).map .ofValues

/-! ### Members and files -/

/-- A field or method, by indices. -/
structure RawMember where
  flags : UInt16
  name : UInt16
  descriptor : UInt16
  attributes : List RawAttribute

namespace RawMember

/-- A field or method, written out. -/
def bytes (m : RawMember) : Bytes :=
  bigEndian 2 m.flags.toNat ++ (indexBytes m.name ++ (indexBytes m.descriptor ++
    tableBytes RawAttribute.bytes m.attributes))

/-- Every table in the member is short enough. -/
def Fits (m : RawMember) : Prop :=
  m.attributes.length < 2 ^ 16 ∧ ∀ a ∈ m.attributes, a.Fits

/-- The member with its indices followed. -/
def resolve? (constants : List RawConstant) (m : RawMember) : Option Member := do
  return ⟨m.flags, ← text? constants m.name, ← text? constants m.descriptor,
    ← attributes? constants m.attributes⟩

end RawMember

/-- A class file, by indices. -/
structure RawClassFile where
  minorVersion : UInt16
  majorVersion : UInt16
  constants : List RawConstant
  flags : UInt16
  name : UInt16
  superName : UInt16
  interfaces : List UInt16
  fields : List RawMember
  methods : List RawMember
  attributes : List RawAttribute

namespace RawClassFile

/-- The numbers that the constants take, the number 0 among them. -/
def constantCount (f : RawClassFile) : Nat :=
  (slotsOf RawConstant.isWide f.constants).length + 1

/-- What follows the constants, written out. -/
def contents (f : RawClassFile) : Bytes :=
  bigEndian 2 f.flags.toNat ++ (indexBytes f.name ++ (indexBytes f.superName ++
    (tableBytes indexBytes f.interfaces ++ (tableBytes RawMember.bytes f.fields ++
      (tableBytes RawMember.bytes f.methods ++ tableBytes RawAttribute.bytes f.attributes)))))

/-- A class file, written out. -/
def bytes (f : RawClassFile) : Bytes :=
  bigEndian 4 magic.toNat ++ (bigEndian 2 f.minorVersion.toNat ++
    (bigEndian 2 f.majorVersion.toNat ++ (bigEndian 2 f.constantCount ++
      f.constants.flatMap RawConstant.bytes ++ f.contents)))

/-- Every table and text is short enough for the field that holds its length. -/
structure Fits (f : RawClassFile) : Prop where
  constantCount : f.constantCount < 2 ^ 16
  constants : ∀ c ∈ f.constants, c.Fits
  interfaces : f.interfaces.length < 2 ^ 16
  fieldCount : f.fields.length < 2 ^ 16
  fields : ∀ m ∈ f.fields, m.Fits
  methodCount : f.methods.length < 2 ^ 16
  methods : ∀ m ∈ f.methods, m.Fits
  attributeCount : f.attributes.length < 2 ^ 16
  attributes : ∀ a ∈ f.attributes, a.Fits

/-- The contents of the file: every text is decoded and every index is followed. -/
def resolve? (f : RawClassFile) : Option ClassFile := do
  let _ ← f.constants.mapM RawConstant.entry?
  return {
    minorVersion := f.minorVersion
    majorVersion := f.majorVersion
    flags := f.flags
    name := ← className? f.constants f.name
    superName := ← superName? f.constants f.superName
    interfaces := ← f.interfaces.mapM (className? f.constants)
    fields := ← f.fields.mapM (RawMember.resolve? f.constants)
    methods := ← f.methods.mapM (RawMember.resolve? f.constants)
    attributes := ← attributes? f.constants f.attributes
  }

end RawClassFile

end Classpath.ClassFile

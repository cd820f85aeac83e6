import Classpath.Text.Quoted

/-!
# What can be wrong with a class file

Every failure to read a class file has a cause and, when it comes from the bytes of a file, the
offset of the byte where reading stopped. A failure keeps the first offset that it is given, so the
innermost place wins.

* `Classpath.ClassFile.Cause.message` – the wording of each cause.
* `Classpath.ClassFile.ReadError.message` – the same, with the place.
-/

namespace Classpath.ClassFile

/-- Why a class file cannot be read. -/
inductive Cause where
  /-- The bytes end inside a structure. -/
  | truncated
  /-- `count` bytes follow the end of a structure. -/
  | trailingBytes (count : Nat)
  /-- The file does not start with the magic number. -/
  | badMagic (found : UInt32)
  /-- The constant pool has no constant at `index`. -/
  | badConstantIndex (index : UInt16)
  /-- A constant has an unknown tag. -/
  | badConstantTag (tag : UInt8)
  /-- The constant at `index` is of another kind than its use asks for. -/
  | constantMismatch (index : UInt16) (expected found : String)
  /-- The bytes of a text constant are no modified UTF-8. -/
  | badModifiedUtf8
  /-- A text that should be a descriptor is none. -/
  | badDescriptor (text : String)
  /-- The contents of an attribute are not allowed. -/
  | badAttribute (name : String)
  /-- An annotation element has an unknown tag. -/
  | badElementTag (tag : UInt8)
  deriving DecidableEq, Repr

/-- A cause and the offset at which it was met, if there is one. -/
structure ReadError where
  cause : Cause
  offset : Option Nat := none
  deriving DecidableEq, Repr

/-- The wording of a cause. -/
def Cause.message : Cause → String
  | .truncated => "class file is truncated"
  | .trailingBytes count => toString count ++ " bytes left over after the structure ended"
  | .badMagic found => "not a class file: magic is 0x" ++ hexText 8 found.toNat
  | .badConstantIndex index => "constant pool has no usable entry #" ++ toString index.toNat
  | .badConstantTag tag => "unknown constant pool tag " ++ toString tag.toNat
  | .constantMismatch index expected found =>
    "constant pool entry #" ++ toString index.toNat ++ " is " ++ found ++ ", expected " ++ expected
  | .badModifiedUtf8 => "constant is not valid modified UTF-8"
  | .badDescriptor text => "invalid descriptor `" ++ text ++ "`"
  | .badAttribute name => "malformed " ++ name ++ " attribute"
  | .badElementTag tag => "unknown element_value tag " ++ quotedChar (Char.ofNat tag.toNat)

namespace ReadError

/-- The wording of an error: its cause and, where it is known, its place. -/
def message (e : ReadError) : String :=
  match e.offset with
  | some offset => e.cause.message ++ " (at byte " ++ toString offset ++ ")"
  | none => e.cause.message

/-- The error, placed at `offset` unless it has a place already. -/
def orAt (offset : Nat) (e : ReadError) : ReadError :=
  { e with offset := some (e.offset.getD offset) }

end ReadError

end Classpath.ClassFile

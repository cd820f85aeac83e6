import Classpath.ClassFile.ElementReader

/-!
# Class files

What a class file says of its class, with every reference into the constant pool followed: the
version, the flags, the names of the class and its supertypes, the members, their code and all
annotations. Of the attributes, code, annotations and annotation defaults are read; every other one
is skipped over unread.

* `Classpath.ClassFile` – the contents of a class file.
* `Classpath.ClassFile.parse` – reading one from its bytes.
-/

namespace Classpath

namespace ClassFile

/-- The code of a method. Exception tables and what follows them are not kept. -/
structure Code where
  maxStack : UInt16
  maxLocals : UInt16
  instructions : Bytes
  deriving DecidableEq, Repr, Inhabited

/-- What the attributes of a class or member say. -/
structure Attributes where
  /-- Annotations that are visible at run time. -/
  visible : List (AnnotationUse String) := []
  invisible : List (AnnotationUse String) := []
  code : Option Code := none
  /-- The default of an annotation element. -/
  defaultValue : Option (ElementValue String) := none
  deriving Repr, Inhabited

/-- The annotations, visible ones first. -/
def Attributes.annotations (a : Attributes) : List (AnnotationUse String) :=
  a.visible ++ a.invisible

/-- A field or method. -/
structure Member where
  flags : UInt16
  name : String
  descriptor : String
  attributes : Attributes
  deriving Repr, Inhabited

end ClassFile

/-- The contents of a class file. Classes go by internal names, as in `java/lang/Object`. -/
structure ClassFile where
  minorVersion : UInt16
  majorVersion : UInt16
  flags : UInt16
  name : String
  /-- A class without a superclass is a root. -/
  superName : Option String
  interfaces : List String
  fields : List ClassFile.Member
  methods : List ClassFile.Member
  attributes : ClassFile.Attributes
  deriving Repr, Inhabited

namespace ClassFile

/-- The number that every class file starts with. -/
def magic : UInt32 := 0xCAFEBABE

/-- The code of a method, which has at least one instruction. -/
def readCode : Reader Code := do
  let maxStack ← Reader.u16
  let maxLocals ← Reader.u16
  let start ← Reader.offset
  let length ← Reader.u32
  if length = 0 then
    Reader.fail (.badAttribute "Code") start
  else
    return ⟨maxStack, maxLocals, ← Reader.bytes length.toNat⟩

/-- What an attribute of a given name adds to the ones before it. Annotations accumulate; of two
code attributes or defaults the later one counts. -/
def readAttribute (pool : ConstantPool) (name : String) (before : Attributes) :
    Reader Attributes := do
  match name with
  | "RuntimeVisibleAnnotations" =>
    return { before with visible := before.visible ++ (← Reader.whole (readAnnotations pool)) }
  | "RuntimeInvisibleAnnotations" =>
    return { before with invisible := before.invisible ++ (← Reader.whole (readAnnotations pool)) }
  | "AnnotationDefault" =>
    return { before with defaultValue := some (← Reader.whole (readElementValue pool)) }
  | "Code" => return { before with code := some (← readCode) }
  | _ => return before

/-- The next `n` attributes, each in a region of its own. -/
def readAttributesAfter (pool : ConstantPool) (before : Attributes) : Nat → Reader Attributes
  | 0 => pure before
  | n + 1 => do
    let name ← Reader.reference pool.utf8
    let length ← Reader.u32
    let start ← Reader.offset
    let body ← Reader.bytes length.toNat
    let after ← Reader.within ⟨body, start⟩ (readAttribute pool name before)
    readAttributesAfter pool after n

/-- A table of attributes. -/
def readAttributes (pool : ConstantPool) : Reader Attributes := do
  let count ← Reader.u16
  readAttributesAfter pool {} count.toNat

/-- A field or method. -/
def readMember (pool : ConstantPool) : Reader Member := do
  let flags ← Reader.u16
  let name ← Reader.reference pool.utf8
  let descriptor ← Reader.reference pool.utf8
  return ⟨flags, name, descriptor, ← readAttributes pool⟩

/-- A table whose entries are read by `entry`. -/
def readTable {α : Type} (entry : Reader α) : Reader (List α) := do
  let count ← Reader.u16
  entry.times count.toNat

/-- The superclass at an index; the index 0 stands for none. -/
def superclassAt (pool : ConstantPool) (index : UInt16) : Except ReadError (Option String) :=
  if index = 0 then .ok none
  else (pool.className index).map some

/-- A class file, up to its last attribute. -/
def read : Reader ClassFile := do
  let found ← Reader.u32
  if found ≠ magic then
    Reader.fail (.badMagic found) 0
  else
    let minorVersion ← Reader.u16
    let majorVersion ← Reader.u16
    let pool ← ConstantPool.read
    let flags ← Reader.u16
    let name ← Reader.reference pool.className
    let superName ← Reader.reference (superclassAt pool)
    let interfaces ← readTable (Reader.reference pool.className)
    let fields ← readTable (readMember pool)
    let methods ← readTable (readMember pool)
    let attributes ← readAttributes pool
    return { minorVersion, majorVersion, flags, name, superName, interfaces, fields, methods
             attributes }

/-- The class file that bytes write, from the first to the last. -/
def parse (contents : Bytes) : Except ReadError ClassFile :=
  read.whole.run contents

end ClassFile

end Classpath

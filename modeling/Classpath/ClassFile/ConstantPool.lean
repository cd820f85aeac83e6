import Classpath.ClassFile.ModifiedUtf8
import Classpath.Annotations

/-!
# The constant pool

The table of constants that the rest of a class file refers to by index. Constants are numbered
from 1; a long or double takes two numbers, of which the second refers to nothing. The declared
count is one more than the last number.

* `Classpath.ClassFile.PoolEntry.read` – one constant.
* `Classpath.ClassFile.ConstantPool.read` – the whole table.
* `Classpath.ClassFile.ConstantPool.get` and the like – what an index refers to.
-/

namespace Classpath.ClassFile

/-- The constants that name members, methods and modules. They are skipped over: resolving classes
needs none of them. -/
inductive OpaqueKind where
  | fieldref | methodref | interfaceMethodref | nameAndType | methodHandle | methodType
  | dynamic | invokeDynamic | moduleName | packageName
  deriving DecidableEq, Repr

/-- The name of the kind. -/
def OpaqueKind.label : OpaqueKind → String
  | fieldref => "Fieldref"
  | methodref => "Methodref"
  | interfaceMethodref => "InterfaceMethodref"
  | nameAndType => "NameAndType"
  | methodHandle => "MethodHandle"
  | methodType => "MethodType"
  | dynamic => "Dynamic"
  | invokeDynamic => "InvokeDynamic"
  | moduleName => "Module"
  | packageName => "Package"

/-- A constant. -/
inductive PoolEntry where
  | utf8 (text : String)
  | integer (value : UInt32)
  | float (bits : UInt32)
  | long (value : UInt64)
  | double (bits : UInt64)
  /-- A class, by the index of its name. -/
  | classRef (name : UInt16)
  /-- A string, by the index of its text. -/
  | stringRef (text : UInt16)
  | skipped (kind : OpaqueKind)
  deriving DecidableEq, Repr

namespace PoolEntry

/-- The name of a constant's kind. -/
def label : PoolEntry → String
  | utf8 _ => "Utf8"
  | integer _ => "Integer"
  | float _ => "Float"
  | long _ => "Long"
  | double _ => "Double"
  | classRef _ => "Class"
  | stringRef _ => "String"
  | skipped kind => kind.label

/-- Whether the constant takes two numbers. -/
def isWide : PoolEntry → Bool
  | long _ | double _ => true
  | _ => false

/-- A constant of a kind that is skipped over, with `n` bytes after its tag. -/
def readSkipped (kind : OpaqueKind) (n : Nat) : Reader PoolEntry := do
  let _ ← Reader.bytes n
  return .skipped kind

/-- The text constant that follows its tag. -/
def readUtf8 : Reader PoolEntry := do
  let length ← Reader.u16
  let start ← Reader.offset
  let contents ← Reader.bytes length.toNat
  return .utf8 (← Reader.ofExcept start (ModifiedUtf8.decode contents))

/-- One constant: its tag and its contents. -/
def read : Reader PoolEntry := do
  let start ← Reader.offset
  let tag ← Reader.u8
  match tag.toNat with
  | 1 => readUtf8
  | 3 => return .integer (← Reader.u32)
  | 4 => return .float (← Reader.u32)
  | 5 => return .long (← Reader.u64)
  | 6 => return .double (← Reader.u64)
  | 7 => return .classRef (← Reader.u16)
  | 8 => return .stringRef (← Reader.u16)
  | 9 => readSkipped .fieldref 4
  | 10 => readSkipped .methodref 4
  | 11 => readSkipped .interfaceMethodref 4
  | 12 => readSkipped .nameAndType 4
  | 15 => readMethodHandle
  | 16 => readSkipped .methodType 2
  | 17 => readSkipped .dynamic 4
  | 18 => readSkipped .invokeDynamic 4
  | 19 => readSkipped .moduleName 2
  | 20 => readSkipped .packageName 2
  | _ => Reader.fail (.badConstantTag tag) start
where
  /-- A method handle is a kind, of one byte, and a reference. -/
  readMethodHandle : Reader PoolEntry := do
    let _ ← Reader.u8
    let _ ← Reader.u16
    return .skipped .methodHandle

end PoolEntry

/-- The constants by number; `none` at the numbers that refer to nothing. -/
structure ConstantPool where
  slots : Array (Option PoolEntry)
  deriving Repr

namespace ConstantPool

/-- The constants that fill `n` slots. `count` is the declared count, which a wide constant in the
last slot overruns. -/
def readSlots (count : UInt16) : Nat → Reader (List (Option PoolEntry))
  | 0 => pure []
  | n + 1 => do
    let entry ← PoolEntry.read
    if entry.isWide then
      match n with
      | 0 => Reader.fail (.badConstantIndex count) (← Reader.offset)
      | m + 1 => return some entry :: none :: (← readSlots count m)
    else
      return some entry :: (← readSlots count n)

/-- The declared count and the constants. A pool has at least the slot 0, which refers to
nothing. -/
def read : Reader ConstantPool := do
  let count ← Reader.u16
  match count.toNat with
  | 0 => Reader.fail (.badConstantIndex count) (← Reader.offset)
  | n + 1 => return ⟨(none :: (← readSlots count n)).toArray⟩

/-- The constant at an index. -/
def get (pool : ConstantPool) (index : UInt16) : Except ReadError PoolEntry :=
  match pool.slots[index.toNat]? with
  | some (some entry) => .ok entry
  | _ => .error ⟨.badConstantIndex index, none⟩

/-- The complaint about a constant of the wrong kind. -/
def mismatch (index : UInt16) (expected : String) (found : PoolEntry) : ReadError :=
  ⟨.constantMismatch index expected found.label, none⟩

/-- The text at an index. -/
def utf8 (pool : ConstantPool) (index : UInt16) : Except ReadError String := do
  match ← pool.get index with
  | .utf8 text => .ok text
  | other => .error (mismatch index "Utf8" other)

/-- The internal name of the class at an index. -/
def className (pool : ConstantPool) (index : UInt16) : Except ReadError String := do
  match ← pool.get index with
  | .classRef name => pool.utf8 name
  | other => .error (mismatch index "Class" other)

/-- The string at an index: a text or a string constant, which refers to one. -/
def stringConstant (pool : ConstantPool) (index : UInt16) : Except ReadError String := do
  match ← pool.get index with
  | .utf8 text => .ok text
  | .stringRef text => pool.utf8 text
  | other => .error (mismatch index "String" other)

end ConstantPool

end Classpath.ClassFile

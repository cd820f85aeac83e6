import Classpath.ClassFile.Error

/-!
# Reading bytes

A `Reader` consumes bytes from the front of a `Region`, a stretch of a file that knows the offset
at which it starts. A reader either fails, with the offset at which the failing read began, or
returns a value and the rest of the region. Numbers are big-endian.

* `Classpath.ClassFile.Reader.bytes` – the one primitive read; it alone can find the region too
  short, and everything else is made of it.
* `Classpath.ClassFile.Reader.times` – a table of a given number of entries.
* `Classpath.ClassFile.Reader.within` – a structure in a region of its own.
-/

namespace Classpath

/-- The contents of a file. -/
abbrev Bytes := List UInt8

namespace ClassFile

/-- Bytes still to be read, and the offset of the first of them. -/
structure Region where
  rest : Bytes
  offset : Nat := 0
  deriving DecidableEq, Repr

/-- A way to read a value off the front of a region. -/
def Reader (α : Type) : Type :=
  Region → Except ReadError (α × Region)

namespace Reader

/-- Reading nothing. -/
@[inline] protected def pure {α : Type} (a : α) : Reader α :=
  fun s => .ok (a, s)

/-- One read after another. -/
@[inline] protected def bind {α β : Type} (r : Reader α) (k : α → Reader β) : Reader β :=
  fun s =>
    match r s with
    | .ok (a, s) => k a s
    | .error e => .error e

instance : Monad Reader where
  pure := Reader.pure
  bind := Reader.bind

/-- The offset reached so far. -/
def offset : Reader Nat :=
  fun s => .ok (s.offset, s)

/-- Failure at a given offset. -/
def fail {α : Type} (cause : Cause) (offset : Nat) : Reader α :=
  fun _ => .error ⟨cause, some offset⟩

/-- The first `n` elements of a list and the others, if there are as many. -/
def splitAt? {α : Type} : Nat → List α → Option (List α × List α)
  | 0, l => some ([], l)
  | _ + 1, [] => none
  | n + 1, a :: l => (splitAt? n l).map fun (front, rest) => (a :: front, rest)

/-- The next `n` bytes. -/
def bytes (n : Nat) : Reader Bytes :=
  fun s =>
    match splitAt? n s.rest with
    | some (front, rest) => .ok (front, ⟨rest, s.offset + n⟩)
    | none => .error ⟨.truncated, some s.offset⟩

/-- The number that bytes write, most significant byte first. -/
def number (bs : Bytes) : Nat :=
  bs.foldl (fun n b => 256 * n + b.toNat) 0

/-- An 8-bit number. -/
def u8 : Reader UInt8 := do
  return UInt8.ofNat (number (← bytes 1))

/-- A 16-bit number. -/
def u16 : Reader UInt16 := do
  return UInt16.ofNat (number (← bytes 2))

/-- A 32-bit number. -/
def u32 : Reader UInt32 := do
  return UInt32.ofNat (number (← bytes 4))

/-- A 64-bit number. -/
def u64 : Reader UInt64 := do
  return UInt64.ofNat (number (← bytes 8))

/-- `n` values, one after the other. -/
def times {α : Type} (r : Reader α) : Nat → Reader (List α)
  | 0 => pure []
  | n + 1 => do
    let a ← r
    return a :: (← times r n)

/-- A value that is already at hand, or its error, placed at `offset` if it has no place. -/
def ofExcept {α : Type} (offset : Nat) (x : Except ReadError α) : Reader α :=
  fun s =>
    match x with
    | .ok a => .ok (a, s)
    | .error e => .error (e.orAt offset)

/-- A 16-bit reference and what it refers to. A reference to nothing fails where it stands. -/
def reference {α : Type} (find : UInt16 → Except ReadError α) : Reader α := do
  let start ← offset
  let index ← u16
  ofExcept start (find index)

/-- Fails unless everything is read. -/
def done : Reader Unit :=
  fun s =>
    if s.rest.isEmpty then .ok ((), s)
    else .error ⟨.trailingBytes s.rest.length, some s.offset⟩

/-- A value read from a region of its own; what is left of that region is dropped. -/
def within {α : Type} (region : Region) (r : Reader α) : Reader α :=
  fun s =>
    match r region with
    | .ok (a, _) => .ok (a, s)
    | .error e => .error e

/-- A value that fills the rest of its region. -/
def whole {α : Type} (r : Reader α) : Reader α := do
  let a ← r
  done
  return a

/-- The value read from the front of `contents`. -/
def run {α : Type} (r : Reader α) (contents : Bytes) : Except ReadError α :=
  (r ⟨contents, 0⟩).map Prod.fst

end Reader

end ClassFile

end Classpath

import Classpath.Failure
import Classpath.Store.Deflate
import Classpath.Utf8

/-!
# Archive files

The format of archives. A file ends with a record that says where its directory is; the directory has
an entry for every file of the archive, and the entry says where the data are. Something may stand
before all of it, by which the places are shifted. Numbers are little-endian.

The directory is all that is read of a file to open it. The data of an entry are looked at when the
entry is asked for, so one that is damaged leaves the others readable.

* `Classpath.Zip.endRecord?` – the record at the end.
* `Classpath.Zip.members` – what an archive holds, by name.
* `Classpath.Zip.Member.stored`, `Classpath.Zip.Member.contents` – the data of an entry, as they are
  stored and as they were.
-/

namespace Classpath.Zip

/-- Why bytes are no archive. -/
inductive Fault where
  /-- There are fewer bytes than the record at the end has. -/
  | tooShort
  | noEnd
  | severalDisks
  /-- The directory would start before the file. -/
  | badPlace
  | badEntry
  /-- The data of an entry are not introduced as such. -/
  | badData
  | badMethod
  | locked
  /-- The file does not hold what it announces. -/
  | file (fault : FileFault)
  deriving DecidableEq, Repr

/-- What an archive with a fault is said to be. -/
def Fault.message : Fault → String
  | tooShort => "invalid Zip archive: Invalid zip header"
  | noEnd => "invalid Zip archive: Could not find central directory end"
  | severalDisks => "unsupported Zip archive: Support for multi-disk files is not implemented"
  | badPlace => "invalid Zip archive: Invalid central directory size or offset"
  | badEntry => "invalid Zip archive: Invalid Central Directory header"
  | badData => "invalid Zip archive: Invalid local file header"
  | badMethod => "unsupported Zip archive: Compression method not supported"
  | locked => "unsupported Zip archive: Password required to decrypt file"
  | file fault => fault.message

/-! ### Fields -/

/-- The number that bytes write, least significant byte first. -/
def number (bytes : Bytes) : Nat :=
  bytes.foldr (fun b n => b.toNat + 256 * n) 0

/-- The number in the field of `size` bytes at a place. -/
def field (bytes : Bytes) (place size : Nat) : Nat :=
  number ((bytes.drop place).take size)

/-- The first bytes and the others, if there are as many. -/
def cut (size : Nat) (bytes : Bytes) : Except Fault (Bytes × Bytes) :=
  if (bytes.take size).length < size then .error (.file .endsEarly)
  else .ok (bytes.take size, bytes.drop size)

/-! ### The end -/

/-- The bytes that the record at the end starts with. -/
def endSignature : Bytes := [0x50, 0x4B, 0x05, 0x06]

/-- The size of the record at the end. -/
def endSize : Nat := 22

/-- The greatest size of the comment after the record at the end. -/
def maxComment : Nat := 0xFFFF

/-- The last part of the bytes that may be a record at the end with what follows it. -/
def lastRecord? (found : Option Bytes) : Bytes → Option Bytes
  | [] => found
  | b :: rest =>
    let fits := endSignature.isPrefixOf (b :: rest) &&
      decide (endSize ≤ rest.length + 1 ∧ rest.length + 1 ≤ endSize + maxComment)
    lastRecord? (if fits then some (b :: rest) else found) rest

/-- The record at the end. -/
structure EndRecord where
  /-- Where it stands. -/
  place : Nat
  /-- How many entries the directory has. -/
  count : Nat
  /-- How many bytes the directory has. -/
  size : Nat
  /-- Where the directory starts, counted from the beginning of the archive. -/
  start : Nat
  deriving DecidableEq, Repr

/-- Whether a field of the record is full, its true value standing elsewhere. -/
def isFull (record : Bytes) : Bool :=
  [4, 6, 8, 10].any (fun place => field record place 2 = 0xFFFF) ||
    [12, 16].any fun place => field record place 4 = 0xFFFFFFFF

/-- The record at the end of an archive. -/
def endRecord? (bytes : Bytes) : Except Fault EndRecord := do
  if bytes.length < endSize then throw .tooShort
  let some record := lastRecord? none bytes | throw .noEnd
  let (fields, after) ← cut endSize record
  let _ ← cut (field fields 20 2) after
  if !isFull fields && field fields 4 2 ≠ field fields 6 2 then throw .severalDisks
  return ⟨bytes.length - record.length, field fields 8 2, field fields 12 4, field fields 16 4⟩

/-! ### The directory -/

/-- An entry of the directory. -/
structure Entry where
  flags : Nat
  method : Nat
  /-- The checksum of the contents. -/
  checksum : Nat
  /-- How many bytes the data have in the archive. -/
  size : Nat
  /-- Where the data are introduced, counted from the beginning of the archive. -/
  start : Nat
  name : Bytes
  deriving DecidableEq, Repr

/-- The next entries of the directory. -/
def directory : Nat → Bytes → Except Fault (List Entry)
  | 0, _ => .ok []
  | n + 1, bytes => do
    let (signature, _) ← cut 4 bytes
    if signature ≠ [0x50, 0x4B, 0x01, 0x02] then throw .badEntry
    let (fields, rest) ← cut 46 bytes
    let (name, rest) ← cut (field fields 28 2) rest
    let (_, rest) ← cut (field fields 30 2) rest
    let (_, rest) ← cut (field fields 32 2) rest
    let entry := ⟨field fields 8 2, field fields 10 2, field fields 16 4, field fields 20 4,
      field fields 42 4, name⟩
    return entry :: (← directory n rest)

/-- The characters of the bytes from 128 on in names that are not marked as text. -/
def upperHalf : String :=
  "ÇüéâäàåçêëèïîìÄÅÉæÆôöòûùÿÖÜ¢£¥₧ƒáíóúñÑªº¿⌐¬½¼¡«»░▒▓│┤╡╢╖╕╣║╗╝╜╛┐└┴┬├─┼╞╟╚╔╩╦╠═╬╧╨╤╥╙╘╒╓╫╪┘┌█▄▌▐▀" ++
    "αßΓπΣσµτΦΘΩδ∞φε∩≡±≥≤⌠⌡÷≈°∙·√ⁿ²■\u00A0"

/-- The character of a byte in a name that is not marked as text. -/
def nameChar (b : UInt8) : Char :=
  if b < 0x80 then Char.ofNat b.toNat else (upperHalf.toList[b.toNat - 0x80]?).getD '\uFFFD'

/-- The name of an entry. -/
def Entry.nameText (e : Entry) : String :=
  String.ofList (if e.flags.testBit 11 then Utf8.decodeLossy e.name else e.name.map nameChar)

/-! ### Members -/

/-- An entry with the file that it is in, from the beginning of the archive on. -/
structure Member where
  entry : Entry
  archive : Bytes
  deriving DecidableEq, Repr

/-- What an archive holds by name, in the order of its directory. -/
def members (bytes : Bytes) : Except Fault (List (String × Member)) := do
  let record ← endRecord? bytes
  if record.place < record.size + record.start then throw .badPlace
  let archive := bytes.drop (record.place - record.size - record.start)
  let entries ← directory record.count (archive.drop record.start)
  return entries.map fun e => (e.nameText, ⟨e, archive⟩)

/-- The checksum with the eight bits of a byte divided out. -/
def checksumStep (sum : UInt32) (b : UInt8) : UInt32 :=
  Nat.repeat (fun sum => if sum &&& 1 = 1 then sum >>> 1 ^^^ 0xEDB88320 else sum >>> 1) 8
    (sum ^^^ b.toUInt32)

/-- The checksum of contents: the remainder of a division of polynomials over bits. -/
def checksum (bytes : Bytes) : UInt32 :=
  bytes.foldl checksumStep 0xFFFFFFFF ^^^ 0xFFFFFFFF

namespace Member

/-- The data of an entry as they are stored. -/
def stored (e : Member) : Except Fault Bytes := do
  if e.entry.flags.testBit 0 then throw .locked
  let start := e.archive.drop e.entry.start
  let (signature, _) ← cut 4 start
  if signature ≠ [0x50, 0x4B, 0x03, 0x04] then throw .badData
  let (fields, rest) ← cut 30 start
  if e.entry.method ≠ 0 ∧ e.entry.method ≠ 8 then throw .badMethod
  return (rest.drop (field fields 26 2 + field fields 28 2)).take e.entry.size

/-- The contents of an entry. -/
def contents (e : Member) : Except Fault Bytes := do
  let data ← e.stored
  let some contents := if e.entry.method = 8 then Deflate.inflate? data else some data
    | throw (.file .corrupt)
  if (checksum contents).toNat ≠ e.entry.checksum then throw (.file .badChecksum)
  return contents

end Member

end Classpath.Zip

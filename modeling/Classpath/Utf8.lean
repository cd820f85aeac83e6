import Classpath.ClassFile.Reader

/-!
# UTF-8

Reading text from bytes. A character takes one to four bytes; the first byte says how many, and
narrows the range of the second. Where the bytes are no text, the complaint says at which byte the
character starts and how many bytes are at fault, or that the bytes end inside it.

* `Classpath.Utf8.next` – the first character of some bytes.
* `Classpath.Utf8.decode` – the text that bytes write.
* `Classpath.Utf8.decodeLossy` – the same, with replacement characters where the bytes are no text.
-/

namespace Classpath.Utf8

/-- What the first bytes of a list write. -/
inductive Next where
  /-- A character, and the bytes after it. -/
  | char (c : Char) (rest : Bytes)
  /-- No character: the first `count` bytes are at fault. -/
  | invalid (count : Nat)
  /-- The beginning of a character, cut off. -/
  | incomplete

/-- Whether a byte may follow the first byte of a character. -/
def isTail (b : UInt8) : Bool :=
  b &&& 0xC0 = 0x80

/-- How a character starts: the payload of its first byte, how many bytes follow, and the range of
the first of these. -/
structure Lead where
  payload : Nat
  more : Nat
  low : UInt8 := 0x80
  high : UInt8 := 0xBF

/-- How a character starts whose first byte is `b`, if it is longer than one byte. -/
def lead? (b : UInt8) : Option Lead :=
  if 0xC2 ≤ b && b ≤ 0xDF then some { payload := (b &&& 0x1F).toNat, more := 1 }
  else if b = 0xE0 then some { payload := 0, more := 2, low := 0xA0 }
  else if b = 0xED then some { payload := 0xD, more := 2, high := 0x9F }
  else if 0xE1 ≤ b && b ≤ 0xEF then some { payload := (b &&& 0x0F).toNat, more := 2 }
  else if b = 0xF0 then some { payload := 0, more := 3, low := 0x90 }
  else if 0xF1 ≤ b && b ≤ 0xF3 then some { payload := (b &&& 0x07).toNat, more := 3 }
  else if b = 0xF4 then some { payload := 4, more := 3, high := 0x8F }
  else none

/-- The rest of a character of which `taken` bytes are read: `more` bytes follow, each worth six
bits. -/
def tails (code taken : Nat) : Nat → Bytes → Next
  | 0, rest => .char (Char.ofNat code) rest
  | _ + 1, [] => .incomplete
  | more + 1, b :: rest =>
    if isTail b then tails (code * 64 + (b &&& 0x3F).toNat) (taken + 1) more rest
    else .invalid taken

/-- The first character of some bytes. -/
def next (b : UInt8) (rest : Bytes) : Next :=
  if b < 0x80 then .char (Char.ofNat b.toNat) rest
  else
    match lead? b with
    | none => .invalid 1
    | some l =>
      match rest with
      | [] => .incomplete
      | c :: rest =>
        if l.low ≤ c && c ≤ l.high then
          tails (l.payload * 64 + (c &&& 0x3F).toNat) 2 (l.more - 1) rest
        else .invalid 1

/-- Why bytes are no text. -/
inductive Fault where
  /-- `count` bytes from a given index on are part of no character. -/
  | invalid (count index : Nat)
  /-- The bytes end inside the character that starts at a given index. -/
  | incomplete (index : Nat)
  deriving DecidableEq, Repr

/-- The wording of a fault. -/
def Fault.message : Fault → String
  | invalid count index =>
    "invalid utf-8 sequence of " ++ toString count ++ " bytes from index " ++ toString index
  | incomplete index => "incomplete utf-8 byte sequence from index " ++ toString index

/-- Every step shortens the bytes; `fuel` bounds their number. -/
def decodeFrom (index : Nat) : Nat → Bytes → Except Fault (List Char)
  | 0, _ | _, [] => .ok []
  | fuel + 1, b :: rest =>
    match next b rest with
    | .char c after => do
      return c :: (← decodeFrom (index + (rest.length + 1 - after.length)) fuel after)
    | .invalid count => .error (.invalid count index)
    | .incomplete => .error (.incomplete index)

/-- The characters that bytes write. -/
def decode (bs : Bytes) : Except Fault String :=
  (decodeFrom 0 bs.length bs).map String.ofList

/-- The characters that bytes write, with a replacement for every fault. -/
def decodeLossyFrom : Nat → Bytes → List Char
  | 0, _ | _, [] => []
  | fuel + 1, b :: rest =>
    match next b rest with
    | .char c after => c :: decodeLossyFrom fuel after
    | .invalid count => '\uFFFD' :: decodeLossyFrom fuel (rest.drop (count - 1))
    | .incomplete => ['\uFFFD']

/-- The text that bytes write, with a replacement character for every fault. -/
def decodeLossy (bs : Bytes) : List Char :=
  decodeLossyFrom bs.length bs

/-- The bytes of a text. -/
def encode (s : String) : Bytes :=
  s.toUTF8.toList

end Classpath.Utf8

import Classpath.ClassFile.Reader

/-!
# Modified UTF-8

The encoding of text constants. A text is first written as UTF-16 units, and then each unit as one,
two or three bytes; the unit 0 takes two bytes, so that no byte is zero, and a character outside the
basic plane is a pair of surrogates of three bytes each.

* `Classpath.ModifiedUtf8.decode?` – the text that bytes encode.
* `Classpath.ModifiedUtf8.encode` – the bytes of a text.
-/

namespace Classpath.ModifiedUtf8

/-! ### Units -/

/-- The payload of a continuation byte. -/
def continuation? (b : UInt8) : Option Nat :=
  if b &&& 0xC0 = 0x80 then some (b &&& 0x3F).toNat else none

/-- The 16-bit units that bytes write, each in one of the three forms. -/
def units? : Bytes → Option (List Nat)
  | [] => some []
  | b :: rest =>
    if b ≠ 0 ∧ b < 0x80 then
      (units? rest).map (b.toNat :: ·)
    else if b &&& 0xE0 = 0xC0 then
      match rest with
      | c :: rest => do
        let low ← continuation? c
        let us ← units? rest
        return ((b &&& 0x1F).toNat * 64 + low) :: us
      | [] => none
    else if b &&& 0xF0 = 0xE0 then
      match rest with
      | c :: d :: rest => do
        let mid ← continuation? c
        let low ← continuation? d
        let us ← units? rest
        return ((b &&& 0x0F).toNat * 4096 + mid * 64 + low) :: us
      | _ => none
    else none

/-- Whether a unit is the first half of a pair. -/
def isHighSurrogate (u : Nat) : Bool :=
  0xD800 ≤ u && u < 0xDC00

/-- Whether a unit is the second half of a pair. -/
def isLowSurrogate (u : Nat) : Bool :=
  0xDC00 ≤ u && u < 0xE000

/-- The characters that units write; a surrogate outside a pair writes none. -/
def chars? : List Nat → Option (List Char)
  | [] => some []
  | u :: rest =>
    if isHighSurrogate u then
      match rest with
      | v :: rest =>
        if isLowSurrogate v then
          (chars? rest).map (Char.ofNat (0x10000 + (u - 0xD800) * 0x400 + (v - 0xDC00)) :: ·)
        else none
      | [] => none
    else if isLowSurrogate u then none
    else (chars? rest).map (Char.ofNat u :: ·)

/-! ### Text -/

/-- Whether every byte is a character by itself. -/
def isPlain (bs : Bytes) : Bool :=
  bs.all fun b => b ≠ 0 && b < 0x80

/-- The characters that bytes encode. Bytes that are characters by themselves need no units. -/
def decodeChars? (bs : Bytes) : Option (List Char) :=
  if isPlain bs then some (bs.map fun b => Char.ofNat b.toNat)
  else (units? bs).bind chars?

/-- The text that bytes encode. -/
def decode? (bs : Bytes) : Option String :=
  (decodeChars? bs).map String.ofList

/-- The text that bytes encode, or the complaint that they encode none. -/
def decode (bs : Bytes) : Except ClassFile.ReadError String :=
  match decode? bs with
  | some s => .ok s
  | none => .error ⟨.badModifiedUtf8, none⟩

/-! ### Writing -/

/-- The UTF-16 units of a character. -/
def unitsOfChar (c : Char) : List Nat :=
  let n := c.toNat
  if n < 0x10000 then [n]
  else [0xD800 + (n - 0x10000) / 0x400, 0xDC00 + (n - 0x10000) % 0x400]

/-- The bytes of a unit, in the shortest form that is allowed. -/
def bytesOfUnit (u : Nat) : Bytes :=
  if u ≠ 0 ∧ u < 0x80 then [UInt8.ofNat u]
  else if u < 0x800 then [UInt8.ofNat (0xC0 + u / 64), UInt8.ofNat (0x80 + u % 64)]
  else
    [UInt8.ofNat (0xE0 + u / 4096), UInt8.ofNat (0x80 + u / 64 % 64), UInt8.ofNat (0x80 + u % 64)]

/-- The bytes of a text. -/
def encode (s : String) : Bytes :=
  (s.toList.flatMap unitsOfChar).flatMap bytesOfUnit

end Classpath.ModifiedUtf8

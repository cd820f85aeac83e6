import Classpath.ClassFile.Reader

/-!
# Deflated data

Data that were made shorter: a sequence of blocks, each of which is a plain copy or a text of symbols.
A symbol is a byte, the end of its block, or the beginning of a repetition of what was written before.
How often a symbol occurs decides how many bits stand for it; the bits themselves follow from their
numbers, symbols with fewer bits coming first.

* `Classpath.Deflate.Code` – which bits stand for which symbols.
* `Classpath.Deflate.inflate?` – the data.
-/

namespace Classpath.Deflate

/-! ### Bits -/

/-- Bits still to be read. -/
abbrev Bits := List Bool

/-- The bits of bytes, those of low value first. -/
def bitsOf (bytes : Bytes) : Bits :=
  bytes.flatMap fun b => (List.range 8).map fun i => b.toNat.testBit i

/-- The number that the next bits write, the one of low value first. -/
def number? : Nat → Bits → Option (Nat × Bits)
  | 0, s => some (0, s)
  | _ + 1, [] => none
  | n + 1, b :: s => (number? n s).map fun (m, s) => (b.toNat + 2 * m, s)

/-- The next bytes, the last one first, put before others. -/
def bytes? (out : Bytes) : Nat → Bits → Option (Bytes × Bits)
  | 0, s => some (out, s)
  | n + 1, s => do
    let (b, s) ← number? 8 s
    bytes? (UInt8.ofNat b :: out) n s

/-! ### Codes -/

/-- A code: the symbols that are written with one bit, with two bits, and so on. -/
abbrev Code := List (List Nat)

/-- The code in which the symbols have given numbers of bits. A symbol that has none does not occur. -/
def Code.ofLengths (lengths : List Nat) : Code :=
  (List.range' 1 15).map fun n => (lengths.zipIdx.filter (·.1 = n)).map Prod.snd

/-- The next symbol. `code` is the number that was read, and `first` the first one that stands for no
symbol with fewer bits. -/
def Code.symbolFrom? (code first : Nat) : Code → Bits → Option (Nat × Bits)
  | level :: levels, b :: s =>
    let code := 2 * code + b.toNat
    match level[code - 2 * first]? with
    | some symbol => some (symbol, s)
    | none => symbolFrom? code (2 * first + level.length) levels s
  | _, _ => none

/-- The next symbol. -/
def Code.symbol? (c : Code) (s : Bits) : Option (Nat × Bits) :=
  c.symbolFrom? 0 0 s

/-- The code of bytes, ends and lengths in a block that brings none. -/
def literalCode : Code :=
  .ofLengths (List.replicate 144 8 ++ List.replicate 112 9 ++ List.replicate 24 7
    ++ List.replicate 8 8)

/-- The code of distances in a block that brings none. -/
def distanceCode : Code :=
  .ofLengths (List.replicate 30 5)

/-- The order in which the code is written that the codes of a block are written in. -/
def lengthOrder : List Nat :=
  [16, 17, 18, 0, 8, 7, 9, 6, 10, 5, 11, 4, 12, 3, 13, 2, 14, 1, 15]

/-- Numbers of bits, of which `reversed` were read and `wanted` are needed. A symbol above 15 repeats
the last one, or stands for symbols that do not occur. -/
def lengths? (code : Code) (wanted : Nat) : Nat → List Nat → Bits → Option (List Nat × Bits)
  | 0, _, _ => none
  | n + 1, reversed, s => do
    if wanted ≤ reversed.length then return (reversed.reverse, s)
    let (symbol, s) ← code.symbol? s
    match symbol with
    | 16 =>
      let (more, s) ← number? 2 s
      lengths? code wanted n (List.replicate (3 + more) (← reversed.head?) ++ reversed) s
    | 17 =>
      let (more, s) ← number? 3 s
      lengths? code wanted n (List.replicate (3 + more) 0 ++ reversed) s
    | 18 =>
      let (more, s) ← number? 7 s
      lengths? code wanted n (List.replicate (11 + more) 0 ++ reversed) s
    | length => lengths? code wanted n (length :: reversed) s

/-- Numbers of three bits each. -/
def threes? : Nat → Bits → Option (List Nat × Bits)
  | 0, s => some ([], s)
  | n + 1, s => do
    let (a, s) ← number? 3 s
    let (rest, s) ← threes? n s
    return (a :: rest, s)

/-- The two codes that a block brings. -/
def codes? (s : Bits) : Option (Code × Code × Bits) := do
  let (literals, s) ← number? 5 s
  let (distances, s) ← number? 5 s
  let (count, s) ← number? 4 s
  let (written, s) ← threes? (count + 4) s
  let known := lengthOrder.zip written
  let code := Code.ofLengths ((List.range 19).map fun symbol => (known.lookup symbol).getD 0)
  let wanted := literals + 257 + (distances + 1)
  let (lengths, s) ← lengths? code wanted (wanted + 1) [] s
  return (.ofLengths (lengths.take (literals + 257)), .ofLengths (lengths.drop (literals + 257)), s)

/-! ### Repetitions -/

/-- Ranges of numbers that follow each other from `start` on, each with as many numbers as some bits
can write. -/
def ranges (start : Nat) : List Nat → List (Nat × Nat)
  | [] => []
  | bits :: rest => (start, bits) :: ranges (start + Nat.pow 2 bits) rest

/-- The lengths that the symbols from 257 on stand for: the least one, and the bits that add to it. -/
def lengthRanges : List (Nat × Nat) :=
  (ranges 3 (List.replicate 8 0 ++ (List.range' 1 5).flatMap (List.replicate 4))) ++ [(258, 0)]

/-- The distances that symbols stand for. -/
def distanceRanges : List (Nat × Nat) :=
  ranges 1 (List.replicate 4 0 ++ (List.range' 1 13).flatMap (List.replicate 2))

/-- The number that a symbol stands for, with the bits that follow it. -/
def ranged? (table : List (Nat × Nat)) (symbol : Nat) (s : Bits) : Option (Nat × Bits) := do
  let (least, bits) ← table[symbol]?
  let (more, s) ← number? bits s
  return (least + more, s)

/-- The data with bytes added that were written some distance before. The last byte comes first. -/
def repeat? (distance : Nat) : Nat → Bytes → Option Bytes
  | 0, out => some out
  | n + 1, out => do repeat? distance n ((← out[distance - 1]?) :: out)

/-! ### Blocks -/

/-- The data with those of a block that is a text of symbols; at most `n` of them are read. -/
def text? (literals distances : Code) : Nat → Bytes → Bits → Option (Bytes × Bits)
  | 0, _, _ => none
  | n + 1, out, s => do
    let (symbol, s) ← literals.symbol? s
    if symbol < 256 then text? literals distances n (UInt8.ofNat symbol :: out) s
    else if symbol = 256 then return (out, s)
    else
      let (length, s) ← ranged? lengthRanges (symbol - 257) s
      let (symbol, s) ← distances.symbol? s
      let (distance, s) ← ranged? distanceRanges symbol s
      text? literals distances n (← repeat? distance length out) s

/-- The data with those of a block of a given kind. A copy starts with a new byte and says how long it
is, twice. -/
def block? (kind : Nat) (out : Bytes) (s : Bits) : Option (Bytes × Bits) :=
  match kind with
  | 0 => do
    let (length, s) ← number? 16 (s.drop (s.length % 8))
    let (complement, s) ← number? 16 s
    if length + complement = 0xFFFF then bytes? out length s else none
  | 1 => text? literalCode distanceCode (s.length + 1) out s
  | 2 => do
    let (literals, distances, s) ← codes? s
    text? literals distances (s.length + 1) out s
  | _ => none

/-- The data with those of the next blocks, of which there are at most `n`. -/
def blocks? : Nat → Bytes → Bits → Option Bytes
  | 0, _, _ => none
  | n + 1, out, s => do
    let (last, s) ← number? 1 s
    let (kind, s) ← number? 2 s
    let (out, s) ← block? kind out s
    if last = 1 then return out.reverse else blocks? n out s

/-- The data that deflated data stand for. What follows the last block is not read. -/
def inflate? (bytes : Bytes) : Option Bytes :=
  let s := bitsOf bytes
  blocks? s.length [] s

end Classpath.Deflate

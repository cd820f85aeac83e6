import Classpath.Number.Numeral
import Classpath.Toml.Layout

/-!
# Strings of TOML

A string stands between double quotes, and then escapes count, or between apostrophes, and then every
character stands for itself. Three quotes open a string that may go over several lines; a line end
directly after them is dropped, and up to two quotes may stand before the three that close it.

* `Classpath.Toml.string` – a string of any of the four kinds.
* `Classpath.Toml.lineString` – a string that keeps to its line, as keys do.
-/

namespace Classpath.Toml

/-- The double quote, which allows escapes. -/
def basicQuote : Char := '"'

/-- The apostrophe, which does not. -/
def literalQuote : Char := '\x27'

/-! ### Escapes -/

/-- The character whose number stands in the next `width` hexadecimal digits. -/
def hexChar (width : Nat) : Reading Char := fun s => do
  let digits ← (s.take width).mapM hexDigit?
  let n := digits.foldl (fun n d => 16 * n + d) 0
  if digits.length = width ∧ n.isValidChar then some (Char.ofNat n, s.drop width) else none

/-- The character that an escape stands for; its backslash has been read. -/
def escape : Reading Char
  | 'b' :: s => some ('\x08', s)
  | 'f' :: s => some ('\x0c', s)
  | 'n' :: s => some ('\n', s)
  | 'r' :: s => some ('\r', s)
  | 't' :: s => some ('\t', s)
  | '\\' :: s => some ('\\', s)
  | '"' :: s => some ('"', s)
  | 'u' :: s => hexChar 4 s
  | 'U' :: s => hexChar 8 s
  | _ => none

/-! ### Strings on a line -/

/-- The next part of a string on a line. -/
def linePiece (quote : Char) : Reading (List Char)
  | [] => none
  | c :: s =>
    if c = '\\' && quote = basicQuote then (escape s).map fun (e, s) => ([e], s)
    else if isPlain c then some ([c], s)
    else none

/-- The contents of a string on a line, up to the quote that closes it. -/
def lineBody (quote : Char) : Nat → Reading (List Char)
  | 0, _ => none
  | n + 1, s =>
    if s.head? = some quote then some ([], s.drop 1)
    else do
      let (piece, s) ← linePiece quote s
      let (rest, s) ← lineBody quote n s
      some (piece ++ rest, s)

/-- A string on a line. -/
def lineString (quote : Char) : Reading String
  | [] => none
  | c :: s =>
    if c = quote then
      (lineBody quote (s.length + 1) s).map fun (text, s) => (String.ofList text, s)
    else none

/-! ### Strings over several lines -/

/-- The text after a backslash that ends its line, and after the blanks that follow. -/
def continuation? (s : List Char) : Option (List Char) :=
  (newline? (skipSpaces s)).map skipBlankLines

/-- The next part of a string that may go over several lines. -/
def piece (quote : Char) : Reading (List Char)
  | [] => none
  | c :: s =>
    if c = '\\' && quote = basicQuote then
      match continuation? s with
      | some s => some ([], s)
      | none => linePiece quote (c :: s)
    else
      match newline? (c :: s) with
      | some s => some (['\n'], s)
      | none => linePiece quote (c :: s)

/-- The contents of a string that may go over several lines, up to the quotes that close it. -/
def body (quote : Char) : Nat → Reading (List Char)
  | 0, _ => none
  | n + 1, s =>
    let quotes := s.takeWhile (· = quote)
    if 5 < quotes.length then none
    else if 3 ≤ quotes.length then some (quotes.drop 3, s.drop quotes.length)
    else do
      let (piece, s) ← piece quote (s.drop quotes.length)
      let (rest, s) ← body quote n s
      some (quotes ++ piece ++ rest, s)

/-- A string of either form. -/
def quotedString (quote : Char) (s : List Char) : Option (String × List Char) :=
  match [quote, quote, quote].isPrefixOf? s with
  | some s =>
    let s := (newline? s).getD s
    (body quote (s.length + 1) s).map fun (text, s) => (String.ofList text, s)
  | none => lineString quote s

/-- A string of any of the four kinds. -/
def string (s : List Char) : Option (String × List Char) :=
  if s.head? = some basicQuote then quotedString basicQuote s else quotedString literalQuote s

end Classpath.Toml

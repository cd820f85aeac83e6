/-!
# The layout of a TOML document

Spaces, line ends and comments. A line ends at a line feed, which a return may precede; a return of
its own is not allowed anywhere, and neither are other controls than the tab.

* `Classpath.Toml.Reading` – a reader of a text's first part.
* `Classpath.Toml.lineEnd?` – the rest of a line that holds nothing more.
* `Classpath.Toml.skipLayout` – spaces, line ends and comments.
-/

namespace Classpath.Toml

/-- A reader takes the first part of a text and leaves the rest; `none` where the text does not start
with what it reads. -/
abbrev Reading (α : Type) := List Char → Option (α × List Char)

/-- The characters that may stand between words. -/
def isSpace (c : Char) : Bool :=
  c = ' ' || c = '\t'

/-- The characters that stand for themselves in comments and, quotes apart, in strings. -/
def isPlain (c : Char) : Bool :=
  c = '\t' || (' ' ≤ c && c ≠ '\x7f')

/-- The text after its leading spaces. -/
def skipSpaces (s : List Char) : List Char :=
  s.dropWhile isSpace

/-- The text after the line end that it starts with. -/
def newline? : List Char → Option (List Char)
  | '\n' :: s => some s
  | '\r' :: '\n' :: s => some s
  | _ => none

/-- The text after the comment that it may start with. -/
def skipComment : List Char → List Char
  | '#' :: s => s.dropWhile isPlain
  | s => s

/-- The text after the rest of a line on which only spaces and a comment may stand. -/
def lineEnd? (s : List Char) : Option (List Char) :=
  match skipComment (skipSpaces s) with
  | [] => some []
  | s => newline? s

/-- The text after its leading spaces and line ends. -/
def skipBlankLines : List Char → List Char
  | [] => []
  | '\n' :: s => skipBlankLines s
  | '\r' :: '\n' :: s => skipBlankLines s
  | c :: s => if isSpace c then skipBlankLines s else c :: s

/-- The text after its leading spaces, line ends and at most `n` comments. -/
def skipLayoutFrom : Nat → List Char → List Char
  | 0, s => skipBlankLines s
  | n + 1, s =>
    match skipBlankLines s with
    | '#' :: s => skipLayoutFrom n (s.dropWhile isPlain)
    | s => s

/-- The text after its leading spaces, line ends and comments. -/
def skipLayout (s : List Char) : List Char :=
  skipLayoutFrom s.length s

end Classpath.Toml

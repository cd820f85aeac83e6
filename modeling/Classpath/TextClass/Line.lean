import Classpath.Text

/-!
# Lines of a text class

A text class is read line by line. What counts are its lines without comments and surrounding
blanks, of which empty ones are dropped; every line keeps its number, by which errors refer to it.

* `Classpath.TextClass.significantLines` – the lines that count.
* `Classpath.TextClass.Fault` – what can be wrong, with its wording.
-/

namespace Classpath.TextClass

/-- A line that counts, with its number in the text. -/
structure Line where
  number : Nat
  text : List Char
  deriving DecidableEq, Repr

/-- A line without its comment. A quote before the first `//` makes it part of the line. -/
def stripComment (line : List Char) : List Char :=
  match cutAtWord? ['/', '/'] line with
  | some (before, _) => if before.contains '"' then line else before
  | none => line

/-- The lines of a text that count. -/
def significantLines (s : List Char) : List Line :=
  ((lines s).zipIdx 1).filterMap fun (line, number) =>
    let text := trim (stripComment line)
    if text.isEmpty then none else some ⟨number, text⟩

/-- The number of the last line, and 1 if there is none: where a text that ends too early is at
fault. -/
def lastNumber (ls : List Line) : Nat :=
  ls.getLast?.elim 1 (·.number)

/-- What can be wrong with a text class. -/
inductive Fault where
  | missingHeader
  | missingKind
  | missingName
  | unexpectedClause (clause : List Char)
  | severalSuperclasses
  | unknownModifier (token : List Char)
  | expectedBrace (found : Option (List Char))
  | unterminatedClass
  | unterminatedBody
  | strayAnnotations
  | defaultWithBody
  | expectedTypeAndName (declaration : List Char)
  | missingParameters
  | unclosedParameters
  | unexpectedTrailer (trailer : List Char)
  | unclosedArguments
  | missingAnnotationType
  | expectedElement (argument : List Char)
  | unsupportedValue (value : List Char)
  | trailingContent
  deriving DecidableEq, Repr

/-- A text between back quotes. -/
def quoted (s : List Char) : String :=
  "`" ++ String.ofList s ++ "`"

/-- The wording of a fault. -/
def Fault.message : Fault → String
  | missingHeader => "missing class header"
  | missingKind => "missing class kind"
  | missingName => "missing class name"
  | unexpectedClause clause => "unexpected " ++ quoted clause
  | severalSuperclasses => "a class extends at most one superclass"
  | unknownModifier token => "unknown modifier " ++ quoted token
  | expectedBrace none => "expected `\x7b`"
  | expectedBrace (some found) => "expected `\x7b`, found " ++ quoted found
  | unterminatedClass => "unterminated class body"
  | unterminatedBody => "unterminated method body"
  | strayAnnotations => "annotation without a member"
  | defaultWithBody => "a method with a body cannot declare a default"
  | expectedTypeAndName declaration => "expected `type name` in " ++ quoted declaration
  | missingParameters => "missing parameter list"
  | unclosedParameters => "unclosed parameter list"
  | unexpectedTrailer trailer => "unexpected " ++ quoted trailer
  | unclosedArguments => "unclosed annotation arguments"
  | missingAnnotationType => "missing annotation type"
  | expectedElement argument => "expected `name = value`, found " ++ quoted argument
  | unsupportedValue value => "unsupported value " ++ quoted value
  | trailingContent => "content after end of class"

/-- A fault and the line that is at fault. -/
structure ParseError where
  line : Nat
  fault : Fault
  deriving DecidableEq, Repr

/-- The wording of an error, with its line. -/
def ParseError.message (e : ParseError) : String :=
  "line " ++ toString e.line ++ ": " ++ e.fault.message

end Classpath.TextClass

import Classpath.Utf8

/-!
# The words of launcher scripts

A script is read byte by byte, each byte being taken for the character of its number. Words may have
quotes and parameters in them.

* `Classpath.Script.Shell.value` – the values of parameters.
* `Classpath.Script.tokens` – the words and signs of a script.
-/

namespace Classpath.Script

/-! ### Parameters -/

/-- What a script knows when it is run. -/
structure Shell where
  /-- The path of the script, and what it is run with. -/
  arguments : List String
  environment : List (String × String)
  deriving Repr

/-- A text, each of its bytes as a character. -/
def byteChars (s : String) : List Char :=
  (Utf8.encode s).map fun b => Char.ofNat b.toNat

/-- The value of a parameter: an argument by its number, all of them or their count, the status of
what was run, or a variable. One that is not set has an empty value. -/
def Shell.value (shell : Shell) (name : List Char) : List Char :=
  match name with
  | ['#'] => (toString (shell.arguments.length - 1)).toList
  | ['@'] | ['*'] => byteChars (" ".intercalate shell.arguments.tail)
  | ['?'] => ['0']
  | _ =>
    match (String.ofList name).toNat? with
    | some n => byteChars (shell.arguments[n]?.getD "")
    | none => byteChars ((shell.environment.lookup (String.ofList name)).getD "")

/-- The name of the parameter that a dollar sign, which has been read, refers to. -/
def parameter? : List Char → Option (List Char × List Char)
  | [] => none
  | c :: s =>
    if c = '\x7b' then
      some (s.takeWhile (· ≠ '\x7d'), (s.dropWhile (· ≠ '\x7d')).drop 1)
    else if c.isAlpha || c = '_' then
      let isName (c : Char) : Bool := c.isAlphanum || c = '_'
      some (c :: s.takeWhile isName, s.dropWhile isName)
    else if c.isDigit || "#@*?".toList.contains c then some ([c], s)
    else none

/-! ### Words -/

/-- How a command is joined to the next one. -/
inductive Join where
  /-- The next one is run in any case. -/
  | stop
  /-- The next one is run at the same time. -/
  | background
  /-- The next one is run if this one succeeds. -/
  | ifSo
  /-- The next one is run if this one fails. -/
  | ifNot
  /-- The next one is given what this one prints. -/
  | pipe
  deriving DecidableEq, Repr

/-- A part of a script. -/
inductive Token where
  | word (text : List Char)
  /-- The end of a line. -/
  | line
  /-- The end of a command within a line. -/
  | join (how : Join)
  /-- A stream goes to the file that the next word names. -/
  | toFile (stream : Nat)
  /-- A stream goes where that one goes whose number is the next word. -/
  | toStream (stream : Nat)
  /-- A quotation that does not end, or a sign that has no place in a command. -/
  | broken
  deriving DecidableEq, Repr

/-- What kind of text is being read. -/
inductive Mode where
  | plain
  | singleQuoted
  | doubleQuoted
  | comment
  deriving DecidableEq, Repr

/-- A word of which the beginning has been read. -/
structure Begun where
  /-- The characters, the last one first. -/
  reversed : List Char := []
  quoted : Bool := false
  deriving DecidableEq, Repr

/-- The word with one more character. -/
def Begun.push (w : Option Begun) (c : Char) : Option Begun :=
  let w := w.getD {}
  some { w with reversed := c :: w.reversed }

/-- The word when a quotation begins. -/
def Begun.quote (w : Option Begun) : Option Begun :=
  some { w.getD {} with quoted := true }

/-- The token of the word that was begun, if one was. -/
def flush : Option Begun → List Token
  | some w => [.word w.reversed.reverse]
  | none => []

/-- Whether a character parts words. -/
def isSpace (c : Char) : Bool :=
  c = ' ' || c = '\t'

/-- The words that a value makes together with the word before it, and the one that stays open. -/
def split (w : Option Begun) : List Char → List Token × Option Begun
  | [] => ([], w)
  | c :: s =>
    if isSpace c || c = '\n' then
      let (more, last) := split none s
      (flush w ++ more, last)
    else split (Begun.push w c) s

/-- The number of the stream that is redirected, and the tokens before its redirection. A digit that
stands directly before the sign is the number. -/
def redirected (w : Option Begun) (usual : Nat) : List Token × Nat :=
  match w with
  | some ⟨[d], false⟩ => if d.isDigit then ([], d.toNat - '0'.toNat) else (flush w, usual)
  | _ => (flush w, usual)

/-- The tokens of a script, of which at most `n` characters are read. -/
def tokens (shell : Shell) : Nat → Mode → Option Begun → List Char → List Token
  | 0, _, _, _ => []
  | _, .singleQuoted, _, [] | _, .doubleQuoted, _, [] => [.broken]
  | _, _, w, [] => flush w
  | n + 1, .comment, w, c :: s =>
    if c = '\n' then .line :: tokens shell n .plain none s else tokens shell n .comment w s
  | n + 1, .singleQuoted, w, c :: s =>
    if c = '\'' then tokens shell n .plain w s
    else tokens shell n .singleQuoted (Begun.push w c) s
  | n + 1, .doubleQuoted, w, '\\' :: c :: s =>
    if c = '\n' then tokens shell n .doubleQuoted w s
    else if "\"\\$`".toList.contains c then tokens shell n .doubleQuoted (Begun.push w c) s
    else tokens shell n .doubleQuoted (Begun.push (Begun.push w '\\') c) s
  | n + 1, .doubleQuoted, w, c :: s =>
    if c = '"' then tokens shell n .plain w s
    else
      match if c = '$' then parameter? s else none with
      | some (name, s) =>
        tokens shell n .doubleQuoted ((shell.value name).foldl Begun.push w) s
      | none => tokens shell n .doubleQuoted (Begun.push w c) s
  | n + 1, .plain, w, '\\' :: c :: s =>
    if c = '\n' then tokens shell n .plain w s
    else tokens shell n .plain (Begun.quote (Begun.push w c)) s
  | n + 1, .plain, w, '&' :: '&' :: s => flush w ++ .join .ifSo :: tokens shell n .plain none s
  | n + 1, .plain, w, '|' :: '|' :: s => flush w ++ .join .ifNot :: tokens shell n .plain none s
  | n + 1, .plain, w, '<' :: s =>
    let (before, stream) := redirected w 0
    before ++ .toFile stream :: tokens shell n .plain none s
  | n + 1, .plain, w, '>' :: s =>
    let (before, stream) := redirected w 1
    match s with
    | '&' :: s => before ++ .toStream stream :: tokens shell n .plain none s
    | '>' :: s | '|' :: s => before ++ .toFile stream :: tokens shell n .plain none s
    | s => before ++ .toFile stream :: tokens shell n .plain none s
  | n + 1, .plain, w, c :: s =>
    if c = '\n' then flush w ++ .line :: tokens shell n .plain none s
    else if c = ';' then flush w ++ .join .stop :: tokens shell n .plain none s
    else if c = '&' then flush w ++ .join .background :: tokens shell n .plain none s
    else if c = '|' then flush w ++ .join .pipe :: tokens shell n .plain none s
    else if c = '(' || c = ')' then flush w ++ .broken :: tokens shell n .plain none s
    else if isSpace c then flush w ++ tokens shell n .plain none s
    else if c = '\'' then tokens shell n .singleQuoted (Begun.quote w) s
    else if c = '"' then tokens shell n .doubleQuoted (Begun.quote w) s
    else if c = '#' && w.isNone then tokens shell n .comment none s
    else
      match if c = '$' then parameter? s else none with
      | some (name, s) =>
        let (before, w) := split w (shell.value name)
        before ++ tokens shell n .plain w s
      | none => tokens shell n .plain (Begun.push w c) s

end Classpath.Script

/-!
# What launcher scripts print

The command `echo` prints its words with blanks between them. A word may have escapes in it, one of
which ends what is printed.

* `Classpath.Script.echoed` – what `echo` prints.
-/

namespace Classpath.Script

/-- What has been read of an escape. -/
inductive Escape where
  | no
  | backslash
  /-- A number, of which at most `more` further digits follow. -/
  | octal (value more : Nat)
  deriving DecidableEq, Repr

/-- The value of an octal digit. -/
def octalDigit? (c : Char) : Option Nat :=
  if '0' ≤ c ∧ c ≤ '7' then some (c.toNat - '0'.toNat) else none

/-- The byte of a number, as a character. -/
def byteChar (value : Nat) : Char :=
  Char.ofNat (value % 256)

/-- The character that an escape of a single letter stands for. -/
def letterEscape? : Char → Option Char
  | '\\' => some '\\'
  | 'a' => some '\x07'
  | 'b' => some '\x08'
  | 'f' => some '\x0c'
  | 'n' => some '\n'
  | 'r' => some '\r'
  | 't' => some '\t'
  | 'v' => some '\x0b'
  | _ => none

/-- What a text prints, and whether printing goes on after it: an escape with the letter `c` ends it.
An octal number may have a zero before its three digits. -/
def unescape : Escape → List Char → List Char × Bool
  | .no, [] => ([], true)
  | .backslash, [] => (['\\'], true)
  | .octal value _, [] => ([byteChar value], true)
  | .no, c :: s =>
    if c = '\\' then unescape .backslash s
    else
      let (out, more) := unescape .no s
      (c :: out, more)
  | .backslash, c :: s =>
    if c = 'c' then ([], false)
    else
      match octalDigit? c, letterEscape? c with
      | some d, _ => unescape (.octal d (if d = 0 then 3 else 2)) s
      | none, some e =>
        let (out, more) := unescape .no s
        (e :: out, more)
      | none, none =>
        let (out, more) := unescape .no s
        ('\\' :: c :: out, more)
  | .octal value more, c :: s =>
    match more, octalDigit? c with
    | more + 1, some d => unescape (.octal (8 * value + d) more) s
    | _, _ =>
      if c = '\\' then
        let (out, more) := unescape .backslash s
        (byteChar value :: out, more)
      else
        let (out, more) := unescape .no s
        (byteChar value :: c :: out, more)

/-- What words print, with blanks between them, and `last` after them unless one of them ends it. -/
def printed (last : List Char) : List (List Char) → List Char
  | [] => last
  | w :: rest =>
    match unescape .no w with
    | (out, false) => out
    | (out, true) => out ++ (if rest.isEmpty then last else ' ' :: printed last rest)

/-- What an `echo` of some words prints. -/
def echoed (arguments : List (List Char)) : List Char :=
  match arguments with
  | ['-', 'n'] :: rest => printed [] rest
  | _ => printed ['\n'] arguments

end Classpath.Script

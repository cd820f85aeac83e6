import Classpath.Pattern.Basic
import Classpath.Text

/-!
# The small parts of written patterns

Characters, escapes and switches. While the switch for spacing is on, blanks and comments may stand
between the parts of a pattern, even between the digits of an escape.

* `Classpath.Pattern.skip` – the text after blanks and comments.
* `Classpath.Pattern.escape?` – what a backslash begins.
* `Classpath.Pattern.switches?` – the switches of a group.
-/

namespace Classpath.Pattern

/-! ### Spacing -/

/-- The text after the blanks and comments that it starts with. A comment goes to the end of its
line. -/
def skipSpacing : Bool → List Char → List Char
  | _, [] => []
  | true, c :: s => skipSpacing (c ≠ '\n') s
  | false, c :: s =>
    if isBlank c then skipSpacing false s
    else if c = '#' then skipSpacing true s
    else c :: s

/-- The text where the next part begins. -/
def skip (spaced : Bool) (s : List Char) : List Char :=
  if spaced then skipSpacing false s else s

/-- The next character that counts, when looking ahead past blanks. Of a comment only the mark is
passed over, and so its first character counts. -/
def ahead? (spaced : Bool) (s : List Char) : Option Char :=
  if !spaced then s.head?
  else
    let next :=
      match s.dropWhile isBlank with
      | '#' :: rest => rest.dropWhile isBlank
      | rest => rest
    next.head?.or s.head?

/-! ### Escapes -/

/-- What stands for itself or begins with a backslash. -/
inductive Atom where
  | letter (l : Letter)
  | shorthand (negated : Bool)
  | place
  | wordEdge
  deriving DecidableEq, Repr

/-- The number that the next `count` hexadecimal digits write, after the digits of `n`. -/
def hexNumber? (spaced : Bool) : Nat → Nat → List Char → Option (Nat × List Char)
  | 0, n, s => some (n, s)
  | count + 1, n, s =>
    match skip spaced s with
    | [] => none
    | c :: rest => (hexDigit? c).bind fun d => hexNumber? spaced count (16 * n + d) rest

/-- The character that is written by its number in `count` hexadecimal digits. -/
def hexLetter? (spaced : Bool) (count : Nat) (s : List Char) : Option (Atom × List Char) := do
  let (n, rest) ← hexNumber? spaced count 0 s
  if n.isValidChar then some (.letter ⟨Char.ofNat n, count = 2⟩, rest) else none

/-- Whether a backslash before a character makes it stand for itself: in ASCII all do but letters,
digits and the two signs that mark the edges of words. -/
def isEscapable (c : Char) : Bool :=
  c.toNat < 0x80 && !c.isAlphanum && c ≠ '<' && c ≠ '>'

/-- What is written by a backslash and a single character. There are no references to groups, and no
sets by the properties of characters. -/
def shortEscape? (c : Char) : Option Atom :=
  if isEscapable c then some (.letter ⟨c, false⟩)
  else
    match c with
    | 'a' => some (.letter ⟨'\x07', false⟩)
    | 'f' => some (.letter ⟨'\x0c', false⟩)
    | 't' => some (.letter ⟨'\t', false⟩)
    | 'n' => some (.letter ⟨'\n', false⟩)
    | 'r' => some (.letter ⟨'\r', false⟩)
    | 'v' => some (.letter ⟨'\x0b', false⟩)
    | 'd' | 's' | 'w' => some (.shorthand false)
    | 'D' | 'S' | 'W' => some (.shorthand true)
    | 'A' | 'z' => some .place
    | 'b' | 'B' | '<' | '>' => some .wordEdge
    | _ => none

/-- What is written by a backslash, which has been read, and the characters after it. -/
def escape? (spaced : Bool) : List Char → Option (Atom × List Char)
  | [] => none
  | 'x' :: s => hexLetter? spaced 2 s
  | 'u' :: s => hexLetter? spaced 4 s
  | 'U' :: s => hexLetter? spaced 8 s
  | c :: s => (shortEscape? c).map fun a => (a, s)

/-! ### Switches -/

/-- The switch of a letter. -/
def switch? : Char → Option Switch
  | 'i' => some .ignoreCase
  | 'm' => some .multiLine
  | 's' => some .dotMatchesLineEnd
  | 'U' => some .swapGreed
  | 'u' => some .unicode
  | 'R' => some .returnEndsLine
  | 'x' => some .spaced
  | _ => none

/-- The switches that stand before a colon or a closing parenthesis, after those that are `done`. A
hyphen turns off those after it; there is at most one, and something follows it. No switch is there
twice. -/
def switches? (on : Bool) (done : List SwitchChange) :
    List Char → Option (List SwitchChange × List Char)
  | [] => none
  | '-' :: s =>
    if on && s.head? ≠ some ':' && s.head? ≠ some ')' then switches? false done s else none
  | c :: s =>
    if c = ':' || c = ')' then some (done, c :: s)
    else
      match switch? c with
      | none => none
      | some switch =>
        if done.any (·.switch = switch) then none
        else switches? on (done ++ [⟨switch, on⟩]) s

/-- Whether spacing is on after some changes. -/
def spacedAfter (spaced : Bool) (changes : List SwitchChange) : Bool :=
  ((changes.find? (·.switch = .spaced)).map (·.on)).getD spaced

end Classpath.Pattern

import Classpath.Pattern.Tokens

/-!
# Sets of characters in brackets

A set is written between brackets: characters, ranges, named sets and further sets in brackets. A
closing bracket that comes first stands for itself, and so do hyphens that come first. Two ampersands,
hyphens or tildes combine what is before them with what is after them.

* `Classpath.Pattern.bracketed?` – a set whose opening bracket has been read.
-/

namespace Classpath.Pattern

/-- The names of sets. -/
def setNames : List String :=
  ["alnum", "alpha", "ascii", "blank", "cntrl", "digit", "graph", "lower", "print", "punct", "space",
    "upper", "word", "xdigit"]

/-- A named set, of which the opening bracket has been read, and whether it is negated. -/
def namedSet? (s : List Char) : Option (Bool × List Char) := do
  let s ← [':'].isPrefixOf? s
  let (negated, s) := match s with
    | '^' :: rest => (true, rest)
    | _ => (false, s)
  let rest ← [':', ']'].isPrefixOf? (s.dropWhile (· ≠ ':'))
  if setNames.contains (String.ofList (s.takeWhile (· ≠ ':'))) then some (negated, rest) else none

/-- A character or an escape inside brackets. -/
def atom? (spaced : Bool) : List Char → Option (Atom × List Char)
  | [] => none
  | '\\' :: s => escape? spaced s
  | c :: s => some (.letter ⟨c, false⟩, s)

/-- A range of characters from one to another, which must not come before it. -/
def range? (first last : Atom) : Option SetMember :=
  match first, last with
  | .letter a, .letter b => if a.char ≤ b.char then some (.range a b) else none
  | _, _ => none

/-- A character, a range or a set by its letter. A hyphen makes a range unless a closing bracket or a
second hyphen follows it. -/
def member? (spaced : Bool) (s : List Char) : Option (SetMember × List Char) := do
  let (first, s) ← atom? spaced s
  let single : Option SetMember :=
    match first with
    | .letter l => some (.letter l)
    | .shorthand negated => some (.shorthand negated)
    | _ => none
  match skip spaced s with
  | '-' :: rest =>
    if ahead? spaced rest = some ']' || ahead? spaced rest = some '-' then
      single.map fun m => (m, '-' :: rest)
    else
      let (last, rest) ← atom? spaced (skip spaced rest)
      (range? first last).map fun m => (m, rest)
  | s => single.map fun m => (m, s)

/-- The hyphens that a set starts with. -/
def leadingHyphens (spaced : Bool) : Nat → List Char → List SetMember × List Char
  | 0, s => ([], s)
  | n + 1, s =>
    match s with
    | '-' :: rest =>
      let (more, rest) := leadingHyphens spaced n (skip spaced rest)
      (.letter ⟨'-', false⟩ :: more, rest)
    | s => ([], s)

/-- Whether a set is negated, the members that only its beginning can hold, and what follows. -/
def setStart (spaced : Bool) (s : List Char) : Bool × List SetMember × List Char :=
  let s := skip spaced s
  let (negated, s) := match s with
    | '^' :: rest => (true, skip spaced rest)
    | _ => (false, s)
  match leadingHyphens spaced s.length s with
  | ([], ']' :: rest) => (negated, [.letter ⟨']', false⟩], skip spaced rest)
  | (hyphens, s) => (negated, hyphens, s)

/-- What has been read of a set, combined with its next part. -/
def combine (left : Option CharSet) (members : List SetMember) : CharSet :=
  match left with
  | none => .union members
  | some left => .combined left (.union members)

/-- The members of a set up to its closing bracket; `left` is the set before the last combination
and `members` are those after it. At most `n` parts are read. -/
def members? (spaced : Bool) :
    Nat → Option CharSet → List SetMember → List Char → Option (CharSet × List Char)
  | 0, _, _, _ => none
  | n + 1, left, members, s =>
    match skip spaced s with
    | [] => none
    | ']' :: s => some (combine left members, s)
    | '&' :: '&' :: s | '-' :: '-' :: s | '~' :: '~' :: s =>
      members? spaced n (some (combine left members)) [] s
    | '[' :: s =>
      match namedSet? s with
      | some (negated, s) => members? spaced n left (members ++ [.named negated]) s
      | none => do
        let (negated, start, s) := setStart spaced s
        let (inner, s) ← members? spaced n none start s
        members? spaced n left (members ++ [.bracketed negated inner]) s
    | s => do
      let (m, s) ← member? spaced s
      members? spaced n left (members ++ [m]) s

/-- A set of characters, of which the opening bracket has been read. -/
def bracketed? (spaced : Bool) (s : List Char) : Option (Pattern × List Char) := do
  let (negated, start, s) := setStart spaced s
  let (set, s) ← members? spaced (s.length + 1) none start s
  some (.bracketed negated set, s)

end Classpath.Pattern

import Classpath.Pattern.Brackets
import Classpath.Text.Alphanumeric

/-!
# Reading patterns

A pattern is written as branches with bars between them, and a branch as parts that follow each other.
A part may be repeated by a sign after it; parentheses make one part of a pattern.

* `Classpath.Pattern.parse?` – the pattern that a text writes.
-/

namespace Classpath.Pattern

/-! ### Groups -/

/-- What an opening parenthesis begins. -/
inductive Opening where
  /-- No group, but switches for what follows. -/
  | switches (changes : List SwitchChange)
  /-- A group, with the name by which it can be referred to, if it has one. -/
  | group (changes : List SwitchChange) (name : Option (List Char))
  deriving DecidableEq, Repr

/-- Whether a text may name a group. -/
def isGroupName : List Char → Bool
  | [] => false
  | c :: rest =>
    (c = '_' || isAlphabetic c)
      && rest.all fun c => c = '_' || c = '.' || c = '[' || c = ']' || isAlphanumeric c

/-- A group whose name begins. -/
def namedGroup? (s : List Char) : Option (Opening × List Char) := do
  let (name, rest) ← cutAt? '>' s
  if isGroupName name then some (.group [] (some name), rest) else none

/-- What an opening parenthesis begins, which has been read. Nothing can look ahead or behind. -/
def opening? (spaced : Bool) (s : List Char) : Option (Opening × List Char) :=
  match skip spaced s with
  | '?' :: 'P' :: '<' :: s => namedGroup? s
  | '?' :: '<' :: s => namedGroup? s
  | '?' :: s => do
    let (changes, s) ← switches? true [] s
    match s with
    | ':' :: s => some (.group changes none, s)
    | _ :: s => if changes.isEmpty then none else some (.switches changes, s)
    | [] => none
  | s => some (.group [] none, s)

/-! ### Parts -/

/-- The part that an escape writes. -/
def ofAtom : Atom → Pattern
  | .letter l => .letter l
  | .shorthand negated => .shorthand negated
  | .place => .place
  | .wordEdge => .wordEdge

/-- Parts of which the last one is repeated. There must be one, and switches cannot be repeated. -/
def repeatLast? (parts : List Pattern) : Option (List Pattern) :=
  match parts.getLast? with
  | none | some (.switches _) => none
  | some p => some (parts.dropLast ++ [.repeated p])

/-- A part that is no group and no sign of repetition. A brace would begin a count of repetitions, for
which there is no room. -/
def single? (spaced : Bool) : List Char → Option (Pattern × List Char)
  | [] => none
  | '[' :: s => bracketed? spaced s
  | '\\' :: s => (escape? spaced s).map fun (a, s) => (ofAtom a, s)
  | '.' :: s => some (.anyChar, s)
  | '^' :: s | '$' :: s => some (.place, s)
  | '\x7b' :: _ => none
  | c :: s => some (.letter ⟨c, false⟩, s)

/-- What is read of a pattern: the pattern, the names of its groups and of those before it, and the
text after it. -/
structure Progress where
  pattern : Pattern
  names : List (List Char)
  rest : List Char

/-- A pattern up to a closing parenthesis or the end: `branches` and then the `parts` of the next one
have been read, and groups with `names`. At most `n` parts are read. -/
def branches? :
    Nat → Bool → List (List Char) → List Pattern → List Pattern → List Char → Option Progress
  | 0, _, _, _, _, _ => none
  | n + 1, spaced, names, branches, parts, s =>
    match skip spaced s with
    | [] => some ⟨.alternatives (branches ++ [.sequence parts]), names, []⟩
    | ')' :: s => some ⟨.alternatives (branches ++ [.sequence parts]), names, ')' :: s⟩
    | '|' :: s => branches? n spaced names (branches ++ [.sequence parts]) [] s
    | '(' :: s => do
      match ← opening? spaced s with
      | (.switches changes, s) =>
        branches? n (spacedAfter spaced changes) names branches (parts ++ [.switches changes]) s
      | (.group changes name, s) =>
        if name.any names.contains then none
        else
          let inner ← branches? n (spacedAfter spaced changes) (names ++ name.toList) [] [] s
          match inner.rest with
          | ')' :: s =>
            branches? n spaced inner.names branches (parts ++ [.group changes inner.pattern]) s
          | _ => none
    | '?' :: s | '*' :: s | '+' :: s => do
      let s := match s with
        | '?' :: rest => rest
        | _ => s
      branches? n spaced names branches (← repeatLast? parts) s
    | s => do
      let (p, s) ← single? spaced s
      branches? n spaced names branches (parts ++ [p]) s

/-- The pattern that a text writes, if it writes one. -/
def parse? (s : List Char) : Option Pattern := do
  let read ← branches? (s.length + 1) false [] [] [] s
  if read.rest.isEmpty then some read.pattern else none

end Classpath.Pattern

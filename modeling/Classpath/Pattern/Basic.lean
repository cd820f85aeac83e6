/-!
# Patterns

The regular expressions that stand for texts in a log filter. Only what decides whether a pattern can
be used is kept of it, not what it matches: how its parts are nested, which of its characters are
written in which way, and where switches change the meaning of what follows.

* `Classpath.Pattern` – patterns.
* `Classpath.CharSet` – the sets of characters in brackets.
* `Classpath.Pattern.depth` – how deep a pattern is nested.
-/

namespace Classpath

/-- A switch, which changes the meaning of what follows it. -/
inductive Switch where
  /-- Capitals are no different from small letters. -/
  | ignoreCase
  | multiLine
  | dotMatchesLineEnd
  | swapGreed
  /-- Matching goes by characters, and not by bytes. -/
  | unicode
  | returnEndsLine
  /-- Blanks and comments may stand between the parts. -/
  | spaced
  deriving DecidableEq, Repr

/-- A switch turned on or off. -/
structure SwitchChange where
  switch : Switch
  on : Bool
  deriving DecidableEq, Repr

/-- A character as it is written. -/
structure Letter where
  char : Char
  /-- Whether it is written as the two hexadecimal digits of a byte. -/
  asByte : Bool := false
  deriving DecidableEq, Repr

mutual

/-- A set of characters, as it stands between brackets. -/
inductive CharSet where
  | union (members : List SetMember)
  /-- The intersection or the difference of two sets, or what is in one of them only. -/
  | combined (left right : CharSet)

/-- What a set of characters is made of. -/
inductive SetMember where
  | letter (l : Letter)
  | range (first last : Letter)
  /-- A set by its name between colons. -/
  | named (negated : Bool)
  /-- A set by a backslash and a letter. -/
  | shorthand (negated : Bool)
  | bracketed (negated : Bool) (set : CharSet)

end

/-- A pattern. -/
inductive Pattern where
  | switches (changes : List SwitchChange)
  | letter (l : Letter)
  | anyChar
  /-- A place such as the end of the text. -/
  | place
  /-- A place where a word begins or ends, or where none does. -/
  | wordEdge
  /-- A set by a backslash and a letter. -/
  | shorthand (negated : Bool)
  | bracketed (negated : Bool) (set : CharSet)
  | repeated (p : Pattern)
  /-- A part between parentheses, with switches that hold only there. -/
  | group (changes : List SwitchChange) (p : Pattern)
  | sequence (parts : List Pattern)
  | alternatives (branches : List Pattern)

/-! ### Depth -/

/-- The depth of a list of parts: it is a level of its own unless it has just one part. -/
def levelOf (count depth : Nat) : Nat :=
  if count ≤ 1 then depth else depth + 1

mutual

/-- How deep a set is nested, without its brackets. -/
def CharSet.depth : CharSet → Nat
  | .union members => levelOf members.length (memberDepths members)
  | .combined left right => max left.depth right.depth + 1

/-- How deep what a set is made of is nested. -/
def SetMember.depth : SetMember → Nat
  | .bracketed _ set => set.depth + 1
  | _ => 0

/-- The greatest depth of some members. -/
def memberDepths : List SetMember → Nat
  | [] => 0
  | m :: rest => max m.depth (memberDepths rest)

end

mutual

/-- How deep a pattern is nested. -/
def Pattern.depth : Pattern → Nat
  | .bracketed _ set => set.depth + 1
  | .repeated p => p.depth + 1
  | .group _ p => p.depth + 1
  | .sequence parts => levelOf parts.length (patternDepths parts)
  | .alternatives branches => levelOf branches.length (patternDepths branches)
  | _ => 0

/-- The greatest depth of some patterns. -/
def patternDepths : List Pattern → Nat
  | [] => 0
  | p :: rest => max p.depth (patternDepths rest)

end

end Classpath

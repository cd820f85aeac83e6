import Classpath.Pattern.Reading

/-!
# Patterns that can be used

A pattern can be used if it is not nested too deep and if texts can be matched against it without
tables of characters, and so that a match never ends inside a character. While matching goes by
characters, neither words nor other properties of characters are known, nor which capitals belong to
which small letters. While it goes by bytes, nothing may match a byte outside of ASCII alone.

* `Classpath.Pattern.isUsable` – whether a text writes a pattern that can be used.
-/

namespace Classpath

namespace Pattern

/-- The switches on which it depends whether a pattern can be used. -/
structure Mode where
  unicode : Bool := true
  ignoreCase : Bool := false
  deriving DecidableEq, Repr

/-- The mode after a change. -/
def Mode.change (m : Mode) (c : SwitchChange) : Mode :=
  match c.switch with
  | .unicode => { m with unicode := c.on }
  | .ignoreCase => { m with ignoreCase := c.on }
  | _ => m

end Pattern

open Pattern

/-- Whether a character can stand in a set. -/
def Letter.fitsSet (m : Mode) (l : Letter) : Bool :=
  if m.unicode then !m.ignoreCase else l.char.toNat < 0x80

/-- Whether a character can stand in a pattern. -/
def Letter.fits (m : Mode) (l : Letter) : Bool :=
  if m.unicode then !m.ignoreCase else !l.asByte || l.char.toNat < 0x80

mutual

/-- Whether a set can be used. -/
def CharSet.fits (m : Mode) : CharSet → Bool
  | .union members => membersFit m members
  | .combined left right => left.fits m && right.fits m

/-- Whether a member of a set can be used. -/
def SetMember.fits (m : Mode) : SetMember → Bool
  | .letter l => l.fitsSet m
  | .range first last => first.fitsSet m && last.fitsSet m
  | .named negated => if m.unicode then !m.ignoreCase else !negated
  | .shorthand negated => !m.unicode && !negated
  | .bracketed negated set => (m.unicode || !negated) && set.fits m

/-- Whether all of some members can be used. -/
def membersFit (m : Mode) : List SetMember → Bool
  | [] => true
  | member :: rest => member.fits m && membersFit m rest

end

namespace Pattern

mutual

/-- The mode after a pattern, if it can be used. A group leaves the mode as it was before it. -/
def after? (m : Mode) : Pattern → Option Mode
  | .switches changes => some (changes.foldl Mode.change m)
  | .letter l => if l.fits m then some m else none
  | .anyChar => if m.unicode then some m else none
  | .place => some m
  | .wordEdge => if m.unicode then none else some m
  | .shorthand negated => if m.unicode || negated then none else some m
  | .bracketed negated set =>
    if (m.unicode || !negated) && set.fits m then some m else none
  | .repeated p => after? m p
  | .group changes p => (after? (changes.foldl Mode.change m) p).map fun _ => m
  | .sequence parts => afterAll? m parts
  | .alternatives branches => afterAll? m branches

/-- The mode after some patterns, if they can be used one after the other. -/
def afterAll? (m : Mode) : List Pattern → Option Mode
  | [] => some m
  | p :: rest => (after? m p).bind fun m => afterAll? m rest

end

/-- How deep a pattern may be nested. -/
def maxDepth : Nat := 250

/-- Whether a text writes a pattern that can be used. -/
def isUsable (s : List Char) : Bool :=
  match parse? s with
  | none => false
  | some p => p.depth ≤ maxDepth && (after? {} p).isSome

end Pattern

end Classpath

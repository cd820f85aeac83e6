import Classpath.Number.Numeral

/-!
# Levels of a log

How much is logged, from nothing to everything.

* `Classpath.LogLevel.ofText?` – the level of a name or a number.
-/

namespace Classpath

/-- How much is logged. -/
inductive LogLevel where
  | off | error | warn | info | debug | trace
  deriving DecidableEq, Repr, Inhabited

namespace LogLevel

/-- The name of a level. -/
def label : LogLevel → String
  | off => "off"
  | error => "error"
  | warn => "warn"
  | info => "info"
  | debug => "debug"
  | trace => "trace"

/-- All levels; each has its number in this list. -/
def all : List LogLevel := [off, error, warn, info, debug, trace]

/-- The level of a name, in capitals or not, or of a number. -/
def ofText? (s : List Char) : Option LogLevel :=
  match Numeral.unsigned? s with
  | some n => all[n]?
  | none => all.find? fun level => level.label.toList = Numeral.lowerAscii s

end LogLevel

end Classpath

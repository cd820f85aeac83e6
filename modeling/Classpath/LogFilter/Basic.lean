import Classpath.LogFilter.Directive
import Classpath.Settings.Basic

/-!
# Log filters

A filter says how much is logged, and by whom. It is written as directives with commas between them.

* `Classpath.LogFilter.parse?` – a filter.
* `Classpath.LogSettings.filter` – the filter of settings, with what the environment adds to it.
-/

namespace Classpath

/-- A filter: the directives that can be decided beforehand, and those that cannot. -/
structure LogFilter where
  static : List LogDirective
  dynamic : List LogDirective
  deriving DecidableEq, Repr

namespace LogFilter

/-- The filter of some directives. -/
def ofDirectives (ds : List LogDirective) : LogFilter :=
  let dynamic := ds.filter (·.isDynamic)
  let static := (ds.filter (!·.isDynamic) ++ dynamic).filterMap (·.static?)
  ⟨LogDirective.ordered static, LogDirective.ordered dynamic⟩

/-- The filter of a text. All of its directives must be right. -/
def parse? (s : List Char) : Option LogFilter :=
  (((s.splitOn ',').filter (!·.isEmpty)).mapM LogDirective.parse?).map ofDirectives

/-- A filter as it is written. -/
def text (f : LogFilter) : String :=
  String.ofList ([','].intercalate ((f.static ++ f.dynamic).map (·.text)))

end LogFilter

namespace LogSettings

/-- The directives of settings: a level in any of its spellings, or what stands there. -/
def directives (s : LogSettings) : List Char :=
  let level := trim s.level.toList
  let name := Numeral.lowerAscii level
  if level.isEmpty then "info".toList
  else if name = "warning".toList then "warn".toList
  else if name ∈ ["trace", "debug", "info", "warn", "error"].map String.toList then name
  else level

/-- The filter of settings alone. -/
def ownFilter (s : LogSettings) : LogFilter :=
  (LogFilter.parse? s.directives).getD (.ofDirectives [{ level := .info }])

/-- The filter of settings and of the directives in the environment, which are added to those of the
settings, or replace them if the settings have wrong ones. -/
def filter (s : LogSettings) (environment : Option String) : LogFilter :=
  match environment.map fun e => trim e.toList with
  | none | some [] => s.ownFilter
  | some added =>
    ((LogFilter.parse? (s.directives ++ [','] ++ added)).or (LogFilter.parse? added)).getD
      s.ownFilter

end LogSettings

end Classpath

import Classpath.ClassInfo
import Classpath.Cache
import Classpath.Language

/-!
# Settings

What a project is told to do: the language of its classes, the inputs in which they are looked up, how
much a view keeps, and what is logged. Paths are as they were written; a relative one starts at the
directory of the settings, if that is known.

* `Classpath.Settings` – the settings of a project.
* `Classpath.InputSettings.path?` – the path of an input, as seen from the base directory.
* `Classpath.CacheSettings.policy?` – the policy of a view.
-/

namespace Classpath

/-- The language of a project, without its version. -/
inductive LanguageKind where
  | java | text
  deriving DecidableEq, Repr, Inhabited

namespace LanguageKind

/-- The name of a language in settings. -/
def label : LanguageKind → String
  | java => "java"
  | text => "text_ir"

/-- All languages. -/
def all : List LanguageKind := [java, text]

end LanguageKind

/-- What the settings say of the language. -/
structure LanguageSettings where
  kind : LanguageKind := .java
  /-- The version of Java; it means nothing for the textual form. -/
  version : UInt16 := 8
  /-- Whether classes are named with their modules in any case. -/
  modules : Bool := false
  deriving DecidableEq, Repr, Inhabited

/-- The language of the settings. -/
def LanguageSettings.language (s : LanguageSettings) : Language :=
  match s.kind with
  | .java => .java s.version
  | .text => .text

/-- What an input is. -/
inductive InputKind where
  /-- A directory of class files. -/
  | classDirectory
  /-- An archive of class files. -/
  | archive
  /-- A directory of text classes. -/
  | textDirectory
  /-- A module image with one directory for each module. -/
  | modules
  /-- A module image with one archive for each module. -/
  | packedModules
  /-- The modules of the installed platform, wherever it is. -/
  | systemModules
  deriving DecidableEq, Repr, Inhabited

namespace InputKind

/-- The name of a kind in settings. -/
def label : InputKind → String
  | classDirectory => "class_dir"
  | archive => "jar"
  | textDirectory => "text_ir"
  | modules => "modules"
  | packedModules => "jmods"
  | systemModules => "system_modules"

/-- All kinds. -/
def all : List InputKind :=
  [classDirectory, archive, textDirectory, modules, packedModules, systemModules]

end InputKind

/-- What the settings say of an input. -/
structure InputSettings where
  kind : InputKind
  path : Option Path := none
  /-- The source type of its classes, where it is not the usual one. -/
  sourceType : Option SourceType := none
  deriving DecidableEq, Repr, Inhabited

/-- The path of an input: a relative one starts at the base directory, if there is one. -/
def InputSettings.path? (i : InputSettings) (base : Option Path) : Option Path :=
  i.path.map fun p => base.elim p (·.join p)

/-- How a cache is chosen. -/
inductive PolicyKind where
  | full | lru
  deriving DecidableEq, Repr, Inhabited

namespace PolicyKind

/-- The name of a choice in settings. -/
def label : PolicyKind → String
  | full => "full"
  | lru => "lru"

/-- All choices. -/
def all : List PolicyKind := [full, lru]

end PolicyKind

/-- What the settings say of the cache of a view. -/
structure CacheSettings where
  policy : PolicyKind := .full
  capacity : Option Nat := none
  deriving DecidableEq, Repr, Inhabited

/-- The policy of a view. One that gives up entries needs a capacity. -/
def CacheSettings.policy? (s : CacheSettings) : Option CachePolicy :=
  match s.policy with
  | .full => some .full
  | .lru => s.capacity.bind CachePolicy.ofCapacity?

/-- What the settings say of the log. -/
structure LogSettings where
  /-- A level, or the directives of a filter. -/
  level : String := "info"
  json : Bool := false
  stderr : Bool := true
  file : Option Path := none
  deriving DecidableEq, Repr, Inhabited

/-- The settings of a project. -/
structure Settings where
  language : LanguageSettings := {}
  /-- The inputs; earlier ones shadow later ones. -/
  inputs : List InputSettings := []
  cache : CacheSettings := {}
  logging : LogSettings := {}
  /-- The directory at which relative paths of inputs start. -/
  base : Option Path := none
  deriving DecidableEq, Repr, Inhabited

end Classpath

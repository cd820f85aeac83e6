/-!
# Languages

The language that the classes of a project are written in. Modules came to Java with version 9, so
only a project of that version or a later one may have module locations.

* `Classpath.Language.supportsModules` – whether a language has modules.
-/

namespace Classpath

/-- The language level of a project. -/
inductive Language where
  | java (version : UInt16)
  /-- The textual form of classes, which has no versions and no modules. -/
  | text
  deriving DecidableEq, Repr, Inhabited

namespace Language

/-- The first Java version with modules. -/
def firstModularVersion : UInt16 := 9

/-- Whether the language has modules. -/
def supportsModules : Language → Bool
  | java version => firstModularVersion ≤ version
  | text => false

/-- The version, 0 where there are none. -/
def version : Language → UInt16
  | java version => version
  | text => 0

/-- The name of a language. -/
def display : Language → String
  | java version => "Java " ++ toString version.toNat
  | text => "text IR"

end Language

end Classpath

import Classpath.ClassInfo
import Classpath.Failure
import Classpath.Frontend

/-!
# Locations

A location is a place that provides classes. It can be asked for one class, for all its classes and,
if it is organised in modules, for these. What it answers with are sources: classes that were found
and that are loaded only when needed. Answers may depend on the state `σ` of the world, and asking
may change that state.

* `Classpath.Source.build` – loading a class that was found.
* `Classpath.Location` – a place that provides classes.
-/

namespace Classpath

/-- A class that was found and is not loaded. -/
structure Source (σ : Type) where
  type : ClassType
  origin : String
  /-- The source type that the location gives its classes. -/
  sourceType : SourceType
  load : BuildContext → σ → Except BuildError ClassInfo × σ

/-- The class of a source. It carries the identifier under which it was found, its origin and the
source type that was settled for it; one that declares another name is refused. -/
def Source.build {σ : Type} (s : Source σ) (ctx : BuildContext) (w : σ) :
    Except BuildError ClassInfo × σ :=
  let (built, w) := s.load ctx w
  (built.bind (·.stamped s.type s.origin ctx.sourceType), w)

/-- The classes of a location in several parts, each of which is read when it is reached. A part
holds sources and failures in order. -/
abbrev Listing (σ : Type) :=
  List (σ → List (Except LocationError (Source σ)) × σ)

namespace Listing

/-- All entries of a listing. -/
def entries {σ : Type} : Listing σ → σ → List (Except LocationError (Source σ)) × σ
  | [], w => ([], w)
  | part :: rest, w =>
    let (first, w) := part w
    let (others, w) := entries rest w
    (first ++ others, w)

end Listing

/-- A place that provides classes. -/
structure Location (σ : Type) where
  /-- A short description, by which errors name the location. -/
  description : String
  sourceType : SourceType := .application
  /-- The source of exactly the given type, if the location has it. -/
  find : ClassType → σ → Except LocationError (Option (Source σ)) × σ
  /-- Every source of the location. -/
  list : Naming → σ → Except LocationError (Listing σ) × σ
  /-- The names of the modules in order, if the location is organised in modules. -/
  modules? : Option (σ → Except LocationError (List ModuleName) × σ) := none

namespace Location

variable {σ : Type}

/-- Whether the location is organised in modules. -/
def isModular (l : Location σ) : Bool :=
  l.modules?.isSome

end Location

end Classpath

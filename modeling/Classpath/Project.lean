import Classpath.Location
import Classpath.Cache

/-!
# Projects

A project fixes a language, the locations in the order in which they are asked, and who decides the
source type of a class. It names classes with their modules as soon as one of its locations is
organised in modules, or if it is told to; the language must then have modules.

* `Classpath.Project.ofLocations` – a project, or why it is impossible.
-/

namespace Classpath

/-- What is fixed for all views of a project. -/
structure Project (σ : Type) where
  language : Language
  /-- The locations; earlier ones shadow later ones. -/
  locations : List (Location σ)
  moduleAware : Bool
  /-- The source type of a class that was found. -/
  sourceTypeOf : Source σ → SourceType := fun s => s.sourceType

/-- A location, and whether it was registered as organised in modules. -/
structure Registration (σ : Type) where
  location : Location σ
  asModules : Bool := false

/-- Whether a registered location makes its project name modules. -/
def Registration.isModular {σ : Type} (r : Registration σ) : Bool :=
  r.asModules || r.location.isModular

namespace Project

variable {σ : Type}

/-- The source type that the first matching rule gives: a rule matches the classes whose names start
with its text. Where none matches, the location decides. -/
def sourceTypeByPrefix (rules : List (String × SourceType)) (s : Source σ) : SourceType :=
  match rules.find? fun (start, _) => start.toList.isPrefixOf s.type.name.toList with
  | some (_, sourceType) => sourceType
  | none => s.sourceType

/-- How the project names classes. -/
def naming (p : Project σ) : Naming :=
  ⟨p.moduleAware⟩

/-- The project of some locations. The first one that is organised in modules is an error if the
language has none. -/
def ofLocations (language : Language) (registered : List (Registration σ)) (useModules : Bool)
    (sourceTypeOf : Source σ → SourceType := fun s => s.sourceType) :
    Except ProjectError (Project σ) :=
  let modular := registered.find? Registration.isModular
  match modular with
  | some r =>
    if language.supportsModules then
      .ok { language, locations := registered.map (·.location), moduleAware := true, sourceTypeOf }
    else .error (.modulesUnsupported r.location.description language)
  | none =>
    .ok { language, locations := registered.map (·.location), moduleAware := useModules,
          sourceTypeOf }

end Project

/-- What is settled for one view of a project. -/
structure ViewOptions (σ : Type) where
  policy : CachePolicy := .full
  /-- The interceptors for the classes of a location. -/
  interceptors : Location σ → List Interceptor := fun _ => []

end Classpath

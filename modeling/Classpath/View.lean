import Classpath.Project
import Classpath.Run

/-!
# Views

A view resolves the classes of a project and caches what it resolved. It numbers the classes that it
builds; the number identifies the object, so two answers with one number are the same object, and an
object lives on when the cache gives it up. Along with each object the view keeps which of its
annotations have their defaults computed.

Classes that declare annotations have the defaults of their own annotations computed as soon as they
are cached, and that resolves further classes. With an unbounded cache this ends, since a class
comes into the cache before what it is annotated with is resolved; a small cache may give it up
again. Resolving is therefore given fuel.

* `Classpath.View.resolve` – one class.
* `Classpath.View.resolveAll` – every class of the project.
* `Classpath.View.valuesWithDefaults` – the elements of an annotation, defaults included.
-/

namespace Classpath

/-- A class that a view built, and for each of its annotations the elements with defaults, once they
are computed. -/
structure Loaded where
  info : ClassInfo
  merged : List (Option Elements)
  deriving Repr, Inhabited

namespace Loaded

/-- A class as it is built, with the elements with which it came. -/
def fresh (c : ClassInfo) : Loaded :=
  ⟨c, (List.range c.annotations.length).map c.computed?⟩

/-- The elements of the annotation at a position, if they are computed. -/
def merged? (l : Loaded) (i : Nat) : Option Elements :=
  (l.merged[i]?).join

/-- Which annotations have their defaults computed. -/
def materialized (l : Loaded) : List Bool :=
  l.merged.map (·.isSome)

/-- The object with computed elements at a position. -/
def setMerged (l : Loaded) (i : Nat) (elements : Elements) : Loaded :=
  { l with merged := l.merged.set i (some elements) }

end Loaded

/-- What a view has done so far, and the state of the world. -/
structure ViewState (σ : Type) where
  world : σ
  /-- The numbers of the cached objects. -/
  cache : Cache Nat
  /-- The objects built so far, by number. -/
  built : Array Loaded := #[]
  /-- Whether every class of the project was once resolved. -/
  complete : Bool := false

/-- A project with the options of one view. -/
structure View (σ : Type) where
  project : Project σ
  options : ViewOptions σ := {}

namespace View

variable {σ : Type}

/-- What a view does. -/
abbrev Action (σ α : Type) := Run (ViewState σ) ResolveError α

/-- The state of a view that has done nothing. -/
def start (v : View σ) (w : σ) : ViewState σ :=
  { world := w, cache := .empty v.options.policy }

/-! ### Steps -/

/-- A step that changes only the world. -/
def inWorld {α : Type} (f : σ → α × σ) : Action σ α :=
  Run.step fun s =>
    let (a, w) := f s.world
    (a, { s with world := w })

/-- The cached object of a type, which comes to the front of the cache. -/
def touch (t : ClassType) : Action σ (Option Nat) :=
  Run.step fun s =>
    let (held, cache) := s.cache.get t
    (held, { s with cache })

/-- The number of a new object. -/
def register (c : ClassInfo) : Action σ Nat :=
  Run.step fun s => (s.built.size, { s with built := s.built.push (.fresh c) })

/-- Caches an object. -/
def store (t : ClassType) (id : Nat) : Action σ Unit :=
  fun s =>
    match s.cache.insert t id with
    | .ok cache => some (.ok (), { s with cache })
    | .error e => some (.error (.cache e), s)

/-- The object of a number. -/
def object (id : Nat) : Action σ Loaded :=
  Run.read fun s => s.built[id]?.getD default

/-- Records the computed elements of an annotation. -/
def record (id i : Nat) (elements : Elements) : Action σ Unit :=
  Run.change fun s => { s with built := s.built.modify id (·.setMerged i elements) }

/-! ### Building -/

/-- The elements that an annotation has by itself laid over the defaults that its declaration
gives. -/
def mergedElements (declaration : Option ClassInfo) (a : AnnotationUse ClassType) : Elements :=
  NameMap.overlay (declaration.elim [] (·.elementDefaults)) a.elements

/-- The elements of the annotation `a` at position `i` of an object, defaults included. They are
computed once; if the annotation's type cannot be resolved they stay uncomputed. -/
def materialize (resolve : ClassType → Action σ (Option Nat)) (id : Nat)
    (a : AnnotationUse ClassType) (i : Nat) : Action σ Elements := do
  match (← object id).merged? i with
  | some elements => return elements
  | none =>
    let declaration ←
      match ← resolve a.type with
      | some declaring => pure (some (← object declaring).info)
      | none => pure none
    let elements := mergedElements declaration a
    record id i elements
    return elements

/-- Computes the elements of all annotations of an object. -/
def materializeAll (resolve : ClassType → Action σ (Option Nat)) (id : Nat) (c : ClassInfo) :
    Action σ Unit :=
  Run.forEach (fun (a, i) => do let _ ← materialize resolve id a i) c.annotations.zipIdx

/-- What is settled before a source of a location is loaded. -/
def context (v : View σ) (l : Location σ) (s : Source σ) : BuildContext :=
  ⟨v.project.sourceTypeOf s, v.options.interceptors l, v.project.naming⟩

/-- Loads a source and caches the object. The class is cached before its annotations are looked at,
so an annotation type that is annotated with itself resolves to itself. -/
def build (v : View σ) (resolve : ClassType → Action σ (Option Nat)) (l : Location σ)
    (s : Source σ) : Action σ Nat := do
  match ← inWorld (s.build (v.context l s)) with
  | .error e => Run.fail (.build s.type e)
  | .ok c =>
    let id ← register c
    store s.type id
    if c.isAnnotationType then materializeAll resolve id c
    return id

/-! ### Resolving -/

/-- Asks locations in order for a type, and builds it from the first that has it. -/
def findIn (v : View σ) (resolve : ClassType → Action σ (Option Nat)) (t : ClassType) :
    List (Location σ) → Action σ (Option Nat)
  | [] => return none
  | l :: rest => do
    match ← inWorld (l.find t) with
    | .error e => Run.fail (.lookup t l.description e)
    | .ok none => findIn v resolve t rest
    | .ok (some s) => return some (← v.build resolve l s)

/-- The object of a type: the cached one, or else one that is built now. None if no location has
the type. -/
def resolve (v : View σ) : Nat → ClassType → Action σ (Option Nat)
  | 0, _ => Run.exhausted
  | fuel + 1, t => do
    match ← touch t with
    | some id => return some id
    | none => findIn v (resolve v fuel) t v.project.locations

/-- Builds the listed sources of a location in order, except those of a type that was listed before
or is cached. Returns the types listed so far, `seen` included. -/
def scanEntries (v : View σ) (fuel : Nat) (l : Location σ) (seen : List ClassType) :
    List (Except LocationError (Source σ)) → Action σ (List ClassType)
  | [] => return seen
  | .error e :: _ => Run.fail (.scan l.description e)
  | .ok s :: rest => do
    if seen.contains s.type then scanEntries v fuel l seen rest
    else
      let cached ← Run.read fun st => st.cache.contains s.type
      if !cached then
        let _ ← v.build (v.resolve fuel) l s
      scanEntries v fuel l (s.type :: seen) rest

/-- Reads the parts of a listing in order and builds what they hold. -/
def scanParts (v : View σ) (fuel : Nat) (l : Location σ) (seen : List ClassType) :
    Listing σ → Action σ (List ClassType)
  | [] => return seen
  | part :: rest => do
    let entries ← inWorld part
    scanParts v fuel l (← v.scanEntries fuel l seen entries) rest

/-- Builds what locations list, in order. -/
def scan (v : View σ) (fuel : Nat) (seen : List ClassType) :
    List (Location σ) → Action σ Unit
  | [] => return ()
  | l :: rest => do
    match ← inWorld (l.list v.project.naming) with
    | .error e => Run.fail (.scan l.description e)
    | .ok listing => scan v fuel (← v.scanParts fuel l seen listing) rest

/-- Objects in the order of their types. -/
def byType (s : ViewState σ) (ids : List Nat) : List Nat :=
  let typed := ids.map fun id => ((s.built[id]?.getD default).info.type, id)
  (typed.mergeSort fun a b => a.1.le b.1).map Prod.snd

/-- The cached objects in the order of their types, whatever order the snapshot lists them in. -/
def sortedObjects (s : ViewState σ) : List Nat :=
  byType s s.cache.snapshot

/-- Every class of the project. Once all locations were scanned without a failure, later calls
return what is cached. -/
def resolveAll (v : View σ) (fuel : Nat) : Action σ (List Nat) := do
  if !(← Run.read (·.complete)) then
    v.scan fuel [] v.project.locations
    Run.change ({ · with complete := true })
  Run.read sortedObjects

/-- The elements of the annotation at a position of an object, defaults included; none if there is
no such annotation. -/
def valuesWithDefaults (v : View σ) (fuel : Nat) (id i : Nat) : Action σ (Option Elements) := do
  match (← object id).info.annotations[i]? with
  | none => return none
  | some a => return some (← materialize (v.resolve fuel) id a i)

end View

end Classpath

import Classpath.View

/-!
# The type hierarchy of a view

Queries on supertypes and subtypes of the classes that a view resolves. Answers carry no module
qualifiers, because the references in class files carry none. What is computed is remembered: the
ancestors of each class, and the subtype edges of a full scan.

* `Classpath.Hierarchy.superclassesOf`, `Classpath.Hierarchy.implementedInterfacesOf`,
  `Classpath.Hierarchy.isSubtype` – upwards.
* `Classpath.Hierarchy.directSubtypesOf`, `Classpath.Hierarchy.subtypesOf` – downwards.
-/

namespace Classpath

/-- The ancestors of a class. -/
structure Ancestors where
  /-- The chain of superclasses, nearest first. -/
  superclasses : List ClassType := []
  /-- All interfaces, in order and each once. -/
  interfaces : List ClassType := []
  deriving DecidableEq, Repr, Inhabited

namespace Ancestors

/-- Whether a type is among the ancestors. -/
def contains (a : Ancestors) (t : ClassType) : Bool :=
  List.contains a.interfaces t || List.contains a.superclasses t

/-- The ancestors with a superclass and its ancestors, where these are known. -/
def addSuperclass (a : Ancestors) (t : ClassType) (inherited : Option Ancestors) : Ancestors :=
  let i := inherited.getD {}
  { superclasses := a.superclasses ++ t.unqualified :: i.superclasses
    interfaces := ClassType.sortedSet (a.interfaces ++ i.interfaces) }

/-- The ancestors with an interface and its interfaces, where these are known. -/
def addInterface (a : Ancestors) (t : ClassType) (inherited : Option Ancestors) : Ancestors :=
  let i := inherited.getD {}
  { a with interfaces := ClassType.sortedSet (a.interfaces ++ t.unqualified :: i.interfaces) }

end Ancestors

/-- What is remembered of a hierarchy. -/
structure Hierarchy where
  /-- The ancestors of resolved classes. -/
  ancestors : List (ClassType × Ancestors) := []
  /-- Pairs of a supertype and a direct subtype, once all classes were scanned. -/
  edges : Option (List (ClassType × ClassType)) := none
  deriving Repr, Inhabited

/-- The state of a view and of one hierarchy over it. -/
structure HierarchyState (σ : Type) where
  view : ViewState σ
  memo : Hierarchy := {}

namespace Hierarchy

variable {σ : Type}

/-- A query. -/
abbrev Query (σ α : Type) := Run (HierarchyState σ) HierarchyError α

/-- What a view does, within a query. -/
def inView {α : Type} (a : View.Action σ α) : Query σ α :=
  Run.zoom (·.view) (fun view s => { s with view }) .resolve a

/-- The class of a type, which must be resolvable. -/
def require (v : View σ) (fuel : Nat) (t : ClassType) : Query σ ClassInfo := do
  match ← inView (v.resolve fuel t) with
  | some id => return (← inView (View.object id)).info
  | none => Run.fail (.unknownType t)

/-! ### Upwards -/

/-- The ancestors that `ancestorsOf` finds for the supertype `reference` of the class `subtype`. A
reference out of a module is first looked up in that module. -/
def inherited (ancestorsOf : ClassType → Query σ (Option Ancestors)) (reference subtype : ClassType) :
    Query σ (Option Ancestors) := do
  match subtype.moduleName, reference.moduleName with
  | some m, none =>
    match ← ancestorsOf { reference with moduleName := some m } with
    | some found => return some found
    | none => ancestorsOf reference
  | _, _ => ancestorsOf reference

/-- Adds interfaces and what they inherit. -/
def addInterfaces (ancestorsOf : ClassType → Query σ (Option Ancestors)) (subtype : ClassType) :
    List ClassType → Ancestors → Query σ Ancestors
  | [], a => return a
  | t :: rest, a => do
    let found ← inherited ancestorsOf t subtype
    addInterfaces ancestorsOf subtype rest (a.addInterface t found)

/-- The ancestors that the supertypes of a class give it. -/
def collect (ancestorsOf : ClassType → Query σ (Option Ancestors)) (c : ClassInfo) :
    Query σ Ancestors := do
  let a ←
    match c.superclass with
    | some t => pure (Ancestors.addSuperclass {} t (← inherited ancestorsOf t c.type))
    | none => pure {}
  addInterfaces ancestorsOf c.type c.interfaces a

/-- The ancestors of a type, none if it cannot be resolved. `active` holds the classes whose
ancestors are being collected; to meet one of them again is an error. -/
def ancestorsOf (v : View σ) : Nat → List ClassType → ClassType → Query σ (Option Ancestors)
  | 0, _, _ => Run.exhausted
  | fuel + 1, active, t => do
    match ← Run.read (·.memo.ancestors.lookup t) with
    | some a => return some a
    | none =>
      match ← inView (v.resolve (fuel + 1) t) with
      | none => return none
      | some id =>
        let c := (← inView (View.object id)).info
        if active.contains c.type then Run.fail (.cycle c.type.unqualified)
        else
          let a ← collect (ancestorsOf v fuel (c.type :: active)) c
          Run.change fun s =>
            { s with memo := { s.memo with ancestors := (c.type, a) :: s.memo.ancestors } }
          return some a

/-- The ancestors of a type, which must be resolvable. -/
def requireAncestors (v : View σ) (fuel : Nat) (t : ClassType) : Query σ Ancestors := do
  match ← ancestorsOf v fuel [] t with
  | some a => return a
  | none => Run.fail (.unknownType t)

/-- The direct superclass. -/
def superclassOf (v : View σ) (fuel : Nat) (t : ClassType) : Query σ (Option ClassType) := do
  return (← require v fuel t).superclass.map (·.unqualified)

/-- The interfaces that the class itself declares. -/
def interfacesOf (v : View σ) (fuel : Nat) (t : ClassType) : Query σ (List ClassType) := do
  return ClassType.sortedSet ((← require v fuel t).interfaces.map (·.unqualified))

/-- Every interface that is reached over superclasses and interfaces. -/
def implementedInterfacesOf (v : View σ) (fuel : Nat) (t : ClassType) :
    Query σ (List ClassType) := do
  return (← requireAncestors v fuel t).interfaces

/-- The chain of superclasses, nearest first, up to the first that cannot be resolved. -/
def superclassesOf (v : View σ) (fuel : Nat) (t : ClassType) : Query σ (List ClassType) := do
  return (← requireAncestors v fuel t).superclasses

/-- Whether `candidate` is `supertype` or inherits from it. -/
def isSubtype (v : View σ) (fuel : Nat) (supertype candidate : ClassType) : Query σ Bool := do
  let a ← requireAncestors v fuel candidate
  return candidate.name = supertype.name || a.contains supertype.unqualified

/-! ### Downwards -/

/-- The edges from the supertypes of classes to the classes. -/
def edgesOf (classes : List ClassInfo) : List (ClassType × ClassType) :=
  classes.flatMap fun c => c.supertypes.map fun t => (t.unqualified, c.type.unqualified)

/-- The subtype edges, from the first scan that succeeds. -/
def subtypeEdges (v : View σ) (fuel : Nat) : Query σ (List (ClassType × ClassType)) := do
  match ← Run.read (·.memo.edges) with
  | some edges => return edges
  | none =>
    let ids ← inView (v.resolveAll fuel)
    let built ← Run.read (·.view.built)
    let edges := edgesOf (ids.map fun id => (built[id]?.getD default).info)
    Run.change fun s => { s with memo := { s.memo with edges := some edges } }
    return edges

/-- The direct subtypes of a type. -/
def children (edges : List (ClassType × ClassType)) (t : ClassType) : List ClassType :=
  ClassType.sortedSet ((edges.filter (·.1 = t)).map Prod.snd)

/-- What is reached from the types in a queue, besides `root` and what was found before. Each step
takes one type off the queue, and a type comes into it when it is found; `fuel` bounds the steps. -/
def reachable (edges : List (ClassType × ClassType)) (root : ClassType) :
    Nat → List ClassType → List ClassType → List ClassType
  | 0, _, found => found
  | _, [], found => found
  | fuel + 1, t :: queue, found =>
    let fresh := (children edges t).filter fun c => c ≠ root && !found.contains c
    reachable edges root fuel (queue ++ fresh) (found ++ fresh)

/-- The types that name a type as their superclass or as a direct interface. -/
def directSubtypesOf (v : View σ) (fuel : Nat) (t : ClassType) : Query σ (List ClassType) := do
  let _ ← require v fuel t
  return children (← subtypeEdges v fuel) t.unqualified

/-- All subtypes of a type, without the type itself. Every edge leads to at most one new type, so
there are no more steps than edges, and one for the type. -/
def subtypesOf (v : View σ) (fuel : Nat) (t : ClassType) : Query σ (List ClassType) := do
  let _ ← require v fuel t
  let edges ← subtypeEdges v fuel
  let root := t.unqualified
  return ClassType.sortedSet (reachable edges root (edges.length + 1) [root] [])

end Hierarchy

end Classpath

import Classpath.Location
import Classpath.Store.World

/-!
# Stores in memory

A store whose classes are given directly. It can be told to fail – in looking up, in listing or in
building certain classes – and to answer for one type with the class of another, and it keeps count
of what it is asked.

* `Classpath.Location.ofMemory` – such a store as a location.
-/

namespace Classpath

/-- A class given directly: the type under which it is found, and the class. -/
structure MemoryClass where
  type : ClassType
  info : ClassInfo
  deriving Repr, Inhabited

/-- A store whose classes are given directly. -/
structure MemoryStore where
  name : String
  classes : List MemoryClass
  sourceType : SourceType := .application
  /-- The types whose classes cannot be built. -/
  broken : List ClassType := []
  /-- The types that cannot be looked up. -/
  failing : List ClassType := []
  /-- Types that are looked up as other types. -/
  aliases : List (ClassType × ClassType) := []
  /-- How many classes can be listed before listing fails; `none` if listing does not fail. -/
  listingLimit : Option Nat := none
  /-- Whether listing fails before it starts. -/
  unlistable : Bool := false
  /-- The number by which the world knows the store. -/
  id : Nat
  deriving Repr

namespace MemoryStore

/-- The failure that the store is told to have. -/
def failure (m : MemoryStore) : LocationError :=
  .archive ⟨m.name⟩ "store failure"

/-- The world with the uses of the store changed. -/
def count (m : MemoryStore) (f : Tally → Tally) (w : World) : World :=
  { w with tallies := w.tallies.modify m.id f }

/-- Adds one to what is counted for a type. -/
def increment (t : ClassType) : List (ClassType × Nat) → List (ClassType × Nat)
  | [] => [(t, 1)]
  | (u, n) :: rest => if u = t then (u, n + 1) :: rest else (u, n) :: increment t rest

/-- The source of a class. -/
def source (m : MemoryStore) (c : MemoryClass) : Source World :=
  let origin := m.name ++ ":" ++ c.type.name
  { type := c.type
    origin
    sourceType := m.sourceType
    load := fun ctx w =>
      let w := m.count (fun t => { t with builds := increment c.type t.builds }) w
      if m.broken.contains c.type then (.error (.malformed origin "truncated"), w)
      else
        (.ok { c.info with methods := c.info.methods.map (Frontend.interceptMethod c.type ctx) }, w) }

/-- The class of a type. -/
def find (m : MemoryStore) (t : ClassType) (w : World) :
    Except LocationError (Option (Source World)) × World :=
  let w := m.count (fun u => { u with lookups := u.lookups + 1 }) w
  if m.failing.contains t then (.error m.failure, w)
  else
    let wanted := (m.aliases.lookup t).getD t
    (.ok ((m.classes.find? (·.type = wanted)).map m.source), w)

/-- All classes, up to where listing fails. -/
def list (m : MemoryStore) (w : World) : Except LocationError (Listing World) × World :=
  let w := m.count (fun t => { t with scans := t.scans + 1 }) w
  if m.unlistable then (.error m.failure, w)
  else
    let all := m.classes.map fun c => .ok (m.source c)
    let entries :=
      match m.listingLimit with
      | some n => all.take n ++ [.error m.failure]
      | none => all
    (.ok [fun w => (entries, w)], w)

end MemoryStore

/-- A store in memory as a location. -/
def Location.ofMemory (m : MemoryStore) : Location World where
  description := "memory:" ++ m.name
  sourceType := m.sourceType
  find := m.find
  list _ := m.list

end Classpath

/-!
# Maps by name

A finite map from names, as the list of its pairs in the order of names, each name once. Two maps
with the same pairs are the same list.

* `Classpath.NameMap.put`, `Classpath.NameMap.ofList`, `Classpath.NameMap.overlay`.
-/

namespace Classpath.NameMap

variable {α : Type}

/-- The map with `name` set to `value`. -/
def put (name : String) (value : α) : List (String × α) → List (String × α)
  | [] => [(name, value)]
  | (n, v) :: rest =>
    match Ord.compare name n with
    | .lt => (name, value) :: (n, v) :: rest
    | .eq => (name, value) :: rest
    | .gt => (n, v) :: put name value rest

/-- `m` with all pairs of a list put in; later ones win. -/
def overlay (m pairs : List (String × α)) : List (String × α) :=
  pairs.foldl (fun m (name, value) => put name value m) m

/-- The map of a list of pairs; of two of one name the later counts. -/
def ofList (pairs : List (String × α)) : List (String × α) :=
  overlay [] pairs

end Classpath.NameMap

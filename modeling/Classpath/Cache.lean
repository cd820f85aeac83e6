import Classpath.Failure

/-!
# The cache of a view

A cache holds one definition for each class type. Once a type is held, another definition for it is
refused.

A cache with a capacity lists its entries by recency: an entry comes to the front when it is added
and when it is read, and the last entries are given up. A cache without a capacity keeps all entries
and knows no order of them. The list that stands for it is one of many, and a snapshot of it lists
the definitions in any order (`Classpath.Cache.MayList`).

* `Classpath.Cache.get`, `Classpath.Cache.insert` – the operations that touch an entry.
* `Classpath.Cache.contains`, `Classpath.Cache.snapshot` – those that do not.
-/

namespace Classpath

/-- How much a cache keeps. -/
inductive CachePolicy where
  /-- Every entry. -/
  | full
  /-- The entries touched last, at least one and at most `capacity` of them. -/
  | lru (capacity : Nat) (positive : 0 < capacity)
  deriving DecidableEq, Repr

namespace CachePolicy

instance : Inhabited CachePolicy := ⟨full⟩

/-- The policy of a capacity, which must not be zero. -/
def ofCapacity? (capacity : Nat) : Option CachePolicy :=
  if h : 0 < capacity then some (lru capacity h) else none

/-- The capacity of a policy that has one. -/
def capacity? : CachePolicy → Option Nat
  | full => none
  | lru capacity _ => some capacity

end CachePolicy

/-- Definitions by class type. With a capacity the one touched last is the first entry; without one
the order of the entries has no meaning. -/
structure Cache (α : Type) where
  capacity : Option Nat := none
  entries : List (ClassType × α) := []
  deriving Repr

namespace Cache

variable {α : Type}

/-- Two lists are **alike** for a capacity: they have the same elements, and if there is a capacity
also the same order. -/
def Alike {β : Type} (capacity : Option Nat) (l l' : List β) : Prop :=
  l.Perm l' ∧ (capacity.isSome → l = l')

instance {β : Type} [DecidableEq β] (capacity : Option Nat) (l l' : List β) :
    Decidable (Alike capacity l l') :=
  inferInstanceAs (Decidable (_ ∧ _))

/-- The empty cache of a policy. -/
def empty (policy : CachePolicy) : Cache α :=
  { capacity := policy.capacity? }

/-- The definition held for a type; looking does not touch it. -/
def find? (c : Cache α) (t : ClassType) : Option α :=
  c.entries.lookup t

/-- Whether a definition is held for a type. -/
def contains (c : Cache α) (t : ClassType) : Bool :=
  (c.find? t).isSome

/-- The number of entries. -/
def size (c : Cache α) : Nat :=
  c.entries.length

/-- The definitions held. With a capacity the one touched last is the first; without one this is one
of the lists that a snapshot may be. -/
def snapshot (c : Cache α) : List α :=
  c.entries.map Prod.snd

/-- What a snapshot **may list**: the definitions held, in their order if they have one. -/
def MayList (c : Cache α) (l : List α) : Prop :=
  Alike c.capacity l c.snapshot

instance [DecidableEq α] (c : Cache α) (l : List α) : Decidable (c.MayList l) :=
  inferInstanceAs (Decidable (Alike ..))

/-- Entries cut down to a capacity. -/
def fit (capacity : Option Nat) (entries : List (ClassType × α)) : List (ClassType × α) :=
  capacity.elim entries fun n => entries.take n

/-- The cache with the entry of a type in front, if its entries have an order. -/
def promote (c : Cache α) (t : ClassType) (a : α) : Cache α :=
  if c.capacity.isSome then { c with entries := (t, a) :: c.entries.filter (·.1 ≠ t) } else c

/-- The definition held for a type, and the cache that is left. -/
def get (c : Cache α) (t : ClassType) : Option α × Cache α :=
  match c.find? t with
  | some a => (some a, c.promote t a)
  | none => (none, c)

/-- Adding a definition. For a type that is held it must be the one held, and then nothing
changes. -/
def insert [DecidableEq α] (c : Cache α) (t : ClassType) (a : α) : Except CacheError (Cache α) :=
  match c.find? t with
  | some held => if held = a then .ok c else .error (.duplicateInsertion t)
  | none => .ok { c with entries := fit c.capacity ((t, a) :: c.entries) }

end Cache

end Classpath

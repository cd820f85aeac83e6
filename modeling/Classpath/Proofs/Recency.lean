import Classpath.Cache
import Mathlib.Data.List.Basic
import Mathlib.Data.List.Nodup

/-!
# The cache and its entries

What the operations of `Classpath.Cache` do to the entries, so that nothing else has to look at the
list. A cache is `Classpath.Cache.WellKept` if it holds one definition for each type and no more
entries than it may; every operation keeps it so.

* `Classpath.Cache.push` – the cache that an accepted definition leaves.
* `Classpath.Cache.find?_get` – reading changes nothing that is held, and the order only where there
  is one (`Classpath.Cache.get_of_unbounded`).
* `Classpath.Cache.find?_push_eq_some` – what is held after an insertion was held before, or is the
  definition inserted.
* `Classpath.Cache.HasRoom` – nothing is given up by the next insertion; then
  `Classpath.Cache.find?_push_of_hasRoom` says exactly what is held after it.
-/

namespace Classpath

namespace Cache

variable {α : Type} {c : Cache α} {t u : ClassType} {a b : α}

/-! ### What is held -/

theorem mem_of_find? (h : c.find? t = some a) : (t, a) ∈ c.entries := by
  obtain ⟨before, after, hsplit, -⟩ := List.lookup_eq_some_iff.mp h
  rw [hsplit]
  exact List.mem_append_right _ (List.mem_cons_self ..)

/-- A type is held when it is the type of an entry. -/
theorem find?_isSome : (c.find? t).isSome ↔ t ∈ c.entries.map Prod.fst := by
  rw [find?, List.lookup_isSome_iff, List.mem_map]
  constructor
  · rintro ⟨e, he, heq⟩
    exact ⟨e, he, (beq_iff_eq.mp heq).symm⟩
  · rintro ⟨e, he, rfl⟩
    exact ⟨e, he, beq_self_eq_true _⟩

theorem find?_eq_none : c.find? t = none ↔ t ∉ c.entries.map Prod.fst := by
  rw [← find?_isSome, Option.not_isSome_iff_eq_none]

theorem contains_eq_false : c.contains t = false ↔ c.find? t = none := by
  rw [contains, Option.isSome_eq_false_iff, Option.isNone_iff_eq_none]

@[simp] theorem find?_empty (policy : CachePolicy) : (empty policy : Cache α).find? t = none := rfl

/-- **A well-kept cache**: one definition for each type, and no more of them than there may be. -/
structure WellKept (c : Cache α) : Prop where
  distinct : (c.entries.map Prod.fst).Nodup
  fits : ∀ n, c.capacity = some n → 0 < n ∧ c.entries.length ≤ n

theorem wellKept_empty (policy : CachePolicy) : (empty policy : Cache α).WellKept where
  distinct := List.nodup_nil
  fits n hn := by
    cases policy with
    | full => cases hn
    | lru capacity positive =>
      obtain rfl : capacity = n := Option.some.inj hn
      exact ⟨positive, Nat.zero_le _⟩

/-- In a well-kept cache the entries are what is found. -/
theorem WellKept.find?_eq_some (h : c.WellKept) : c.find? t = some a ↔ (t, a) ∈ c.entries := by
  refine ⟨mem_of_find?, fun hmem => ?_⟩
  obtain ⟨before, after, hsplit⟩ := List.append_of_mem hmem
  refine List.lookup_eq_some_iff.mpr ⟨before, after, hsplit, fun p hp => ?_⟩
  have hdistinct := h.distinct
  rw [hsplit, List.map_append, List.nodup_append] at hdistinct
  have hne : p.1 ≠ t := hdistinct.2.2 p.1 (List.mem_map_of_mem hp) t (by simp)
  exact bne_iff_ne.mpr hne.symm

/-! ### Reading -/

@[simp] theorem capacity_promote : (c.promote t a).capacity = c.capacity := by
  rw [promote]
  split <;> rfl

/-- A cache without a capacity has no order that could change. -/
theorem promote_of_unbounded (h : c.capacity = none) : c.promote t a = c := by
  simp [promote, h]

@[simp] theorem capacity_get : (c.get t).2.capacity = c.capacity := by
  rw [get]
  split
  · exact capacity_promote
  · rfl

@[simp] theorem get_fst : (c.get t).1 = c.find? t := by
  rw [get]
  split
  · rename_i held
    exact held.symm
  · rename_i absent
    exact absent.symm

/-- Reading a type that is not held changes nothing. -/
theorem get_of_find?_eq_none (h : c.find? t = none) : (c.get t).2 = c := by
  rw [get, h]

/-- A look-up passes over the entries of another type. -/
theorem lookup_filter_ne (h : u ≠ t) (entries : List (ClassType × α)) :
    (entries.filter (·.1 ≠ t)).lookup u = entries.lookup u := by
  induction entries with
  | nil => rfl
  | cons e rest ih =>
    obtain ⟨k, d⟩ := e
    by_cases hk : k = t
    · subst hk
      have hu : (u == k) = false := by simpa using h
      simpa [List.lookup_cons, hu] using ih
    · simp only [ne_eq, decide_not, hk, decide_false, Bool.not_false, List.filter_cons_of_pos,
        List.lookup_cons]
      rw [← ih]
      simp

/-- Reading changes nothing where the entries have no order. -/
theorem get_of_unbounded (h : c.capacity = none) : (c.get t).2 = c := by
  rw [get]
  split
  · exact promote_of_unbounded h
  · rfl

theorem find?_promote (h : c.find? t = some a) : (c.promote t a).find? u = c.find? u := by
  rw [promote]
  split
  · by_cases hu : u = t
    · subst hu
      rw [h]
      exact List.lookup_cons_self
    · have hne : (u == t) = false := by simpa using hu
      simp only [find?, List.lookup_cons, hne]
      exact lookup_filter_ne hu c.entries
  · rfl

/-- **Reading keeps what is held.** -/
@[simp] theorem find?_get : (c.get t).2.find? u = c.find? u := by
  rcases hfind : c.find? t with _ | a
  · rw [get_of_find?_eq_none hfind]
  · rw [get, hfind]
    exact find?_promote hfind

theorem WellKept.promote (h : c.WellKept) (ht : c.find? t = some a) : (c.promote t a).WellKept := by
  have hmem : t ∈ c.entries.map Prod.fst := find?_isSome.mp (by rw [ht]; rfl)
  have hlen : (c.entries.filter (·.1 ≠ t)).length < c.entries.length := by
    obtain ⟨e, he, het⟩ := List.mem_map.mp hmem
    exact List.length_filter_lt_length_iff_exists.mpr ⟨e, he, by simpa using het⟩
  rw [Cache.promote]
  split
  · refine ⟨?_, fun n hn => ⟨(h.fits n hn).1, ?_⟩⟩
    · rw [List.map_cons, List.nodup_cons]
      refine ⟨by simp, ?_⟩
      exact h.distinct.sublist (List.filter_sublist.map Prod.fst)
    · have := (h.fits n hn).2
      rw [List.length_cons]
      omega
  · exact h

theorem WellKept.get (h : c.WellKept) : (c.get t).2.WellKept := by
  rcases hfind : c.find? t with _ | a
  · rwa [get_of_find?_eq_none hfind]
  · rw [Cache.get, hfind]
    exact h.promote hfind

/-! ### Adding -/

/-- The cache that an accepted definition leaves: the definition in front of as many of the other
entries as there is room for. -/
def push (c : Cache α) (t : ClassType) (a : α) : Cache α :=
  { c with entries := fit c.capacity ((t, a) :: c.entries) }

@[simp] theorem capacity_push : (c.push t a).capacity = c.capacity := rfl

theorem insert_of_find?_eq_none [DecidableEq α] (h : c.find? t = none) :
    c.insert t a = .ok (c.push t a) := by
  rw [insert, h]
  rfl

/-- A second definition for a type that is held is refused. -/
theorem insert_of_ne [DecidableEq α] (h : c.find? t = some b) (hne : b ≠ a) :
    c.insert t a = .error (.duplicateInsertion t) := by
  simp [insert, h, hne]

/-- Entries cut down to a capacity are the first of them. -/
theorem fit_isPrefix (capacity : Option Nat) (entries : List (ClassType × α)) :
    fit capacity entries <+: entries := by
  cases capacity with
  | none => exact List.prefix_refl _
  | some n => exact List.take_prefix n entries

theorem WellKept.push (h : c.WellKept) (habsent : c.find? t = none) : (c.push t a).WellKept where
  distinct := by
    have hcons : (((t, a) :: c.entries).map Prod.fst).Nodup :=
      List.nodup_cons.mpr ⟨find?_eq_none.mp habsent, h.distinct⟩
    exact hcons.sublist ((fit_isPrefix _ _).sublist.map Prod.fst)
  fits n hn := by
    have hcap : c.capacity = some n := hn
    refine ⟨(h.fits n hcap).1, ?_⟩
    change (fit c.capacity ((t, a) :: c.entries)).length ≤ n
    rw [hcap]
    exact List.length_take_le _ _

/-- The definition added is held: there is always room for one. -/
theorem WellKept.find?_push_self (h : c.WellKept) : (c.push t a).find? t = some a := by
  change (fit c.capacity ((t, a) :: c.entries)).lookup t = some a
  rcases hcap : c.capacity with _ | n
  · simp [fit]
  · obtain ⟨m, rfl⟩ : ∃ m, n = m + 1 := ⟨n - 1, by have := (h.fits n hcap).1; omega⟩
    simp [fit]

/-- **What an insertion leaves was there before**, but for the definition itself. -/
theorem find?_push_eq_some (h : (c.push t a).find? u = some b) :
    u = t ∧ b = a ∨ c.find? u = some b := by
  have hcons : ((t, a) :: c.entries).lookup u = some b :=
    List.IsPrefix.lookup_eq_some (fit_isPrefix _ _) h
  rw [List.lookup_cons] at hcons
  by_cases hu : u = t
  · subst hu
    refine Or.inl ⟨rfl, ?_⟩
    simpa using hcons.symm
  · have hne : (u == t) = false := by simpa using hu
    rw [hne] at hcons
    exact Or.inr hcons

/-- With room for one definition only the one inserted last is held. -/
theorem eq_of_find?_push_isSome (hone : c.capacity = some 1) (h : ((c.push t a).find? u).isSome) :
    u = t := by
  rw [find?_isSome] at h
  change u ∈ (fit c.capacity ((t, a) :: c.entries)).map Prod.fst at h
  rw [hone] at h
  simpa [fit] using h

/-! ### Room for more -/

/-- The next insertion gives nothing up. -/
def HasRoom (c : Cache α) : Prop :=
  ∀ n, c.capacity = some n → c.entries.length < n

theorem hasRoom_of_capacity_eq_none (h : c.capacity = none) : c.HasRoom := fun n hn => by
  rw [h] at hn
  cases hn

theorem entries_push_of_hasRoom (h : c.HasRoom) : (c.push t a).entries = (t, a) :: c.entries := by
  change fit c.capacity ((t, a) :: c.entries) = _
  rcases hcap : c.capacity with _ | n
  · rfl
  · have := h n hcap
    exact List.take_of_length_le (by rw [List.length_cons]; omega)

/-- Where there is room, all that was held is held, and the definition added. -/
theorem find?_push_of_hasRoom (h : c.HasRoom) :
    (c.push t a).find? u = if u = t then some a else c.find? u := by
  rw [find?, entries_push_of_hasRoom h, List.lookup_cons]
  by_cases hu : u = t
  · simp [hu]
  · have hne : (u == t) = false := by simpa using hu
    rw [hne, if_neg hu, find?]

end Cache

end Classpath

import Classpath.Proofs.Recency
import Mathlib.Data.List.Dedup
import Mathlib.Data.List.Induction
import Mathlib.Data.List.Perm.Basic

/-!
# What a cache holds after any history

A cache is given calls, and what it holds afterwards depends on all of them: an insertion may be
refused, what was added may have been given up since, and it may have been added again. The history
of a cache nevertheless settles its contents in few words. A call **touches** a type if it reads the
type and finds it, or adds it. The cache holds the types that were touched last, as many as it has
room for, and each of them with the definition that was accepted for it last. A cache with a capacity
lists them in this order. One without a capacity holds all types that were touched and lists them in
any order (`Classpath.Cache.full_unordered`).

Types that were given up matter for this, though the cache knows nothing of them any more: they were
all touched before every type that is held. So the types that are held are the first of all types
that were ever touched, and that is the invariant (`Classpath.Cache.Keeps`).

* `Classpath.Cache.touches`, `Classpath.Cache.accepted` – the history.
* `Classpath.Cache.Keeps.after`, `Classpath.Cache.keeps_afterAll` – one call, and any number.
* `Classpath.Cache.holds_recent` – the law.
-/

namespace Classpath

namespace Cache

/-- **The calls on a cache.** -/
inductive Call (α : Type) where
  | get (t : ClassType)
  | contains (t : ClassType)
  | insert (t : ClassType) (a : α)
  | snapshot
  deriving DecidableEq, Repr

variable {α : Type} [DecidableEq α]

/-! ### Histories -/

/-- The cache after a call. An insertion that is refused leaves it as it was. -/
def after (c : Cache α) : Call α → Cache α
  | .get t => (c.get t).2
  | .insert t a => (c.insert t a).toOption.getD c
  | .contains _ | .snapshot => c

/-- The cache after some calls. -/
def afterAll (c : Cache α) (calls : List (Call α)) : Cache α :=
  calls.foldl after c

/-- The type that a call **touches**: one that is read and held, or one that is added and not
held. -/
def touched? (c : Cache α) : Call α → Option ClassType
  | .get t => if c.contains t then some t else none
  | .insert t _ => if c.contains t then none else some t
  | .contains _ | .snapshot => none

/-- The definition that a call adds or confirms: that of an insertion that is not refused. -/
def accepted? (c : Cache α) : Call α → Option (ClassType × α)
  | .insert t a => (c.insert t a).toOption.map fun _ => (t, a)
  | .get _ | .contains _ | .snapshot => none

/-- What is noted of some calls, each in the cache that the calls before it left. -/
def along {β : Type} (note : Cache α → Call α → Option β) : Cache α → List (Call α) → List β
  | _, [] => []
  | c, call :: rest => (note c call).toList ++ along note (c.after call) rest

/-- The types that calls touch, in the order in which they do. -/
def touches (c : Cache α) (calls : List (Call α)) : List ClassType :=
  c.along touched? calls

/-- The definitions that calls add or confirm, in the order in which they do. -/
def accepted (c : Cache α) (calls : List (Call α)) : List (ClassType × α) :=
  c.along accepted? calls

/-- **Types by recency**: of the types touched, the one touched last first, and each once. -/
def recent (touches : List ClassType) : List ClassType :=
  touches.dedup.reverse

/-- As many of the first elements of a list as there is room for. -/
def within {β : Type} (capacity : Option Nat) (l : List β) : List β :=
  capacity.elim l l.take

variable {c : Cache α} {call : Call α} {calls : List (Call α)} {t u : ClassType} {a b : α}
  {ts : List ClassType}

theorem afterAll_concat : c.afterAll (calls ++ [call]) = (c.afterAll calls).after call := by
  simp [afterAll]

theorem along_concat {β : Type} (note : Cache α → Call α → Option β) :
    c.along note (calls ++ [call]) =
      c.along note calls ++ (note (c.afterAll calls) call).toList := by
  induction calls generalizing c with
  | nil => simp [along, afterAll]
  | cons first rest ih => simp [along, ih, afterAll]

/-! ### Types by recency -/

omit [DecidableEq α] in
theorem nodup_recent (ts : List ClassType) : (recent ts).Nodup :=
  List.nodup_reverse.mpr (List.nodup_dedup ts)

/-- A type that is touched comes to the front. -/
theorem recent_concat : recent (ts ++ [t]) = t :: (recent ts).filter (· ≠ t) := by
  have hdedup : (ts ++ [t]).dedup = ts.dedup.filter (· ≠ t) ++ [t] := by
    induction ts with
    | nil => simp
    | cons u rest ih =>
      rw [List.cons_append]
      by_cases hmem : u ∈ rest
      · rw [List.dedup_cons_of_mem (List.mem_append_left _ hmem), ih, List.dedup_cons_of_mem hmem]
      · by_cases hu : u = t
        · rw [List.dedup_cons_of_mem (by simp [hu]), ih, List.dedup_cons_of_notMem hmem,
            List.filter_cons_of_neg (by simpa using hu)]
        · rw [List.dedup_cons_of_notMem (by simp [hmem, hu]), ih, List.dedup_cons_of_notMem hmem,
            List.filter_cons_of_pos (by simpa using hu), List.cons_append]
  rw [recent, hdedup, List.reverse_concat, recent, List.filter_reverse]

/-! ### Room for some -/

section Within

variable {β : Type} {n : Option Nat} {l : List β}

theorem within_isPrefix (n : Option Nat) (l : List β) : within n l <+: l := by
  cases n with
  | none => exact List.prefix_refl l
  | some n => exact List.take_prefix n l

theorem map_within {γ : Type} (f : β → γ) : (within n l).map f = within n (l.map f) := by
  cases n <;> simp [within, List.map_take]

theorem length_within_le {m : Nat} : (within (some m) l).length ≤ m :=
  List.length_take_le m l

/-- What comes late enough can be left out beforehand. -/
theorem take_filter_of_forall {p : β → Bool} : ∀ {m : Nat} {l : List β},
    (∀ x ∈ l.take m, p x) → (l.filter p).take m = l.take m
  | 0, _, _ => by simp
  | _ + 1, [], _ => by simp
  | m + 1, x :: l, h => by
    rw [List.take_succ_cons, List.forall_mem_cons] at h
    rw [List.filter_cons_of_pos h.1, List.take_succ_cons, List.take_succ_cons,
      take_filter_of_forall h.2]

/-- Where an element is among the first, it can be left out of these or of all. -/
theorem take_filter_of_mem [DecidableEq β] {x : β} : ∀ {m : Nat} {l : List β}, l.Nodup →
    x ∈ l.take (m + 1) → (l.filter (· ≠ x)).take m = (l.take (m + 1)).filter (· ≠ x)
  | m, y :: l, hnodup, hmem => by
    obtain ⟨hy, hl⟩ := List.nodup_cons.mp hnodup
    rw [List.take_succ_cons] at hmem ⊢
    by_cases hyx : y = x
    · -- the rest does not have the element
      subst hyx
      have hrest : ∀ z ∈ l, decide (z ≠ y) = true := fun z hz =>
        decide_eq_true fun heq => hy (heq ▸ hz)
      rw [List.filter_cons_of_neg (by simp), List.filter_cons_of_neg (by simp),
        List.filter_eq_self.mpr hrest,
        List.filter_eq_self.mpr fun z hz => hrest z (List.mem_of_mem_take hz)]
    · have hrest : x ∈ l.take m := (List.mem_cons.mp hmem).resolve_left fun heq => hyx heq.symm
      obtain ⟨j, rfl⟩ : ∃ j, m = j + 1 := ⟨m - 1, by
        have hpos : 0 < m := by
          by_contra hzero
          rw [Nat.eq_zero_of_not_pos hzero, List.take_zero] at hrest
          cases hrest
        omega⟩
      rw [List.filter_cons_of_pos (by simpa using hyx),
        List.filter_cons_of_pos (by simpa using hyx), List.take_succ_cons,
        take_filter_of_mem hl hrest]

variable [DecidableEq β] {x : β}

/-- **An element that is among the first comes to the front.** -/
theorem within_cons_of_mem (hl : l.Nodup) (hx : x ∈ within n l) :
    within n (x :: l.filter (· ≠ x)) = x :: (within n l).filter (· ≠ x) := by
  rcases n with _ | _ | m
  · rfl
  · simp [within] at hx
  · exact congrArg (x :: ·) (take_filter_of_mem hl hx)

/-- **An element that is not comes to the front**, and the last of the first makes room. -/
theorem within_cons_of_not_mem (hn : n ≠ some 0) (hx : x ∉ within n l) :
    within n (x :: l.filter (· ≠ x)) = within n (x :: within n l) := by
  rcases n with _ | _ | m
  · have hrest : l.filter (· ≠ x) = l :=
      List.filter_eq_self.mpr fun y hy => decide_eq_true fun heq => hx (heq ▸ hy)
    exact congrArg (x :: ·) hrest
  · exact absurd rfl hn
  · have hfirst : ∀ y ∈ l.take m, decide (y ≠ x) = true := fun y hy =>
      decide_eq_true fun heq => hx (heq ▸ List.take_subset_take_left l (Nat.le_succ m) hy)
    change x :: (l.filter _).take m = x :: (l.take (m + 1)).take m
    rw [take_filter_of_forall hfirst, List.take_take, Nat.min_eq_left (Nat.le_succ m)]

end Within

/-! ### As far as there is an order -/

section Alike

variable {β : Type} {n : Option Nat} {l l' : List β}

theorem alike_of_eq (h : l = l') : Alike n l l' :=
  ⟨h ▸ List.Perm.refl l, fun _ => h⟩

theorem alike_none : Alike none l l' ↔ l.Perm l' := by
  simp [Alike]

theorem alike_iff_eq (hn : n.isSome) : Alike n l l' ↔ l = l' :=
  ⟨fun h => h.2 hn, alike_of_eq⟩

theorem Alike.mem_iff (h : Alike n l l') {x : β} : x ∈ l ↔ x ∈ l' :=
  h.1.mem_iff

theorem alike_congr_right {l'' : List β} (h : Alike n l' l'') :
    Alike n l l' ↔ Alike n l l'' := by
  cases n with
  | none => rw [alike_none, alike_none, (alike_none.mp h).congr_right]
  | some m => rw [(alike_iff_eq rfl).mp h]

theorem Alike.map {γ : Type} (h : Alike n l l') (f : β → γ) : Alike n (l.map f) (l'.map f) :=
  ⟨h.1.map f, fun hn => congrArg (List.map f) (h.2 hn)⟩

theorem alike_map_some : Alike n (l.map some) (l'.map some) ↔ Alike n l l' := by
  have hinjective : Function.Injective (some : β → Option β) := fun _ _ => Option.some.inj
  rw [Alike, Alike, List.map_perm_map_iff hinjective, List.map_inj_right hinjective]

variable [DecidableEq β] {x : β}

/-- What comes to the front of one list comes to the front of the other. Where there is no order it
can stay where it is. -/
theorem Alike.promote (h : Alike n l (within n l')) (hnodup : l'.Nodup) (hx : x ∈ l) :
    Alike n (if n.isSome then x :: l.filter (· ≠ x) else l) (within n (x :: l'.filter (· ≠ x))) := by
  cases n with
  | none =>
    have hperm : l.Perm l' := alike_none.mp h
    have herase : l'.filter (· ≠ x) = l'.erase x := by
      rw [hnodup.erase_eq_filter]
      exact List.filter_congr fun y _ => by simp [bne, beq_eq_decide]
    refine alike_none.mpr (hperm.trans ?_)
    rw [herase]
    exact List.perm_cons_erase (hperm.mem_iff.mp hx)
  | some m =>
    obtain rfl := (alike_iff_eq rfl).mp h
    exact alike_of_eq (within_cons_of_mem hnodup hx).symm

/-- The same for what is new, which is put in front. -/
theorem Alike.push (h : Alike n l (within n l')) (hn : n ≠ some 0) (hx : x ∉ l) :
    Alike n (within n (x :: l)) (within n (x :: l'.filter (· ≠ x))) := by
  rw [within_cons_of_not_mem hn fun hmem => hx (h.mem_iff.mpr hmem)]
  cases n with
  | none => exact alike_none.mpr ((alike_none.mp h).cons x)
  | some m => exact alike_of_eq (by rw [← (alike_iff_eq rfl).mp h])

end Alike

/-! ### One call -/

/-- **The cache that a history leaves**: the types touched last, in order if there is one, each with
the definition accepted last. -/
structure Keeps (c : Cache α) (capacity : Option Nat) (ts : List ClassType)
    (accepted : List (ClassType × α)) : Prop where
  kept : c.WellKept
  capacity_eq : c.capacity = capacity
  keys : Alike capacity (c.entries.map Prod.fst) (within capacity (recent ts))
  newest : ∀ t a, c.find? t = some a → accepted.reverse.lookup t = some a

variable {n : Option Nat} {ds : List (ClassType × α)}

omit [DecidableEq α] in
theorem lookup_reverse_concat :
    (ds ++ [(t, a)]).reverse.lookup u = if u = t then some a else ds.reverse.lookup u := by
  rw [List.reverse_concat, List.lookup_cons]
  by_cases hu : u = t
  · simp [hu]
  · have hne : (u == t) = false := by simpa using hu
    rw [hne, if_neg hu]

omit [DecidableEq α] in
theorem keys_get (h : c.find? t = some a) :
    (c.get t).2.entries.map Prod.fst =
      if c.capacity.isSome then t :: (c.entries.map Prod.fst).filter (· ≠ t)
      else c.entries.map Prod.fst := by
  rw [get, h]
  change (c.promote t a).entries.map Prod.fst = _
  rw [promote]
  split
  · rw [List.map_cons, List.filter_map]
    rfl
  · rfl

omit [DecidableEq α] in
theorem keys_push :
    (c.push t a).entries.map Prod.fst = within c.capacity (t :: c.entries.map Prod.fst) :=
  map_within Prod.fst

theorem after_insert_of_find? (h : c.find? t = some b) : c.after (.insert t a) = c := by
  by_cases hba : b = a <;> simp [after, insert, h, hba, Except.toOption]

/-- Reading a type that is held brings it to the front of those held. -/
theorem Keeps.after_get (h : c.Keeps n ts ds) (hfind : c.find? t = some a) :
    (c.after (.get t)).Keeps n (ts ++ [t]) ds := by
  have hmem : t ∈ c.entries.map Prod.fst := find?_isSome.mp (by rw [hfind]; rfl)
  refine ⟨h.kept.get, by simpa [Cache.after] using h.capacity_eq, ?_, fun u b hu => ?_⟩
  · rw [recent_concat, Cache.after, keys_get hfind, h.capacity_eq]
    exact h.keys.promote (nodup_recent ts) hmem
  · exact h.newest u b (by simpa [Cache.after] using hu)

omit [DecidableEq α] in
/-- A type that is not held is put in front of those held. -/
theorem Keeps.push (h : c.Keeps n ts ds) (hfind : c.find? t = none) :
    (c.push t a).Keeps n (ts ++ [t]) (ds ++ [(t, a)]) := by
  have hzero : n ≠ some 0 := by
    rintro rfl
    exact absurd (h.kept.fits 0 h.capacity_eq).1 (Nat.lt_irrefl 0)
  refine ⟨h.kept.push hfind, h.capacity_eq, ?_, fun u b hu => ?_⟩
  · rw [recent_concat, keys_push, h.capacity_eq]
    exact h.keys.push hzero (find?_eq_none.mp hfind)
  · rw [lookup_reverse_concat]
    rcases find?_push_eq_some hu with ⟨rfl, rfl⟩ | hold
    · exact if_pos rfl
    · have hne : u ≠ t := by
        rintro rfl
        rw [hfind] at hold
        cases hold
      rw [if_neg hne, h.newest u b hold]

omit [DecidableEq α] in
/-- A type that is held stays where it is if its definition is accepted once more. -/
theorem Keeps.confirm (h : c.Keeps n ts ds) (hfind : c.find? t = some a) :
    c.Keeps n ts (ds ++ [(t, a)]) := by
  refine ⟨h.kept, h.capacity_eq, h.keys, fun u b hu => ?_⟩
  rw [lookup_reverse_concat]
  by_cases hut : u = t
  · rw [hut, hfind] at hu
    rw [if_pos hut, Option.some.inj hu]
  · rw [if_neg hut, h.newest u b hu]

/-- **Every call keeps the law.** -/
theorem Keeps.after (h : c.Keeps n ts ds) (call : Call α) :
    (c.after call).Keeps n (ts ++ (c.touched? call).toList) (ds ++ (c.accepted? call).toList) := by
  cases call with
  | contains t => simpa [touched?, accepted?, Cache.after] using h
  | snapshot => simpa [touched?, accepted?, Cache.after] using h
  | get t =>
    rcases hfind : c.find? t with _ | a
    · simpa [touched?, accepted?, Cache.after, contains, hfind, get] using h
    · simpa [touched?, accepted?, contains, hfind] using h.after_get hfind
  | insert t a =>
    rcases hfind : c.find? t with _ | b
    · simpa [touched?, accepted?, Cache.after, contains, hfind, insert_of_find?_eq_none hfind,
        Except.toOption] using h.push hfind
    · rw [after_insert_of_find? hfind]
      by_cases hba : b = a
      · subst hba
        simpa [touched?, accepted?, contains, insert, hfind, Except.toOption] using h.confirm hfind
      · simpa [touched?, accepted?, contains, insert, hfind, hba, Except.toOption] using h

omit [DecidableEq α] in
/-- What a cache may list: the definitions accepted last for the types that are held. -/
theorem Keeps.mayList_iff (h : c.Keeps n ts ds) {l : List α} :
    c.MayList l ↔
      Alike n (l.map some) ((within n (recent ts)).map fun t => ds.reverse.lookup t) := by
  have hnewest : ∀ e ∈ c.entries, some e.2 = ds.reverse.lookup e.1 := fun e he =>
    (h.newest e.1 e.2 (h.kept.find?_eq_some.mpr he)).symm
  have hsnapshot : c.snapshot.map some =
      (c.entries.map Prod.fst).map fun t => ds.reverse.lookup t := by
    rw [snapshot, List.map_map, List.map_map]
    exact List.map_congr_left hnewest
  rw [MayList, h.capacity_eq, ← alike_map_some, hsnapshot]
  exact alike_congr_right (h.keys.map _)

/-! ### Any number of calls -/

/-- **The law holds after every history.** -/
theorem keeps_afterAll (policy : CachePolicy) (calls : List (Call α)) :
    ((empty policy).afterAll calls).Keeps policy.capacity? ((empty policy).touches calls)
      ((empty policy).accepted calls) := by
  induction calls using List.reverseRecOn with
  | nil =>
    refine ⟨wellKept_empty policy, rfl, alike_of_eq ?_, by simp [afterAll]⟩
    cases policy.capacity? <;> simp [within, recent, touches, along, empty, afterAll]
  | append_singleton calls call ih =>
    rw [afterAll_concat, touches, accepted, along_concat, along_concat]
    exact ih.after call

@[simp] theorem capacity_after (call : Call α) : (c.after call).capacity = c.capacity := by
  cases call with
  | get t => exact capacity_get
  | contains t => rfl
  | snapshot => rfl
  | insert t a =>
    rcases hfind : c.find? t with _ | b
    · simp [after, insert_of_find?_eq_none hfind, Except.toOption]
    · rw [after_insert_of_find? hfind]

/-- Where nothing is given up, what is held stays, and else what is accepted is held. -/
theorem find?_after_of_unbounded (hc : c.capacity = none) (call : Call α) :
    (c.after call).find? t = (c.find? t).or ((c.accepted? call).toList.lookup t) := by
  cases call with
  | get u => simp [after, accepted?]
  | contains u => simp [after, accepted?]
  | snapshot => simp [after, accepted?]
  | insert u b =>
    rcases hfind : c.find? u with _ | d
    · have haccepted : c.accepted? (.insert u b) = some (u, b) := by
        simp [accepted?, insert_of_find?_eq_none hfind, Except.toOption]
      simp only [after, insert_of_find?_eq_none hfind, Except.toOption, Option.getD_some]
      rw [haccepted, find?_push_of_hasRoom (hasRoom_of_capacity_eq_none hc), Option.toList_some,
        List.lookup_cons, List.lookup_nil]
      by_cases htu : t = u
      · simp [htu, hfind]
      · have hne : (t == u) = false := by simpa using htu
        simp [htu, hne]
    · -- what is accepted for a type that is held is what is held
      rw [after_insert_of_find? hfind]
      rcases hfindt : c.find? t with _ | e
      · have hne : (t == u) = false := by
          refine beq_eq_false_iff_ne.mpr fun htu => ?_
          rw [htu, hfind] at hfindt
          cases hfindt
        rcases haccepted : c.accepted? (.insert u b) with _ | p
        · simp
        · obtain ⟨-, -, rfl⟩ := Option.map_eq_some_iff.mp haccepted
          simp [List.lookup_cons, hne]
      · rfl

theorem find?_afterAll_of_unbounded (hc : c.capacity = none) (calls : List (Call α)) :
    (c.afterAll calls).find? t = (c.find? t).or ((c.accepted calls).lookup t) := by
  induction calls generalizing c with
  | nil => simp [afterAll, accepted, along]
  | cons call rest ih =>
    have hrest := ih (c := c.after call) (by rw [capacity_after, hc])
    rw [find?_after_of_unbounded hc] at hrest
    have haccepted : c.accepted (call :: rest) =
        (c.accepted? call).toList ++ (c.after call).accepted rest := rfl
    change ((c.after call).afterAll rest).find? t = _
    rw [hrest, haccepted, List.lookup_append, Option.or_assoc]

/-- **What a cache holds**, after any calls on an empty one.

* The types that are held are different and no more than there may be. They are the first of all
  types by recency, and each is held with the definition that was accepted for it last.
* A cache with a capacity lists these definitions by recency. What a cache without a capacity lists
  are these definitions in any order.
* A definition for a type that is held changes nothing, neither what is held nor its order. It is
  accepted if it is the one that is held. Asking whether a type is held changes nothing either.
* A cache that keeps everything holds all types that were touched, each with the first definition
  that was accepted for it, and whatever is called afterwards it still does. Reading it changes
  nothing. -/
theorem holds_recent (policy : CachePolicy) (calls : List (Call α)) :
    let c : Cache α := (empty policy).afterAll calls
    let ts := (empty policy : Cache α).touches calls
    let ds := (empty policy : Cache α).accepted calls
    let held := within policy.capacity? (recent ts)
    (held.Nodup ∧ ∀ n, policy.capacity? = some n → held.length ≤ n) ∧
      (∀ t, c.contains t ↔ t ∈ held) ∧
      (policy ≠ .full → ∀ l, c.MayList l ↔ l.map some = held.map fun t => ds.reverse.lookup t) ∧
      (policy = .full →
        ∀ l, c.MayList l ↔ (l.map some).Perm (held.map fun t => ds.reverse.lookup t)) ∧
      (∀ t, (c.get t).1 = if t ∈ held then ds.reverse.lookup t else none) ∧
      (∀ t a b, (c.get t).1 = some b → c.after (.insert t a) = c ∧
        c.insert t a = if b = a then .ok c else .error (.duplicateInsertion t)) ∧
      (∀ t, c.after (.contains t) = c) ∧
      (policy = .full → held = recent ts ∧ (∀ t, c.after (.get t) = c) ∧
        ∀ t, (c.get t).1 = ds.lookup t ∧
          ∀ a, (c.get t).1 = some a → ∀ more, ((c.afterAll more).get t).1 = some a) := by
  intro c ts ds held
  have hlaw : c.Keeps policy.capacity? ts ds := keeps_afterAll policy calls
  have hheld : ∀ t, (c.find? t).isSome ↔ t ∈ held := fun t => by
    rw [find?_isSome, hlaw.keys.mem_iff]
  simp only [get_fst]
  refine ⟨⟨?_, ?_⟩, hheld, fun hlru l => ?_, fun hfull l => ?_, fun t => ?_,
    fun t a b hb => ⟨after_insert_of_find? hb, ?_⟩, fun t => rfl, ?_⟩
  · exact (within_isPrefix _ _).sublist.nodup (nodup_recent ts)
  · intro n hn
    change (within policy.capacity? _).length ≤ n
    rw [hn]
    exact length_within_le
  · have hcapacity : policy.capacity?.isSome := by
      cases policy with
      | full => exact absurd rfl hlru
      | lru capacity _ => rfl
    exact hlaw.mayList_iff.trans (alike_iff_eq hcapacity)
  · subst hfull
    exact hlaw.mayList_iff.trans alike_none
  · split
    · rename_i hmem
      obtain ⟨a, ha⟩ := Option.isSome_iff_exists.mp ((hheld t).mpr hmem)
      rw [ha, hlaw.newest t a ha]
    · rename_i hmem
      exact Option.not_isSome_iff_eq_none.mp fun hsome => hmem ((hheld t).mp hsome)
  · by_cases hba : b = a <;> simp [insert, hb, hba]
  · rintro rfl
    refine ⟨rfl, fun t => get_of_unbounded hlaw.capacity_eq, fun t => ⟨?_, fun a ha more => ?_⟩⟩
    · exact (find?_afterAll_of_unbounded rfl calls).trans (by simp [ds])
    · rw [find?_afterAll_of_unbounded hlaw.capacity_eq, ha, Option.some_or]

/-- With room for two, reading `a.A` saves it from being given up for `a.C`. Adding it once more
does not. -/
example :
    let a : ClassType := ⟨"a.A", none⟩
    let c : Cache Nat :=
      (empty (.lru 2 Nat.two_pos)).afterAll [.insert a 0, .insert ⟨"a.B", none⟩ 1]
    (c.afterAll [.get a, .insert ⟨"a.C", none⟩ 2]).snapshot = [2, 0] ∧
      (c.afterAll [.insert a 0, .insert ⟨"a.C", none⟩ 2]).snapshot = [2, 1] := by
  decide

/-- **A cache without a capacity knows no order**: after two insertions a snapshot may list the older
definition first. -/
theorem full_unordered :
    ¬ ∀ (calls : List (Call Nat)) (l : List Nat), ((empty .full).afterAll calls).MayList l →
      l.map some = (recent ((empty .full : Cache Nat).touches calls)).map fun t =>
        ((empty .full : Cache Nat).accepted calls).reverse.lookup t := by
  intro hordered
  exact absurd (hordered [.insert ⟨"a.A", none⟩ 0, .insert ⟨"a.B", none⟩ 1] [0, 1] (by decide))
    (by decide)

end Cache

end Classpath

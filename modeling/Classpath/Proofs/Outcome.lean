import Classpath.Run
import Mathlib.Logic.Basic

/-!
# What a run ends with

Statements about a `Classpath.Run` are statements about the value or the error it ends with and the
state it leaves. `Classpath.Run.Outcome` is the one predicate that they are made of: what is asked
of a value, what of an error, and what of a run whose fuel does not suffice. Asking nothing of such
a run is **partial** correctness (`Classpath.Run.Ends`), and asking the impossible of it is
**total** correctness (`Classpath.Run.Halts`). Every rule below is stated for both at once.

A run is a program, and there is one rewriting rule for each way to make a program. Two of them
carry the others:

* `Classpath.Run.outcome_bind` – one run after another;
* `Classpath.Run.outcome_forEach` – a run for each element of a list, by an invariant on the
  elements that are left.
-/

namespace Classpath

/-- A value that is read off a run is what the run ends with. -/
theorem eq_ok_of_toOption {ε β : Type} {x : Except ε β} {b : β} (h : x.toOption = some b) :
    x = .ok b := by
  cases x with
  | error e => cases h
  | ok a => rw [Option.some.inj h]

namespace Run

variable {S T ε ε' α β : Type}

/-- **The outcome of a run**: a value and the state that is left satisfy `A`, an error and that
state satisfy `E`, and `stuck` holds if the run has no outcome. -/
def Outcome (stuck : Prop) (r : Run S ε α) (s : S) (A : α → S → Prop) (E : ε → S → Prop) : Prop :=
  match r s with
  | none => stuck
  | some (.ok a, s') => A a s'
  | some (.error e, s') => E e s'

/-- Partial correctness: the outcome is as asked for, if there is one. -/
abbrev Ends (r : Run S ε α) (s : S) (A : α → S → Prop) (E : ε → S → Prop) : Prop :=
  Outcome True r s A E

/-- Total correctness: there is an outcome, and it is as asked for. -/
abbrev Halts (r : Run S ε α) (s : S) (A : α → S → Prop) (E : ε → S → Prop) : Prop :=
  Outcome False r s A E

variable {stuck stuck' : Prop} {s s' : S} {r : Run S ε α} {A A' : α → S → Prop}
  {E E' : ε → S → Prop}

/-! ### Reading an outcome off -/

theorem Outcome.ok {a : α} (h : Outcome stuck r s A E) (hr : r s = some (.ok a, s')) : A a s' := by
  rwa [Outcome, hr] at h

theorem Outcome.error {e : ε} (h : Outcome stuck r s A E) (hr : r s = some (.error e, s')) :
    E e s' := by
  rwa [Outcome, hr] at h

/-- A run of total correctness has an outcome. -/
theorem Halts.exists (h : Halts r s A E) :
    ∃ x s', r s = some (x, s') ∧ (∀ a, x = .ok a → A a s') ∧ ∀ e, x = .error e → E e s' := by
  rcases hr : r s with _ | ⟨_ | _, s'⟩
  · rw [Halts, Outcome, hr] at h
    exact h.elim
  · exact ⟨_, _, rfl, by simp, fun e he => by cases he; exact h.error hr⟩
  · exact ⟨_, _, rfl, fun a ha => by cases ha; exact h.ok hr, by simp⟩

/-- A run that ends with nothing but `x` ends with `x`. -/
theorem Halts.exists_eq {x : Except ε α}
    (h : Halts r s (fun a _ => .ok a = x) fun e _ => .error e = x) : ∃ s', r s = some (x, s') := by
  obtain ⟨y, s', hr, hok, herror⟩ := h.exists
  cases y with
  | ok a => exact ⟨s', hok a rfl ▸ hr⟩
  | error e => exact ⟨s', herror e rfl ▸ hr⟩

/-- What holds of every value and every error that a run may end with is its outcome. -/
theorem ends_of_forall (hA : ∀ a s', r s = some (.ok a, s') → A a s')
    (hE : ∀ e s', r s = some (.error e, s') → E e s') : Ends r s A E := by
  rw [Ends, Outcome]
  rcases hr : r s with _ | ⟨_ | _, s'⟩
  · trivial
  · exact hE _ _ hr
  · exact hA _ _ hr

theorem Outcome.imp (h : Outcome stuck r s A E) (hA : ∀ a s', A a s' → A' a s')
    (hE : ∀ e s', E e s' → E' e s') : Outcome stuck r s A' E' := by
  rw [Outcome] at h ⊢
  rcases hr : r s with _ | ⟨_ | _, s'⟩ <;> rw [hr] at h
  · exact h
  · exact hE _ _ h
  · exact hA _ _ h

/-- A run has one outcome, so two statements on it are one on both. -/
theorem Outcome.and (h : Outcome stuck r s A E) (h' : Ends r s A' E') :
    Outcome stuck r s (fun a s' => A a s' ∧ A' a s') (fun e s' => E e s' ∧ E' e s') := by
  rw [Ends, Outcome] at h'
  rw [Outcome] at h ⊢
  rcases hr : r s with _ | ⟨_ | _, s'⟩ <;> rw [hr] at h h'
  · exact h
  · exact ⟨h, h'⟩
  · exact ⟨h, h'⟩

theorem Halts.ends (h : Halts r s A E) : Ends r s A E :=
  ends_of_forall (fun _ _ hr => h.ok hr) fun _ _ hr => h.error hr

/-- What holds of the state that is left, whatever the run ends with. -/
theorem Ends.state {P : S → Prop} {x : Except ε α}
    (h : Ends r s (fun _ s' => P s') fun _ s' => P s') (hr : r s = some (x, s')) : P s' := by
  cases x with
  | ok a => exact Outcome.ok h hr
  | error e => exact Outcome.error h hr

/-! ### Programs -/

/-- What follows a run that ends with a value begins where it ended. -/
theorem bind_of_ok {k : α → Run S ε β} {a : α} (h : r s = some (.ok a, s')) :
    (r >>= k) s = k a s' := by
  change Run.bind r k s = _
  rw [Run.bind, h]

theorem pure_bind {a : α} {k : α → Run S ε β} : (Pure.pure a : Run S ε α) >>= k = k a :=
  rfl

theorem bind_assoc {γ : Type} {k : α → Run S ε β} {l : β → Run S ε γ} :
    r >>= k >>= l = r >>= fun a => k a >>= l := by
  funext s
  change Run.bind (Run.bind r k) l s = Run.bind r (fun a => Run.bind (k a) l) s
  simp only [Run.bind]
  rcases r s with _ | ⟨_ | _, s'⟩ <;> rfl

/-- What follows a run matters only in the states in which the run ends. -/
theorem Ends.bind_congr {k k' : α → Run S ε β}
    (h : Ends r s (fun a s' => k a s' = k' a s') fun _ _ => True) : (r >>= k) s = (r >>= k') s := by
  rw [Ends, Outcome] at h
  change Run.bind r k s = Run.bind r k' s
  simp only [Run.bind]
  rcases hr : r s with _ | ⟨_ | a, s'⟩
  · rfl
  · rfl
  · rw [hr] at h
    exact h

@[simp] theorem outcome_exhausted :
    Outcome stuck (exhausted : Run S ε α) s A E ↔ stuck := Iff.rfl

@[simp] theorem outcome_read {f : S → α} :
    Outcome stuck (read f : Run S ε α) s A E ↔ A (f s) s := Iff.rfl

@[simp] theorem outcome_step {f : S → α × S} :
    Outcome stuck (step f : Run S ε α) s A E ↔ A (f s).1 (f s).2 := Iff.rfl

/-- **One run after another**: what is asked of the second is asked of it where the first ends. -/
@[simp] theorem outcome_bind {k : α → Run S ε β} {B : β → S → Prop} :
    Outcome stuck (r >>= k) s B E ↔
      Outcome stuck r s (fun a s' => Outcome stuck (k a) s' B E) E := by
  change Outcome stuck (Run.bind r k) s B E ↔ _
  simp only [Outcome, Run.bind]
  rcases r s with _ | ⟨_ | _, s'⟩ <;> rfl

@[simp] theorem outcome_zoom {part : S → T} {put : T → S → S} {wrap : ε → ε'} {r : Run T ε α}
    {E : ε' → S → Prop} :
    Outcome stuck (zoom part put wrap r) s A E ↔
      Outcome stuck r (part s) (fun a t => A a (put t s)) (fun e t => E (wrap e) (put t s)) := by
  simp only [Outcome, zoom]
  rcases r (part s) with _ | ⟨_ | _, t⟩ <;> rfl

/-- **A run for each element**: `I rest` holds while the elements of `rest` are left. -/
theorem outcome_forEach {f : α → Run S ε Unit} (I : List α → S → Prop)
    (hstep : ∀ a rest s, I (a :: rest) s → Outcome stuck (f a) s (fun _ s' => I rest s') E) :
    ∀ {l : List α} {s : S}, I l s → Outcome stuck (forEach f l) s (fun _ s' => I [] s') E
  | [], _, hs => hs
  | a :: rest, s, hs => by
    change Outcome stuck (f a >>= fun _ => forEach f rest) s _ _
    rw [outcome_bind]
    exact (hstep a rest s hs).imp (fun _ _ h => outcome_forEach I hstep h) fun _ _ h => h

end Run

end Classpath

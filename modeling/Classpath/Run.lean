/-!
# Runs

A `Run` changes a state and ends with a value or an error; what it did before an error stays done. A
recursion that no measure bounds is given fuel, and a run that uses it up has no outcome at all.

* `Classpath.Run.exhausted` – the run without an outcome.
* `Classpath.Run.zoom` – a run on a part of a larger state.
-/

namespace Classpath

/-- A computation that changes a state of type `S` and may fail with an `ε`; `none` where its fuel
does not suffice. -/
def Run (S ε α : Type) : Type :=
  S → Option (Except ε α × S)

namespace Run

variable {S T ε ε' α β : Type}

/-- The run that changes nothing. -/
@[inline] protected def pure (a : α) : Run S ε α :=
  fun s => some (.ok a, s)

/-- One run after another; an error ends both. -/
@[inline] protected def bind (r : Run S ε α) (k : α → Run S ε β) : Run S ε β :=
  fun s =>
    match r s with
    | none => none
    | some (.error e, s) => some (.error e, s)
    | some (.ok a, s) => k a s

instance : Monad (Run S ε) where
  pure := Run.pure
  bind := Run.bind

/-- The run that fails. -/
def fail (e : ε) : Run S ε α :=
  fun s => some (.error e, s)

/-- The run whose fuel does not suffice. -/
def exhausted : Run S ε α :=
  fun _ => none

/-- What can be read off the state. -/
def read (f : S → α) : Run S ε α :=
  fun s => some (.ok (f s), s)

/-- A change of the state. -/
def change (f : S → S) : Run S ε Unit :=
  fun s => some (.ok (), f s)

/-- A step that never fails. -/
def step (f : S → α × S) : Run S ε α :=
  fun s =>
    let (a, s) := f s
    some (.ok a, s)

/-- A value or an error that is at hand. -/
def ofExcept (x : Except ε α) : Run S ε α :=
  fun s => some (x, s)

/-- A run on a part of a state, with its errors renamed. -/
def zoom (part : S → T) (put : T → S → S) (wrap : ε → ε') (r : Run T ε α) : Run S ε' α :=
  fun s =>
    match r (part s) with
    | none => none
    | some (x, t) => some (x.mapError wrap, put t s)

/-- A run for each element of a list, in order. -/
def forEach (f : α → Run S ε Unit) : List α → Run S ε Unit
  | [] => Run.pure ()
  | a :: rest => Run.bind (f a) fun _ => forEach f rest

end Run

end Classpath

import Mathlib.Data.Set.Finite.Basic
import Mathlib.Logic.Relation
import Mathlib.Order.WellFounded

/-!
# When recursions end

Resolving follows annotations, and with a small cache that does not end by itself. It ends where the
annotations have no cycle, since there are only finitely many classes; and then there is fuel enough
for all branches at once.

* `Classpath.acc_of_acyclic` – a relation without a cycle among finitely many.
* `Classpath.exists_bound` – a bound for all members of a list.
-/

namespace Classpath

open Relation

variable {α : Type}

/-- **Without a cycle every path ends**, if only finitely many are reached from `a`. -/
theorem acc_of_acyclic {r : α → α → Prop} {a : α} (hfinite : {b | ReflTransGen r a b}.Finite)
    (hacyclic : ∀ b, ReflTransGen r a b → ¬ TransGen r b b) : Acc (fun b a => r a b) a := by
  let Below (b c : {b // ReflTransGen r a b}) : Prop := TransGen r c.1 b.1
  have hreached : Finite {b // ReflTransGen r a b} := hfinite.to_subtype
  have htrans : IsTrans _ Below := ⟨fun _ _ _ h h' => h'.trans h⟩
  have hirrefl : Std.Irrefl Below := ⟨fun b => hacyclic b.1 b.2⟩
  have hwf : WellFounded Below := Finite.wellFounded_of_trans_of_irrefl Below
  exact hwf.induction (C := fun b => Acc (fun b a => r a b) b.1) ⟨a, .refl⟩
    fun b ih => Acc.intro b.1 fun c hc => ih ⟨c, b.2.tail hc⟩ (.single hc)

/-- Bounds for the members of a list have a common bound. -/
theorem exists_bound {P : α → Nat → Prop} : ∀ l : List α,
    (∀ a ∈ l, ∃ n, ∀ m, n ≤ m → P a m) → ∃ n, ∀ a ∈ l, ∀ m, n ≤ m → P a m
  | [], _ => ⟨0, by simp⟩
  | a :: rest, h => by
    obtain ⟨n, hn⟩ := h a (List.mem_cons_self ..)
    obtain ⟨n', hn'⟩ := exists_bound rest fun b hb => h b (List.mem_cons_of_mem _ hb)
    refine ⟨max n n', fun b hb m hm => ?_⟩
    rcases List.mem_cons.mp hb with rfl | hb
    · exact hn m (by omega)
    · exact hn' b hb m (by omega)

end Classpath

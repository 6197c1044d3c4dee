import Mathlib.Order.Basic
import Mathlib.Algebra.Order.Group.Nat

/-!
# Traces of runs

A run of steps emits values.  The state is carried along explicitly, so what a run emits
is a list by itself, and a fact about it is proved by one lemma about a step.
-/

namespace Trace

variable {σ α β : Type*}

/-- What a run of steps emits, in order. -/
def emitted (step : σ → α → σ) (emit : σ → α → List β) : σ → List α → List β
  | _, [] => []
  | s, a :: as => emit s a ++ emitted step emit (step s a) as

section Rules

variable {step : σ → α → σ} {emit : σ → α → List β} {s : σ}

/-- The invariant rule: a property of what was emitted and of the state, kept by every
step, holds after a run. -/
theorem invariant {P : List β → σ → Prop}
    (hstep : ∀ log s a, P log s → P (log ++ emit s a) (step s a)) (as : List α) {log : List β}
    (h : P log s) : P (log ++ emitted step emit s as) (as.foldl step s) := by
  induction as generalizing log s with
  | nil =>
    rw [emitted, List.append_nil]
    exact h
  | cons a as ih =>
    rw [emitted, ← List.append_assoc]
    exact ih (hstep log s a h)

/-- Values that every step emits in order, above a mark of the state that they lift, are
emitted in order by the run. -/
theorem pairwise {I : σ → Prop} {m : σ → ℕ} {k : β → ℕ} (hinv : ∀ s a, I s → I (step s a))
    (hmark : ∀ s a, I s → m s ≤ m (step s a)) (hsorted : ∀ s a, (emit s a).Pairwise (k · < k ·))
    (hemit : ∀ s a, I s → ∀ b ∈ emit s a, m s < k b ∧ k b ≤ m (step s a)) (as : List α) (h : I s) :
    (emitted step emit s as).Pairwise (k · < k ·) ∧ ∀ b ∈ emitted step emit s as, m s < k b := by
  induction as generalizing s with
  | nil => exact ⟨.nil, by simp [emitted]⟩
  | cons a as ih =>
    obtain ⟨hpairwise, habove⟩ := ih (hinv s a h)
    refine ⟨List.pairwise_append.mpr ⟨hsorted s a, hpairwise, fun b hb c hc => ?_⟩, ?_⟩
    · exact (hemit s a h b hb).2.trans_lt (habove c hc)
    · intro b hb
      rcases List.mem_append.mp hb with hb | hb
      · exact (hemit s a h b hb).1
      · exact (hmark s a h).trans_lt (habove b hb)

end Rules

end Trace

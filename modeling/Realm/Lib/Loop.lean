import Mathlib.Logic.Relation
import Mathlib.Order.Basic
import Mathlib.Algebra.Order.Group.Nat

/-!
# Loops of a partial step function

A loop is given by its body `next : σ → Option σ`: `some b` continues with the
state `b` and `none` leaves the loop in the state it was called on.  The rules
of this file are the usual ones: an invariant of the body holds in every state
the loop reaches, a measure that decreases under an invariant makes the loop
halt, and an invariant under which the body always continues makes it run
forever.
-/

namespace Loop

variable {σ : Type*} {next : σ → Option σ} {a b c : σ} {P : σ → Prop}

/-- The states a loop reaches by finitely many continuations of its body. -/
def Reaches (next : σ → Option σ) : σ → σ → Prop :=
  Relation.ReflTransGen fun a b => next a = some b

/-- The loop started in `a` leaves after finitely many continuations. -/
def Halts (next : σ → Option σ) (a : σ) : Prop :=
  ∃ b, Reaches next a b ∧ next b = none

theorem Reaches.refl (next : σ → Option σ) (a : σ) : Reaches next a a :=
  Relation.ReflTransGen.refl

theorem Reaches.head (h : next a = some b) (hbc : Reaches next b c) : Reaches next a c :=
  Relation.ReflTransGen.head h hbc

/-- An invariant of the body holds in every state the loop reaches. -/
theorem Reaches.invariant (hstep : ∀ a b, P a → next a = some b → P b) (h : Reaches next a b)
    (ha : P a) : P b := by
  induction h with
  | refl => exact ha
  | tail _ hbc ih => exact hstep _ _ ih hbc

theorem Halts.head (h : next a = some b) (hb : Halts next b) : Halts next a := by
  obtain ⟨c, hbc, hc⟩ := hb
  exact ⟨c, hbc.head h, hc⟩

theorem Halts.of_next_eq_none (h : next a = none) : Halts next a :=
  ⟨a, Reaches.refl next a, h⟩

/-- A natural measure that the body decreases under an invariant makes the loop
halt. -/
theorem halts_of_measure (μ : σ → ℕ) (hstep : ∀ a b, P a → next a = some b → P b ∧ μ b < μ a)
    (ha : P a) : Halts next a := by
  induction hn : μ a using Nat.strong_induction_on generalizing a with
  | _ n ih =>
    cases hnext : next a with
    | none => exact Halts.of_next_eq_none hnext
    | some b =>
      obtain ⟨hb, hlt⟩ := hstep a b ha hnext
      exact (ih (μ b) (hn ▸ hlt) hb rfl).head hnext

/-- A loop whose body continues from every state of an invariant runs forever. -/
theorem not_halts_of_invariant (hstep : ∀ a, P a → ∃ b, next a = some b ∧ P b) (ha : P a) :
    ¬ Halts next a := by
  rintro ⟨b, hab, hb⟩
  have hP : P b := hab.invariant (fun a b hPa h => by
    obtain ⟨b', hb', hPb'⟩ := hstep a hPa
    rw [h] at hb'
    cases hb'
    exact hPb') ha
  obtain ⟨c, hc, _⟩ := hstep b hP
  rw [hb] at hc
  cases hc

end Loop

import Mathlib.Data.List.Basic

/-!
# Codes that end themselves

A code ends itself if a text that starts with one tells which it is and where it ends.  Such
codes can be written one after the other.
-/

/-- What is written first, and what follows it, can be told from the text. -/
def Delimits {α β : Type} (code : α → List β) : Prop :=
  ∀ ⦃a b : α⦄ ⦃rest rest' : List β⦄, code a ++ rest = code b ++ rest' → a = b ∧ rest = rest'

namespace Delimits

open List

variable {α α' β γ : Type} {code : α → List β} {code' : α' → List β}

theorem pair (h : Delimits code) (h' : Delimits code') :
    Delimits fun p : α × α' => code p.1 ++ code' p.2 := by
  rintro ⟨a, a'⟩ ⟨b, b'⟩ rest rest' heq
  simp only [append_assoc] at heq
  obtain ⟨rfl, hrest⟩ := h heq
  obtain ⟨rfl, rfl⟩ := h' hrest
  exact ⟨rfl, rfl⟩

theorem append (h : Delimits code) (mark : List β) : Delimits fun a => code a ++ mark := by
  intro a b rest rest' heq
  simp only [append_assoc] at heq
  obtain ⟨rfl, hrest⟩ := h heq
  exact ⟨rfl, append_cancel_left hrest⟩

theorem flatMap (h : Delimits code) : ∀ {as bs : List α} {rest rest' : List β},
    as.length = bs.length → as.flatMap code ++ rest = bs.flatMap code ++ rest' →
    as = bs ∧ rest = rest'
  | [], [], _, _, _, heq => ⟨rfl, heq⟩
  | a :: as, b :: bs, _, _, hlength, heq => by
    simp only [flatMap_cons, append_assoc] at heq
    obtain ⟨rfl, htail⟩ := h heq
    obtain ⟨rfl, hrest⟩ := h.flatMap (Nat.succ.inj hlength) htail
    exact ⟨rfl, hrest⟩

theorem flatMap_injective (h : Delimits code) (hne : ∀ a, code a ≠ []) :
    Function.Injective fun as : List α => as.flatMap code := by
  intro as bs heq
  induction as generalizing bs with
  | nil =>
    cases bs with
    | nil => rfl
    | cons b => exact absurd (append_eq_nil_iff.mp heq.symm).1 (hne b)
  | cons a as ih =>
    cases bs with
    | nil => exact absurd (append_eq_nil_iff.mp heq).1 (hne a)
    | cons =>
      obtain ⟨rfl, htail⟩ := h heq
      rw [ih htail]

end Delimits

import Mathlib.Data.List.Basic
import Mathlib.Logic.Function.Iterate

/-!
# Timelines

A timeline is a present state between a bounded past and a future.  Recording a new
state moves the present into the past, forgets the oldest state when the past is
full, and drops the future.  Going back and going forward only move the present
along the tape of all remembered states, so a timeline is its tape and a position
on it.
-/

/-- A state with the states before it, the oldest first, and the states it was taken
back from, the nearest last. -/
@[ext]
structure Timeline (α : Type*) where
  past : List α
  now : α
  future : List α

namespace Timeline

open List

variable {α : Type*} {t : Timeline α} {depth : ℕ} {j : ℕ}

/-- Move to a new state and remember at most `depth` earlier ones. -/
def record (depth : ℕ) (t : Timeline α) (a : α) : Timeline α where
  past := if (t.past ++ [t.now]).length > depth then (t.past ++ [t.now]).drop 1
    else t.past ++ [t.now]
  now := a
  future := []

def back (t : Timeline α) : Timeline α :=
  match t.past.getLast? with
  | none => t
  | some prev => ⟨t.past.dropLast, prev, t.future ++ [t.now]⟩

def forward (t : Timeline α) : Timeline α :=
  match t.future.getLast? with
  | none => t
  | some next => ⟨t.past ++ [t.now], next, t.future.dropLast⟩

def tape (t : Timeline α) : List α := t.past ++ t.now :: t.future.reverse

/-! ## Moving along the tape -/

theorem eq_of_tape {u : Timeline α} (htape : t.tape = u.tape)
    (hlength : t.past.length = u.past.length) : t = u := by
  obtain ⟨hpast, hrest⟩ := append_inj htape hlength
  obtain ⟨hnow, hfuture⟩ := cons_eq_cons.mp hrest
  exact Timeline.ext hpast hnow (reverse_injective hfuture)

variable (t)

theorem now_eq_getElem? : t.tape[t.past.length]? = some t.now := by
  simp [tape]

@[simp]
theorem tape_back : t.back.tape = t.tape := by
  unfold back
  split
  · rfl
  · rename_i prev hprev
    obtain ⟨init, hinit⟩ := getLast?_eq_some_iff.mp hprev
    simp [tape, hinit]

@[simp]
theorem length_past_back : t.back.past.length = t.past.length - 1 := by
  unfold back
  split
  · rename_i hnone
    simp [getLast?_eq_none_iff.mp hnone]
  · simp

@[simp]
theorem tape_forward : t.forward.tape = t.tape := by
  unfold forward
  split
  · rfl
  · rename_i next hnext
    obtain ⟨init, hinit⟩ := getLast?_eq_some_iff.mp hnext
    simp [tape, hinit]

theorem length_past_forward :
    t.forward.past.length = min (t.past.length + 1) (t.tape.length - 1) := by
  unfold forward
  split
  · rename_i hnone
    simp [tape, getLast?_eq_none_iff.mp hnone]
  · rename_i next hnext
    obtain ⟨init, hinit⟩ := getLast?_eq_some_iff.mp hnext
    simp [tape, hinit]

@[simp]
theorem tape_iterate_back (j : ℕ) : (back^[j] t).tape = t.tape := by
  induction j with
  | zero => rfl
  | succ j ih => rw [Function.iterate_succ_apply', tape_back, ih]

@[simp]
theorem length_past_iterate_back (j : ℕ) : (back^[j] t).past.length = t.past.length - j := by
  induction j with
  | zero => rfl
  | succ j ih => rw [Function.iterate_succ_apply', length_past_back, ih, Nat.sub_sub]

@[simp]
theorem tape_iterate_forward (j : ℕ) : (forward^[j] t).tape = t.tape := by
  induction j with
  | zero => rfl
  | succ j ih => rw [Function.iterate_succ_apply', tape_forward, ih]

theorem length_past_iterate_forward (hj : t.past.length + j < t.tape.length) :
    (forward^[j] t).past.length = t.past.length + j := by
  induction j with
  | zero => rfl
  | succ j ih =>
    rw [Function.iterate_succ_apply', length_past_forward, ih (by omega), tape_iterate_forward]
    omega

theorem iterate_forward_iterate_back (hj : j ≤ t.past.length) : forward^[j] (back^[j] t) = t := by
  apply eq_of_tape
  · simp
  · have hlt : t.past.length < t.tape.length := by simp [tape]
    have hroom : (back^[j] t).past.length + j < (back^[j] t).tape.length := by
      rw [length_past_iterate_back, tape_iterate_back]
      omega
    rw [length_past_iterate_forward _ hroom, length_past_iterate_back]
    omega

theorem now_iterate_back (j : ℕ) :
    (t.past ++ [t.now])[t.past.length - j]? = some (back^[j] t).now := by
  have hnow := (back^[j] t).now_eq_getElem?
  rw [tape_iterate_back, length_past_iterate_back] at hnow
  have hlt : t.past.length - j < (t.past ++ [t.now]).length := by
    rw [length_append, length_singleton]
    omega
  have htape : t.tape = (t.past ++ [t.now]) ++ t.future.reverse := by simp [tape]
  rw [← hnow, htape, getElem?_append_left hlt]

/-! ## Recording -/

variable {t}

theorem past_record (ht : t.past.length ≤ depth) (a : α) :
    (t.record depth a).past = (t.past ++ [t.now]).drop (t.past.length + 1 - depth) := by
  unfold record
  simp only [length_append, length_singleton]
  split
  · rw [show t.past.length + 1 - depth = 1 by omega]
  · rw [show t.past.length + 1 - depth = 0 by omega, drop_zero]

theorem length_past_record (ht : t.past.length ≤ depth) (a : α) :
    (t.record depth a).past.length = min depth (t.past.length + 1) := by
  rw [past_record ht, length_drop, length_append, length_singleton]
  omega

/-- After any number of recordings the past and the present are the latest states of
all that were recorded. -/
theorem past_foldl_record (ht : t.past.length ≤ depth) (as : List α) :
    (as.foldl (record depth) t).past.length = min depth (t.past.length + as.length) ∧
      (as.foldl (record depth) t).past ++ [(as.foldl (record depth) t).now] =
        (t.past ++ t.now :: as).drop (t.past.length + as.length - depth) := by
  induction as generalizing t with
  | nil => simp [ht]
  | cons a as ih =>
    have hlength := length_past_record ht a
    obtain ⟨hpast, hstates⟩ := ih (t := t.record depth a) (by omega)
    rw [foldl_cons, hpast, hstates, hlength, past_record ht]
    refine ⟨by simp only [length_cons]; omega, ?_⟩
    have hsplit : t.past ++ t.now :: a :: as = (t.past ++ [t.now]) ++ (a :: as) := by simp
    have hnow : (t.record depth a).now = a := rfl
    have hdrop : (t.past ++ [t.now]).drop (t.past.length + 1 - depth) ++ (a :: as) =
        ((t.past ++ [t.now]) ++ (a :: as)).drop (t.past.length + 1 - depth) :=
      (drop_append_of_le_length (by simp)).symm
    rw [hsplit, hnow, hdrop, drop_drop]
    congr 1
    simp only [length_cons]
    omega

end Timeline

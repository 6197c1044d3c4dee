import Mathlib.Data.List.Basic

/-!
# Updates that reach the disk later

A value on disk and the updates still on their way to it, in the order in which they
were made.  A process sees all of them.  A power loss keeps some and drops the others;
a flush brings all of them to the disk.
-/

/-- A value on disk and the updates not yet there. -/
structure Writeback (σ U : Type) where
  saved : σ
  pending : List U

namespace Writeback

open List

variable {σ U : Type} (act : U → σ → σ)

def after (s : σ) (updates : List U) : σ := updates.foldl (fun s u => act u s) s

def current (w : Writeback σ U) : σ := after act w.saved w.pending

def push (w : Writeback σ U) (u : U) : Writeback σ U := { w with pending := w.pending ++ [u] }

def flush (w : Writeback σ U) : Writeback σ U := ⟨w.current act, []⟩

/-- A power loss may leave this value: some of the pending updates took place. -/
def Survives (w : Writeback σ U) (s : σ) : Prop :=
  ∃ kept, List.Sublist kept w.pending ∧ s = after act w.saved kept

variable {act} {w : Writeback σ U} {u : U} {s : σ}

theorem after_append (s : σ) (us : List U) (u : U) :
    after act s (us ++ [u]) = act u (after act s us) := by
  rw [after, foldl_append]
  rfl

@[simp] theorem current_push : (w.push u).current act = act u (w.current act) :=
  after_append w.saved w.pending u

@[simp] theorem current_flush : (w.flush act).current act = w.current act := rfl

theorem survives_current : w.Survives act (w.current act) := ⟨w.pending, .refl _, rfl⟩

theorem survives_saved : w.Survives act w.saved := ⟨[], nil_sublist _, rfl⟩

/-- One more update may take place or not, on top of whatever else survives. -/
theorem survives_push :
    (w.push u).Survives act s ↔ w.Survives act s ∨ ∃ t, w.Survives act t ∧ s = act u t := by
  constructor
  · rintro ⟨kept, hkept, rfl⟩
    obtain ⟨first, last, rfl, hfirst, hlast⟩ := sublist_append_iff.mp hkept
    rcases sublist_singleton.mp hlast with rfl | rfl
    · rw [append_nil]
      exact .inl ⟨first, hfirst, rfl⟩
    · exact .inr ⟨_, ⟨first, hfirst, rfl⟩, after_append w.saved first u⟩
  · rintro (⟨kept, hkept, rfl⟩ | ⟨_, ⟨kept, hkept, rfl⟩, rfl⟩)
    · exact ⟨kept, hkept.trans (sublist_append_left _ _), rfl⟩
    · exact ⟨kept ++ [u], hkept.append (.refl _), (after_append w.saved kept u).symm⟩

theorem survives_flush : (w.flush act).Survives act s ↔ s = w.current act := by
  constructor
  · rintro ⟨kept, hkept, rfl⟩
    rw [sublist_nil.mp hkept]
    rfl
  · rintro rfl
    exact survives_saved

end Writeback

import Mathlib.Order.Lattice
import Mathlib.Data.List.Pairwise

/-!
# Entries in the order of their rank

A collection maps entries, stops at one without an answer, keeps what they yield and
puts it in order with the highest rank first.
-/

namespace Ranking

open List

variable {α β : Type} {f : α → Option β} {l : List α} {κ : Type} {rank : α → κ} {x : α}

theorem mapM_cons_eq_some {a : α} {r : List β} :
    (a :: l).mapM f = some r ↔ ∃ b r', f a = some b ∧ l.mapM f = some r' ∧ r = b :: r' := by
  simp only [mapM_cons, Option.bind_eq_bind, Option.pure_def, Option.bind_eq_some_iff,
    Option.some_inj]
  constructor
  · rintro ⟨b, hb, r', hr', rfl⟩
    exact ⟨b, r', hb, hr', rfl⟩
  · rintro ⟨b, r', hb, hr', rfl⟩
    exact ⟨b, hb, r', hr', rfl⟩

theorem exists_mapM_eq_some : (∃ r, l.mapM f = some r) ↔ ∀ a ∈ l, ∃ b, f a = some b := by
  induction l with
  | nil => exact ⟨fun _ _ h => absurd h not_mem_nil, fun _ => ⟨[], rfl⟩⟩
  | cons a l ih =>
    simp only [mapM_cons_eq_some, forall_mem_cons, ← ih]
    constructor
    · rintro ⟨_, b, r', hb, hr', rfl⟩
      exact ⟨⟨b, hb⟩, r', hr'⟩
    · rintro ⟨⟨b, hb⟩, r', hr'⟩
      exact ⟨b :: r', b, r', hb, hr', rfl⟩

theorem filterMap_mapM {f : α → Option (Option β)} {r : List (Option β)} (h : l.mapM f = some r) :
    r.filterMap id = l.filterMap fun a => (f a).join := by
  induction l generalizing r with
  | nil =>
    cases h
    rfl
  | cons a l ih =>
    obtain ⟨b, r', hb, hr', rfl⟩ := mapM_cons_eq_some.mp h
    rw [filterMap_cons, filterMap_cons, ih hr', hb]
    rfl

/-- What lies beyond the two highest ranks has two entries above it. -/
theorem mem_drop_two [LinearOrder κ] (h : l.Pairwise fun a b => rank b < rank a) :
    x ∈ l.drop 2 ↔ x ∈ l ∧ ∃ a ∈ l, ∃ b ∈ l, a ≠ b ∧ rank x < rank a ∧ rank x < rank b := by
  match l, h with
  | [], _ => simp
  | [a], h => simp
  | a :: b :: rest, h =>
    obtain ⟨hfirst, hrest⟩ := pairwise_cons.mp h
    obtain ⟨hab, ha⟩ := forall_mem_cons.mp hfirst
    have hb := (pairwise_cons.mp hrest).1
    have hne : a ≠ b := fun heq => lt_irrefl _ (heq ▸ hab)
    constructor
    · intro hx
      have hx' : x ∈ rest := hx
      exact ⟨by simp [hx'], a, by simp, b, by simp, hne, ha x hx', hb x hx'⟩
    · rintro ⟨hx, y, hy, z, hz, hyz, hxy, hxz⟩
      -- nothing is above the first entry and only the first above the second
      have htop : ∀ w ∈ a :: b :: rest, rank w ≤ rank a := by
        rw [forall_mem_cons, forall_mem_cons]
        exact ⟨le_rfl, le_of_lt hab, fun w hw => le_of_lt (ha w hw)⟩
      have hsecond : ∀ w ∈ a :: b :: rest, rank b < rank w → w = a := by
        rw [forall_mem_cons, forall_mem_cons]
        exact ⟨fun _ => rfl, fun hlt => absurd hlt (lt_irrefl _),
          fun w hw hlt => absurd hlt (lt_asymm (hb w hw))⟩
      rcases mem_cons.mp hx with rfl | hx
      · exact absurd hxy (not_lt_of_ge (htop y hy))
      rcases mem_cons.mp hx with rfl | hx
      · exact absurd ((hsecond y hy hxy).trans (hsecond z hz hxz).symm) hyz
      · exact hx

end Ranking

import Mathlib.Data.List.AList

/-!
# Finite maps

Finite maps with one value type are association lists with distinct keys.  The
order of the entries carries no meaning.  The lemmas say what a lookup finds
after an insertion or an erasure, and in a map built from a list of pairs.
-/

abbrev Map (K V : Type) := AList fun _ : K => V

namespace Map

open List AList

theorem length_keys_le {K V : Type} {m m' : Map K V} (h : ∀ k, k ∈ m' → k ∈ m) :
    m'.keys.length ≤ m.keys.length :=
  (subperm_of_subset m'.keys_nodup fun k hk => h k hk).length_le

variable {K V : Type} [DecidableEq K] {m : Map K V} {k k' : K} {v v' : V} {P : Type}

theorem lookup_insert_eq (m : Map K V) (k k' : K) (v : V) :
    (m.insert k v).lookup k' = if k' = k then some v else m.lookup k' := by
  by_cases h : k' = k
  · subst h
    simp
  · rw [if_neg h, lookup_insert_ne h]

theorem lookup_erase_eq (m : Map K V) (k k' : K) :
    (m.erase k).lookup k' = if k' = k then none else m.lookup k' := by
  by_cases h : k' = k
  · subst h
    simp
  · rw [if_neg h, lookup_erase_ne h]

theorem lookup_insert_eq_some : (m.insert k v).lookup k' = some v' ↔
    k' = k ∧ v = v' ∨ k' ≠ k ∧ m.lookup k' = some v' := by
  rw [lookup_insert_eq]
  split <;> simp [*]

theorem lookup_erase_eq_some : (m.erase k).lookup k' = some v ↔ k' ≠ k ∧ m.lookup k' = some v := by
  rw [lookup_erase_eq]
  split <;> simp [*]

theorem ne_of_lookup (h : m.lookup k = none) (h' : m.lookup k' = some v) : k' ≠ k := by
  rintro rfl
  cases h.symm.trans h'

theorem mem_entries : ⟨k, v⟩ ∈ m.entries ↔ m.lookup k = some v :=
  mem_lookup_iff.symm

theorem mem_iff_lookup : k ∈ m ↔ ∃ v, m.lookup k = some v := by
  rw [← lookup_isSome, Option.isSome_iff_exists]

theorem lookup_foldl_insert (key : P → K) (value : P → V) (ps : List P)
    (hnodup : (ps.map key).Nodup) (m : Map K V) :
    (ps.foldl (fun m p => m.insert (key p) (value p)) m).lookup k = some v ↔
      (∃ p ∈ ps, key p = k ∧ value p = v) ∨ ((∀ p ∈ ps, key p ≠ k) ∧ m.lookup k = some v) := by
  induction ps generalizing m with
  | nil => simp
  | cons p ps ih =>
    rw [map_cons, nodup_cons] at hnodup
    rw [foldl_cons, ih hnodup.2, lookup_insert_eq]
    have hne : ∀ q ∈ ps, key q ≠ key p := by
      intro q hq heq
      exact hnodup.1 (heq ▸ mem_map_of_mem hq)
    simp only [mem_cons, exists_eq_or_imp, forall_eq_or_imp]
    grind

theorem mem_foldl_insert (key : P → K) (value : P → V) (ps : List P) (m : Map K V) :
    k ∈ ps.foldl (fun m p => m.insert (key p) (value p)) m ↔ (∃ p ∈ ps, key p = k) ∨ k ∈ m := by
  induction ps generalizing m with
  | nil => simp
  | cons p ps ih =>
    rw [foldl_cons, ih, mem_insert]
    simp only [mem_cons, exists_eq_or_imp]
    grind

theorem length_keys_insert_le (m : Map K V) (k : K) (v : V) :
    (m.insert k v).keys.length ≤ m.keys.length + 1 := by
  rw [keys_insert, length_cons]
  exact Nat.succ_le_succ (erase_sublist.length_le)

def mapValues (f : K → V → V) (m : Map K V) : Map K V where
  entries := m.entries.map fun e => ⟨e.1, f e.1 e.2⟩
  nodupKeys := by
    have hkeys : (m.entries.map fun e => (⟨e.1, f e.1 e.2⟩ : Sigma fun _ : K => V)).keys =
        m.entries.keys := by
      simp [List.keys, Function.comp_def]
    rw [List.NodupKeys, hkeys]
    exact m.nodupKeys

theorem lookup_mapValues (f : K → V → V) (m : Map K V) (k : K) :
    (mapValues f m).lookup k = (m.lookup k).map (f k) := by
  ext v
  rw [Option.map_eq_some_iff, ← mem_entries]
  simp only [mapValues, mem_map, Sigma.mk.injEq, ← mem_entries]
  constructor
  · rintro ⟨e, he, rfl, heq⟩
    exact ⟨e.2, he, eq_of_heq heq⟩
  · rintro ⟨v', hv', rfl⟩
    exact ⟨⟨k, v'⟩, hv', rfl, HEq.rfl⟩

end Map

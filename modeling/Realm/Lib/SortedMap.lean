import Mathlib.Order.Lattice
import Mathlib.Data.List.Nodup

/-!
# Maps kept in the order of their keys

A map from ordered keys is the list of its entries in increasing order of the
keys, so iterating over it meets the keys in order.
-/

/-- A finite map whose entries lie in increasing order of their keys. -/
structure SortedMap (K V : Type) [LinearOrder K] where
  entries : List (K × V)
  sorted : entries.Pairwise fun a b => a.1 < b.1

namespace SortedMap

open List

variable {K V : Type} [LinearOrder K] {m : SortedMap K V} {k : K} {v : V} {es : List (K × V)}
  {e : K × V}

theorem ext_entries {m' : SortedMap K V} (h : m.entries = m'.entries) : m = m' := by
  cases m
  cases m'
  congr

instance [DecidableEq V] : DecidableEq (SortedMap K V) := fun m m' =>
  decidable_of_iff (m.entries = m'.entries) ⟨ext_entries, fun h => h ▸ rfl⟩

def empty : SortedMap K V := ⟨[], List.Pairwise.nil⟩

def get (m : SortedMap K V) (k : K) : Option V :=
  (m.entries.find? fun e => e.1 = k).map (·.2)

def containsKey (m : SortedMap K V) (k : K) : Bool := (m.get k).isSome

/-- Put an entry in its place, replacing one with the same key. -/
def insertEntry (k : K) (v : V) : List (K × V) → List (K × V)
  | [] => [(k, v)]
  | e :: es =>
    if k < e.1 then (k, v) :: e :: es
    else if k = e.1 then (k, v) :: es
    else e :: insertEntry k v es

theorem mem_insertEntry (h : e ∈ insertEntry k v es) : e = (k, v) ∨ e ∈ es := by
  induction es with
  | nil => exact .inl (mem_singleton.mp h)
  | cons e' es ih =>
    rw [insertEntry] at h
    split_ifs at h with hlt heq
    · exact mem_cons.mp h
    · exact (mem_cons.mp h).imp_right (mem_cons_of_mem _)
    · rcases mem_cons.mp h with rfl | h
      · exact .inr mem_cons_self
      · exact (ih h).imp_right (mem_cons_of_mem _)

theorem self_mem_insertEntry (k : K) (v : V) (es : List (K × V)) : (k, v) ∈ insertEntry k v es := by
  induction es with
  | nil => exact mem_singleton_self _
  | cons e es ih =>
    rw [insertEntry]
    split_ifs
    · exact mem_cons_self
    · exact mem_cons_self
    · exact mem_cons_of_mem _ ih

theorem mem_insertEntry_of_mem (h : e ∈ es) (hkey : e.1 ≠ k) : e ∈ insertEntry k v es := by
  induction es with
  | nil => exact absurd h not_mem_nil
  | cons e' es ih =>
    rw [insertEntry]
    split_ifs with hlt heq
    · exact mem_cons_of_mem _ h
    · rcases mem_cons.mp h with rfl | h
      · exact absurd heq.symm hkey
      · exact mem_cons_of_mem _ h
    · rcases mem_cons.mp h with rfl | h
      · exact mem_cons_self
      · exact mem_cons_of_mem _ (ih h)

theorem pairwise_insertEntry (k : K) (v : V) (h : es.Pairwise fun a b => a.1 < b.1) :
    (insertEntry k v es).Pairwise fun a b => a.1 < b.1 := by
  induction es with
  | nil => exact pairwise_singleton _ _
  | cons e es ih =>
    obtain ⟨hhead, htail⟩ := pairwise_cons.mp h
    rw [insertEntry]
    split_ifs with hlt heq
    · refine pairwise_cons.mpr ⟨?_, h⟩
      intro e' he'
      rcases mem_cons.mp he' with rfl | he'
      · exact hlt
      · exact hlt.trans (hhead e' he')
    · refine pairwise_cons.mpr ⟨?_, htail⟩
      intro e' he'
      exact heq ▸ hhead e' he'
    · refine pairwise_cons.mpr ⟨?_, ih htail⟩
      intro e' he'
      rcases mem_insertEntry he' with rfl | he'
      · exact lt_of_le_of_ne (not_lt.mp hlt) (Ne.symm heq)
      · exact hhead e' he'

def insert (m : SortedMap K V) (k : K) (v : V) : SortedMap K V :=
  ⟨insertEntry k v m.entries, pairwise_insertEntry k v m.sorted⟩

theorem nodup_entries (m : SortedMap K V) : m.entries.Nodup := by
  apply m.sorted.imp
  rintro a b hlt rfl
  exact lt_irrefl _ hlt

/-- Two entries with one key are the same entry, since the keys increase strictly. -/
theorem eq_of_key_eq {e' : K × V} (he : e ∈ m.entries) (he' : e' ∈ m.entries) (h : e.1 = e'.1) :
    e = e' := by
  have hnodup : (m.entries.map Prod.fst).Nodup :=
    pairwise_map.mpr (m.sorted.imp fun hlt => ne_of_lt hlt)
  exact inj_on_of_nodup_map hnodup he he' h

theorem get_eq_some : m.get k = some v ↔ (k, v) ∈ m.entries := by
  rw [get, Option.map_eq_some_iff]
  constructor
  · rintro ⟨e, he, rfl⟩
    have hkey : e.1 = k := by simpa using find?_some he
    exact hkey ▸ mem_of_find?_eq_some he
  · intro hmem
    have hsome : (m.entries.find? fun e => e.1 = k).isSome := by
      rw [find?_isSome]
      exact ⟨(k, v), hmem, by simp⟩
    obtain ⟨e, he⟩ := Option.isSome_iff_exists.mp hsome
    have hkey : e.1 = k := by simpa using find?_some he
    refine ⟨e, he, ?_⟩
    rw [eq_of_key_eq (mem_of_find?_eq_some he) hmem hkey]

theorem mem_entries_insert : e ∈ (m.insert k v).entries ↔ e = (k, v) ∨ e ∈ m.entries ∧ e.1 ≠ k := by
  constructor
  · intro h
    by_cases hkey : e.1 = k
    · refine .inl (eq_of_key_eq (m := m.insert k v) h ?_ hkey)
      exact self_mem_insertEntry k v m.entries
    · exact (mem_insertEntry h).imp_right fun hmem => ⟨hmem, hkey⟩
  · rintro (rfl | ⟨hmem, hkey⟩)
    · exact self_mem_insertEntry k v m.entries
    · exact mem_insertEntry_of_mem hmem hkey

end SortedMap

import Mathlib.Data.List.Forall2

/-!
# Sequences of checks

A function that goes through checks in the error monad succeeds exactly when
every check does.  These equivalences turn a successful run of a `do` block into
the conjunction of its conditions.
-/

namespace Guard

open List

variable {ε α β : Type} {x : Except ε α} {f : α → Except ε β} {b : β} {a : α} {p : Prop} {e : ε}
  {l : List α} {l' : List β}

theorem bind_eq_ok : (x >>= f) = .ok b ↔ ∃ a, x = .ok a ∧ f a = .ok b := by
  cases x with
  | error | ok => simp [bind, Except.bind]

@[simp] theorem ok_bind (a : α) (f : α → Except ε β) : (Except.ok a >>= f) = f a := rfl

theorem pure_eq_ok {b : α} : (pure a : Except ε α) = .ok b ↔ a = b := by
  simp [pure, Except.pure]

theorem ite_error_eq_ok [Decidable p] {b : α} :
    (if p then .error e else x) = .ok b ↔ ¬ p ∧ x = .ok b := by
  by_cases hp : p <;> simp [hp]

theorem else_error_eq_ok [Decidable p] {b : α} :
    (if p then x else .error e) = .ok b ↔ p ∧ x = .ok b := by
  by_cases hp : p <;> simp [hp]

theorem exists_unit_eq_ok {x : Except ε Unit} : (∃ u, x = .ok u ∧ p) ↔ x = .ok () ∧ p :=
  ⟨fun ⟨_, h⟩ => h, fun h => ⟨(), h⟩⟩

theorem toOption_eq_some {e : Except ε α} : e.toOption = some a ↔ e = .ok a := by
  cases e <;> simp [Except.toOption]

theorem map_eq_ok {f : α → β} : x.map f = .ok b ↔ ∃ a, x = .ok a ∧ f a = b := by
  cases x with
  | error | ok => simp [Except.map]

theorem forM_eq_ok {f : α → Except ε PUnit} {u : PUnit} :
    forM l f = .ok u ↔ ∀ a ∈ l, f a = .ok () := by
  induction l with
  | nil => simp [pure, Except.pure]
  | cons a l ih =>
    rw [forM_cons, bind_eq_ok, forall_mem_cons, ← ih]
    exact exists_unit_eq_ok

theorem exists_of_mem_mapM (h : l.mapM f = .ok l') (hb : b ∈ l') : ∃ a ∈ l, f a = .ok b := by
  induction l generalizing l' with
  | nil =>
    rw [mapM_nil, pure_eq_ok] at h
    rw [← h] at hb
    exact absurd hb not_mem_nil
  | cons a l ih =>
    simp only [mapM_cons, bind_eq_ok, pure_eq_ok] at h
    obtain ⟨b', hb', l'', hl'', rfl⟩ := h
    rcases mem_cons.mp hb with rfl | hb
    · exact ⟨a, mem_cons_self, hb'⟩
    · obtain ⟨a', ha', hfa'⟩ := ih hl'' hb
      exact ⟨a', mem_cons_of_mem _ ha', hfa'⟩

theorem exists_mem_of_mapM (h : l.mapM f = .ok l') (ha : a ∈ l) : ∃ b ∈ l', f a = .ok b := by
  induction l generalizing l' with
  | nil => exact absurd ha not_mem_nil
  | cons a' l ih =>
    simp only [mapM_cons, bind_eq_ok, pure_eq_ok] at h
    obtain ⟨b', hb', l'', hl'', rfl⟩ := h
    rcases mem_cons.mp ha with rfl | ha
    · exact ⟨b', mem_cons_self, hb'⟩
    · obtain ⟨b, hb, hfb⟩ := ih hl'' ha
      exact ⟨b, mem_cons_of_mem _ hb, hfb⟩

/-- A relation that is reflexive and transitive and that every step of a fold
respects relates the ends of a fold that succeeds. -/
theorem foldlM_rel {R : β → β → Prop} (hrefl : ∀ b, R b b)
    (htrans : ∀ {a b c}, R a b → R b c → R a c) {f : β → α → Except ε β}
    (hstep : ∀ {b a b'}, f b a = .ok b' → R b b') {b' : β} (h : l.foldlM f b = .ok b') :
    R b b' := by
  induction l generalizing b with
  | nil =>
    rw [foldlM_nil, pure_eq_ok] at h
    exact h ▸ hrefl b
  | cons a l ih =>
    rw [foldlM_cons, bind_eq_ok] at h
    obtain ⟨c, hc, hl⟩ := h
    exact htrans (hstep hc) (ih hl)

/-- A fold that appends what it computes appends all of it, in order. -/
theorem foldlM_append_eq_ok {f : α → Except ε (List β)} {b b' : List β}
    (h : l.foldlM (fun b a => do return b ++ (← f a)) b = .ok b') :
    ∃ parts, List.Forall₂ (fun a part => f a = .ok part) l parts ∧ b' = b ++ parts.flatten := by
  induction l generalizing b with
  | nil =>
    rw [foldlM_nil, pure_eq_ok] at h
    exact ⟨[], .nil, by rw [h, flatten_nil, append_nil]⟩
  | cons a l ih =>
    simp only [foldlM_cons, bind_eq_ok, pure_eq_ok] at h
    obtain ⟨_, ⟨part, hpart, rfl⟩, hl⟩ := h
    obtain ⟨parts, hparts, rfl⟩ := ih hl
    exact ⟨part :: parts, .cons hpart hparts, by rw [flatten_cons, append_assoc]⟩

/-- A fold succeeds when every element is acceptable, if acceptance does not depend
on the state and the states keep an invariant. -/
theorem exists_foldlM_eq_ok {I : β → Prop} {accepts : α → Prop} {f : β → α → Except ε β}
    (haccepts : ∀ {b a}, I b → ((∃ b', f b a = .ok b') ↔ accepts a))
    (hinv : ∀ {b a b'}, I b → f b a = .ok b' → I b') (hb : I b) :
    (∃ b', l.foldlM f b = .ok b') ↔ ∀ a ∈ l, accepts a := by
  induction l generalizing b with
  | nil => simp [pure, Except.pure]
  | cons a l ih =>
    rw [forall_mem_cons, ← haccepts hb]
    simp only [foldlM_cons, bind_eq_ok]
    constructor
    · rintro ⟨b', c, hc, hl⟩
      exact ⟨⟨c, hc⟩, (ih (hinv hb hc)).mp ⟨b', hl⟩⟩
    · rintro ⟨⟨c, hc⟩, hl⟩
      obtain ⟨b', hb'⟩ := (ih (hinv hb hc)).mpr hl
      exact ⟨b', c, hc, hb'⟩

end Guard

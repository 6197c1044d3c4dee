import Mathlib.Algebra.Group.Nat.Even
import Mathlib.Data.List.Infix
import Mathlib.Data.List.TakeWhile

/-!
# Patterns in a text

A regular expression says which parts of a text match, between what stands before and behind
them.  A scan goes through a text once and stops at each place where a fixed text stands; it
finds all of them when they are far enough apart.  One that passes over an element behind each
stop misses every second of adjacent places.
-/

namespace Pattern

open List

variable {α : Type} {p : α → Bool} {l m k s : List α}

/-! ## Regular expressions -/

abbrev Regex (α : Type) := (before part after : List α) → Prop

def text (t : List α) : Regex α := fun _ m _ => m = t

def one (p : α → Bool) : Regex α := fun _ m _ => ∃ b, p b = true ∧ m = [b]

def atLeast (n : ℕ) (p : α → Bool) : Regex α := fun _ m _ => n ≤ m.length ∧ ∀ b ∈ m, p b = true

def atStart : Regex α := fun l m _ => l = [] ∧ m = []

def atEnd : Regex α := fun _ m k => k = [] ∧ m = []

def alt (rs : List (Regex α)) : Regex α := fun l m k => ∃ r ∈ rs, r l m k

def opt (r : Regex α) : Regex α := alt [r, text []]

def seq : List (Regex α) → Regex α
  | [] => text []
  | r :: rs => fun l m k => ∃ m₁ m₂, r l m₁ (m₂ ++ k) ∧ seq rs (l ++ m₁) m₂ k ∧ m = m₁ ++ m₂

/-- The search for a match is not anchored. -/
def Found (r : Regex α) (s : List α) : Prop := ∃ l m k, r l m k ∧ s = l ++ m ++ k

theorem opt_iff {r : Regex α} : opt r l m k ↔ r l m k ∨ m = [] := by
  simp [opt, alt, text]

theorem edge_left (h : alt [atStart, one p] l m k) : ∀ b ∈ (l ++ m).getLast?, p b = true := by
  simp only [alt, atStart, one, mem_cons, not_mem_nil, or_false, exists_eq_or_imp,
    exists_eq_left] at h
  rcases h with ⟨rfl, rfl⟩ | ⟨b, hb, rfl⟩
  · simp
  · simpa using hb

theorem exists_edge_left (h : ∀ b ∈ s.getLast?, p b = true) :
    ∃ l m, (∀ k, alt [atStart, one p] l m k) ∧ s = l ++ m := by
  rcases s.eq_nil_or_concat' with rfl | ⟨l, b, rfl⟩
  · exact ⟨[], [], fun _ => ⟨_, mem_cons_self, rfl, rfl⟩, rfl⟩
  · exact ⟨l, [b], fun _ => ⟨_, mem_cons_of_mem _ mem_cons_self, b, h b (by simp), rfl⟩, rfl⟩

theorem edge_right_iff (l : List α) :
    (∃ m k, alt [atEnd, one p] l m k ∧ s = m ++ k) ↔ ∀ b ∈ s.head?, p b = true := by
  simp only [alt, atEnd, one, mem_cons, not_mem_nil, or_false, exists_eq_or_imp, exists_eq_left]
  constructor
  · rintro ⟨m, k, ⟨rfl, rfl⟩ | ⟨b, hb, rfl⟩, rfl⟩
    · simp
    · simpa using hb
  · intro h
    cases s with
    | nil => exact ⟨[], [], .inl ⟨rfl, rfl⟩, rfl⟩
    | cons b k => exact ⟨[b], k, .inr ⟨b, h b rfl, rfl⟩, rfl⟩

/-! ## Scans -/

theorem span_eq_iff {run rest : List α} : s.span p = (run, rest) ↔
      s = run ++ rest ∧ (∀ b ∈ run, p b = true) ∧ ∀ b ∈ rest.head?, p b = false := by
  rw [span_eq_takeWhile_dropWhile, Prod.mk.injEq]
  constructor
  · rintro ⟨rfl, rfl⟩
    refine ⟨takeWhile_append_dropWhile.symm, fun b hb => mem_takeWhile_imp hb, fun b hb => ?_⟩
    rw [← find?_not_eq_head?_dropWhile] at hb
    simpa using find?_some hb
  · rintro ⟨rfl, hrun, hrest⟩
    rw [takeWhile_append_of_pos hrun, dropWhile_append_of_pos hrun]
    cases rest with
    | nil => simp
    | cons b rest => simp [hrest b rfl]

variable {gap skip : ℕ} {t : List α}

/-- Between two places of `t` there are at least `gap` elements. -/
def Apart (gap : ℕ) (t s : List α) : Prop :=
  ∀ i j, t <+: s.drop i → t <+: s.drop j → i < j → i + t.length + gap ≤ j

/-- A text of which no end is its beginning does not overlap itself. -/
theorem apart_of_borderless (h : ∀ d < t.length, 0 < d → ¬ t.drop d <+: t) (s : List α) :
    Apart 0 t s := by
  intro i j hi hj hij
  by_contra! hlt
  have hd : t.drop (j - i) <+: s.drop j := by
    have := hi.drop (j - i)
    rwa [drop_drop, Nat.add_sub_cancel' hij.le] at this
  exact h (j - i) (by omega) (by omega) (prefix_of_prefix_length_le hd hj (by simp))

/-- The text ends with `n` copies of `t`, and with no more. -/
def Trails (t : List α) (n : ℕ) (l : List α) : Prop :=
  ∃ l', ¬ t <:+ l' ∧ l = l' ++ (replicate n t).flatten

theorem exists_trails (ht : t ≠ []) (l : List α) : ∃ n, Trails t n l := by
  induction hn : l.length using Nat.strong_induction_on generalizing l with
  | _ length ih =>
    subst hn
    by_cases hend : t <:+ l
    · obtain ⟨l', rfl⟩ := hend
      have hpos := length_pos_iff.mpr ht
      obtain ⟨n, l'', hl'', hl⟩ := ih l'.length (by simp; omega) l' rfl
      exact ⟨n + 1, l'', hl'', by rw [hl, replicate_succ', flatten_append]; simp⟩
    · exact ⟨0, l, hend, by simp⟩

variable [DecidableEq α]

/-- What stands before the first place of `t`. -/
def before (t : List α) : List α → Option (List α)
  | [] => if t = [] then some [] else none
  | b :: s => if t <+: b :: s then some [] else (before t s).map (b :: ·)

theorem of_before {q : List α} (h : before t s = some q) : ∃ k, s = q ++ t ++ k := by
  fun_induction before t s generalizing q with
  | case1 => simp_all
  | case2 => cases h
  | case3 b s hstart =>
    cases h
    exact hstart.imp fun _ hk => hk.symm
  | case4 b s _ ih =>
    obtain ⟨q, hq, rfl⟩ := Option.map_eq_some_iff.mp h
    obtain ⟨k, rfl⟩ := ih hq
    exact ⟨k, by simp⟩

theorem before_of_start (h : t <+: s) : before t s = some [] := by
  cases s <;> simp_all [before]

theorem before_append {q : List α} (h : ∀ q', q' <:+ q → q' ≠ [] → ¬ t <+: q' ++ t ++ k) :
    before t (q ++ t ++ k) = some q := by
  induction q with
  | nil => exact before_of_start ⟨k, rfl⟩
  | cons b q ih =>
    have htail := ih fun q' hq' => h q' (hq'.trans (suffix_cons b q))
    have hfirst := h (b :: q) (suffix_refl _) (cons_ne_nil _ _)
    rw [cons_append, cons_append] at hfirst ⊢
    rw [before, if_neg hfirst, htail, Option.map_some]

/-- What stands behind each place of `t` at which a scan stops.  Behind a place it passes over
`gap` more, and over `skip` before it starts. -/
def behind (gap : ℕ) (t : List α) : ℕ → List α → List (List α)
  | _, [] => []
  | skip + 1, _ :: s => behind gap t skip s
  | 0, b :: s =>
    if t <+: b :: s then (b :: s).drop t.length :: behind gap t (t.length - 1 + gap) s
    else behind gap t 0 s

theorem of_mem_behind (h : k ∈ behind gap t skip s) : ∃ l, skip ≤ l.length ∧ s = l ++ t ++ k := by
  fun_induction behind gap t skip s with
  | case1 => cases h
  | case2 skip b s ih =>
    obtain ⟨l, hl, rfl⟩ := ih h
    exact ⟨b :: l, by simpa using hl, rfl⟩
  | case3 b s hstart ih =>
    rcases mem_cons.mp h with rfl | h
    · exact ⟨[], le_rfl, (prefix_iff_eq_append.mp hstart).symm⟩
    · obtain ⟨l, _, rfl⟩ := ih h
      exact ⟨b :: l, Nat.zero_le _, rfl⟩
  | case4 b s _ ih =>
    obtain ⟨l, _, rfl⟩ := ih h
    exact ⟨b :: l, Nat.zero_le _, rfl⟩

theorem notMem_behind (h : l.length < skip) : k ∉ behind gap t skip (l ++ t ++ k) := by
  intro hk
  obtain ⟨l', hl', heq⟩ := of_mem_behind hk
  rw [append_cancel_right (append_cancel_right heq)] at h
  exact absurd hl' (by omega)

theorem Apart.mem_behind (h : Apart gap t s) (ht : t ≠ []) {i : ℕ} (hi : t <+: s.drop i)
    (hskip : skip ≤ i) : s.drop (i + t.length) ∈ behind gap t skip s := by
  have hpos := length_pos_iff.mpr ht
  induction s generalizing i skip with
  | nil => exact absurd (by simpa using hi) ht
  | cons b s ih =>
    have htail : Apart gap t s := fun i j hi hj hij => by
      have := h (i + 1) (j + 1) hi hj (by omega)
      omega
    cases skip with
    | succ skip =>
      obtain ⟨i, rfl⟩ := Nat.exists_eq_add_of_le' (Nat.one_le_of_lt hskip)
      rw [behind, Nat.add_right_comm]
      exact ih htail hi (by omega)
    | zero =>
      rw [behind]
      cases i with
      | zero => simp [show t <+: b :: s from hi]
      | succ i =>
        rw [Nat.add_right_comm]
        split
        · rename_i hstart
          have := h 0 (i + 1) hstart hi (by omega)
          exact mem_cons_of_mem _ (ih htail hi (by omega))
        · exact ih htail hi (Nat.zero_le _)

/-- A scan that passes over one element stops at a place unless it stopped right before it. -/
theorem mem_behind_one (hborder : ∀ d < t.length, 0 < d → ¬ t.drop d <+: t) (ht : t ≠ [])
    (hskip : skip ≤ l.length) : k ∈ behind 1 t skip (l ++ t ++ k) ↔
      t ++ k ∉ behind 1 t skip (l ++ t ++ k) := by
  have hpos := length_pos_iff.mpr ht
  induction l generalizing skip with
  | nil =>
    obtain rfl : skip = 0 := Nat.le_zero.mp hskip
    have hfirst : k ∈ behind 1 t 0 (t ++ k) := by
      obtain ⟨b, t, rfl⟩ := exists_cons_of_ne_nil ht
      simp [behind]
    refine iff_of_true hfirst fun hmem => ?_
    obtain ⟨l, -, heq⟩ := of_mem_behind hmem
    have hlength := congrArg length heq
    simp only [length_append, length_nil] at hlength
    omega
  | cons b l ih =>
    cases skip with
    | succ skip => exact ih (by simpa using hskip)
    | zero =>
      rw [cons_append, cons_append, behind, Nat.sub_add_cancel hpos]
      split
      · -- the text in front begins with a copy too
        rename_i hstart
        have hle : t.length ≤ l.length + 1 := by
          have hapart := apart_of_borderless hborder (b :: (l ++ t ++ k)) 0 (l.length + 1) hstart
          simpa using hapart (by simp)
        obtain ⟨l', hl'⟩ := prefix_of_prefix_length_le hstart
          (prefix_append (b :: l) (t ++ k) |>.trans (by simp)) (by simpa using hle)
        have hdrop : (b :: (l ++ t ++ k)).drop t.length = l' ++ (t ++ k) := by
          rw [append_assoc, ← cons_append, ← hl', append_assoc, drop_left]
        have hk : k ≠ l' ++ (t ++ k) := fun heq => by
          have hlength := congrArg length heq
          simp only [length_append] at hlength
          omega
        rw [hdrop, mem_cons, mem_cons, not_or]
        by_cases hnil : l' = []
        · subst hnil
          have hlength := congrArg length hl'
          simp only [append_nil, length_cons] at hlength
          exact iff_of_false (not_or.mpr ⟨hk, notMem_behind (by omega)⟩) fun h => h.1 rfl
        · have hlength := congrArg length hl'
          have hpos' := length_pos_iff.mpr hnil
          simp only [length_append, length_cons] at hlength
          have hne : t ++ k ≠ l' ++ (t ++ k) := fun heq => hnil (append_left_eq_self.mp heq.symm)
          refine (or_iff_right hk).trans ((ih (show t.length ≤ l.length by omega)).trans ?_)
          exact (and_iff_right hne).symm
      · exact ih (Nat.zero_le _)

theorem mem_behind_iff_even (hborder : ∀ d < t.length, 0 < d → ¬ t.drop d <+: t) (ht : t ≠ [])
    {n : ℕ} (hl : Trails t n l) : k ∈ behind 1 t 0 (l ++ t ++ k) ↔ Even n := by
  rw [mem_behind_one hborder ht (Nat.zero_le _)]
  induction n generalizing l k with
  | zero =>
    obtain ⟨l', hend, rfl⟩ := hl
    refine iff_of_true (fun hmem => ?_) Even.zero
    obtain ⟨l, -, heq⟩ := of_mem_behind hmem
    rw [append_assoc] at heq
    exact hend ⟨l, by simpa using (append_cancel_right heq).symm⟩
  | succ n ih =>
    obtain ⟨l', hend, rfl⟩ := hl
    have hflatten : l' ++ (replicate (n + 1) t).flatten = l' ++ (replicate n t).flatten ++ t := by
      rw [replicate_succ', flatten_append]
      simp
    rw [hflatten, append_assoc _ t k, mem_behind_one hborder ht (Nat.zero_le _),
      ih ⟨l', hend, rfl⟩, Nat.even_add_one]

end Pattern

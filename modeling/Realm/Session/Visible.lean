import Realm.Session.State

/-!
# Visible texts

The titles and application ids a session shows are cut to a length in JSON.  The length of
a character is that of its escape, and the cut keeps as many characters as leave room for
the ellipsis.
-/

namespace Realm

open List

variable {cap : ℕ} {source : String}

def jsonEscape (c : Char) : List Char :=
  if c = '\x22' then ['\\', '\x22']
  else if c = '\\' then ['\\', '\\']
  else if c = '\x08' then ['\\', 'b']
  else if c = '\t' then ['\\', 't']
  else if c = '\n' then ['\\', 'n']
  else if c = '\x0c' then ['\\', 'f']
  else if c = '\r' then ['\\', 'r']
  else if c.toNat < 0x20 then
    ['\\', 'u', '0', '0', Nat.digitChar (c.toNat / 16), Nat.digitChar (c.toNat % 16)]
  else [c]

def escapedLength (text : List Char) : ℕ := ((text.flatMap jsonEscape).map Char.utf8Size).sum

theorem utf8Size_digitChar {n : ℕ} (h : n < 16) : (Nat.digitChar n).utf8Size = 1 := by
  revert n
  decide

/-- The table of the source gives the length of the escape. -/
theorem sum_utf8Size_jsonEscape (c : Char) :
    ((jsonEscape c).map Char.utf8Size).sum = jsonContentCharLen c := by
  have hval (d : Char) : c.val = d.val ↔ c = d := ⟨Char.ext, congrArg _⟩
  have htable : c.val ∈ [0x22, 0x5c, 0x08, 0x09, 0x0a, 0x0c, 0x0d] ↔ c = '\x22' ∨ c = '\\' ∨
      c = '\x08' ∨ c = '\t' ∨ c = '\n' ∨ c = '\x0c' ∨ c = '\r' := by
    simp only [mem_cons, not_mem_nil, or_false, ← hval]
    rfl
  have hcontrol : c.val ≤ 0x1f ↔ c.toNat < 0x20 := by
    rw [UInt32.le_iff_toNat_le]
    exact Nat.lt_succ_iff.symm
  by_cases h : c.val ∈ [0x22, 0x5c, 0x08, 0x09, 0x0a, 0x0c, 0x0d]
  · rw [jsonContentCharLen, if_pos h]
    rcases htable.mp h with rfl | rfl | rfl | rfl | rfl | rfl | rfl <;> decide
  · rw [jsonContentCharLen, if_neg h]
    simp only [htable, not_or] at h
    obtain ⟨h₁, h₂, h₃, h₄, h₅, h₆, h₇⟩ := h
    simp only [jsonEscape, if_neg h₁, if_neg h₂, if_neg h₃, if_neg h₄, if_neg h₅, if_neg h₆,
      if_neg h₇, hcontrol]
    split
    · have hhigh := utf8Size_digitChar (n := c.toNat / 16) (by omega)
      have hlow := utf8Size_digitChar (n := c.toNat % 16) (by omega)
      simp only [map_cons, map_nil, hhigh, hlow]
      decide
    · simp

theorem escapedLength_eq (text : List Char) :
    escapedLength text = (text.map jsonContentCharLen).sum := by
  induction text with
  | nil => rfl
  | cons c text ih =>
    simp only [escapedLength, flatMap_cons, map_append, sum_append, sum_utf8Size_jsonEscape] at ih ⊢
    rw [ih, map_cons, sum_cons]

theorem escapedLength_append (text rest : List Char) :
    escapedLength (text ++ rest) = escapedLength text + escapedLength rest := by
  simp [escapedLength_eq]

/-! ## The cut -/

theorem visiblePrefix_isPrefix (cap : ℕ) (text : List Char) (used : ℕ) :
    visiblePrefix cap text used <+: text := by
  induction text generalizing used with
  | nil => exact nil_prefix
  | cons c text ih =>
    rw [visiblePrefix]
    split
    · exact nil_prefix
    · exact cons_prefix_cons.mpr ⟨rfl, ih _⟩

theorem visiblePrefix_room (used : ℕ) (text : List Char) (h : used + 3 ≤ cap) :
    used + escapedLength (visiblePrefix cap text used) + 3 ≤ cap := by
  rw [escapedLength_eq]
  induction text generalizing used with
  | nil => exact h
  | cons c text ih =>
    rw [visiblePrefix]
    split
    · exact h
    · rename_i hfits
      have hnext := ih _ (not_lt.mp hfits)
      rw [map_cons, sum_cons]
      omega

theorem visiblePrefix_longest {used : ℕ} {text start : List Char} (h : start <+: text)
    (hroom : used + escapedLength start + 3 ≤ cap) : start <+: visiblePrefix cap text used := by
  rw [escapedLength_eq] at hroom
  induction text generalizing used start with
  | nil => exact h
  | cons c text ih =>
    cases start with
    | nil => exact nil_prefix
    | cons d start =>
      obtain ⟨rfl, hstart⟩ := cons_prefix_cons.mp h
      rw [map_cons, sum_cons] at hroom
      have hfits : ¬ used + jsonContentCharLen d + '…'.utf8Size > cap := by
        have hwidth : '…'.utf8Size = 3 := rfl
        omega
      rw [visiblePrefix]
      rw [if_neg hfits]
      exact cons_prefix_cons.mpr ⟨rfl, ih hstart (by omega)⟩

theorem normalizeVisible_of_le (h : escapedLength source.toList ≤ cap) :
    normalizeVisible source cap = source := by
  rw [normalizeVisible, if_pos (escapedLength_eq _ ▸ h)]

theorem toList_normalizeVisible (h : cap < escapedLength source.toList) :
    (normalizeVisible source cap).toList = visiblePrefix cap source.toList 0 ++ ['…'] := by
  rw [normalizeVisible, if_neg (escapedLength_eq _ ▸ not_le.mpr h), String.toList_ofList]

theorem escapedLength_normalizeVisible (source : String) (hcap : 3 ≤ cap) :
    escapedLength (normalizeVisible source cap).toList ≤ cap := by
  rcases Nat.lt_or_ge cap (escapedLength source.toList) with h | h
  · have hroom := visiblePrefix_room 0 source.toList (by omega : 0 + 3 ≤ cap)
    have hellipsis : escapedLength ['…'] = 3 := by decide
    rw [toList_normalizeVisible h, escapedLength_append, hellipsis]
    omega
  · rwa [normalizeVisible_of_le h]

/-- A visible text keeps within its cap, is the text itself exactly when that does, and else
the longest start that leaves room for the ellipsis; cutting it again changes nothing. -/
theorem normalizeVisible_spec (source : String) {cap : ℕ} (hcap : 3 ≤ cap) :
    escapedLength (normalizeVisible source cap).toList ≤ cap ∧
    (normalizeVisible source cap = source ↔ escapedLength source.toList ≤ cap) ∧
    (cap < escapedLength source.toList → ∃ kept,
      (normalizeVisible source cap).toList = kept ++ ['…'] ∧ kept <+: source.toList ∧
      escapedLength kept + escapedLength ['…'] ≤ cap ∧
      ∀ start, start <+: source.toList → escapedLength start + escapedLength ['…'] ≤ cap →
        start <+: kept) ∧
    normalizeVisible (normalizeVisible source cap) cap = normalizeVisible source cap := by
  have hellipsis : escapedLength ['…'] = 3 := by decide
  have hbound := escapedLength_normalizeVisible source hcap
  refine ⟨hbound, ⟨fun h => h ▸ hbound, normalizeVisible_of_le⟩, fun h => ?_,
    normalizeVisible_of_le hbound⟩
  refine ⟨_, toList_normalizeVisible h, visiblePrefix_isPrefix _ _ _, ?_, fun start hstart hroom =>
    visiblePrefix_longest hstart (by omega)⟩
  have hroom := visiblePrefix_room 0 source.toList (by omega : 0 + 3 ≤ cap)
  omega

theorem normalizeVisible_spec_short : escapedLength (normalizeVisible "abcdef" 5).toList ≤ 5 ∧
    normalizeVisible (normalizeVisible "abcdef" 5) 5 = normalizeVisible "abcdef" 5 :=
  ⟨(normalizeVisible_spec "abcdef" (by decide)).1,
    (normalizeVisible_spec "abcdef" (by decide)).2.2.2⟩

end Realm

import Realm.Lib.Loop
import Realm.Bar.Fit

/-!
# The collapse ladder of the bar

`FitContract` is what the row promises: the fit loop leaves, it leaves only
when the row fits or nothing is left to drop, and it drops in the documented
order.  The order holds in every run.  Leaving the loop does not: with a chord
echo and a title, the pass that removes the title is followed by one that puts
the shortest elision back, so a row that fits with neither of them alternates
forever and no module is ever dropped.  `fitContract_iff` says for exactly
which inputs the contract holds.
-/

namespace Realm.Bar

open List

variable {text : String} {k : ℕ} {probe : Probe}

theorem sanitizeWith_eq_empty {covers : Char → Bool} :
    sanitizeWith text covers = "" ↔ text = "" := by
  rw [← String.toList_inj, ← String.toList_inj]
  simp [sanitizeWith]

theorem middleElide_of_length_le (h : text.toList.length ≤ k) :
    middleElide text k probe = text := by
  simp only [middleElide, if_pos h]

theorem length_middleElide (probe : Probe) (h : k < text.toList.length) :
    (middleElide text k probe).toList.length = k + 1 := by
  simp only [middleElide, if_neg (Nat.not_le.mpr h), String.toList_ofList, length_append,
    length_take, length_cons, length_drop]
  omega

theorem middleElide_ne_empty (h : text ≠ "") : middleElide text k probe ≠ "" := by
  by_cases hk : text.toList.length ≤ k
  · rwa [middleElide_of_length_le hk]
  · intro hempty
    have hlen := length_middleElide probe (Nat.not_le.mp hk)
    rw [hempty] at hlen
    simp at hlen

/-- Between the shortest elision and an elision equal to it, every elision is
the shortest one. -/
theorem middleElide_eq_of_le {j m : ℕ} (hjk : j ≤ k) (hkm : k ≤ m)
    (h : middleElide text m probe = middleElide text j probe) :
    middleElide text k probe = middleElide text j probe := by
  by_cases hj : text.toList.length ≤ j
  · rw [middleElide_of_length_le hj, middleElide_of_length_le (hj.trans hjk)]
  have hjlen := length_middleElide probe (Nat.not_le.mp hj)
  rw [← h] at hjlen
  by_cases hm : text.toList.length ≤ m
  · by_cases hk : text.toList.length ≤ k
    · rw [← h, middleElide_of_length_le hk, middleElide_of_length_le hm]
    · rw [middleElide_of_length_le hm] at hjlen
      have : k = j := by omega
      rw [this]
  · rw [length_middleElide probe (Nat.not_le.mp hm)] at hjlen
    have : k = j := by omega
    rw [this]

namespace FitInput

variable {i : FitInput} {s t : FitState}

/-- The row fits the width with this title while everything else is shown. -/
def rowFits (i : FitInput) (title : String) : Bool :=
  i.fits { i.start with title := title }

/-- Nothing is left to drop: the title is at its shortest or removed, it stands
alone in the centre, and no droppable module, label or logo text is shown. -/
def Exhausted (i : FitInput) (s : FitState) : Prop :=
  (s.title = i.minimumTitle ∨ s.title = "") ∧ (i.chord = "" ∨ s.title = "") ∧
    (∀ id ∈ droppable, s.shows id = false) ∧
    s.showLayoutLabel = false ∧ s.showLogoText = false

/-- What one continuing pass of the loop does, with the guards it passed. -/
inductive Pass (i : FitInput) (s : FitState) : FitState → Prop
  | elide (title : s.title ≠ i.minimumTitle) :
      Pass i s { s with
        titleKeep := max (s.titleKeep - 1) 8
        title := middleElide i.fullTitle (max (s.titleKeep - 1) 8) i.probe }
  | clearTitle (title : s.title = i.minimumTitle) (chord : i.chord ≠ "")
      (shown : s.title ≠ "") : Pass i s { s with title := "" }
  | dropModule {id : String} (title : s.title = i.minimumTitle)
      (alone : i.chord = "" ∨ s.title = "") (first : droppable.find? s.shows = some id) :
      Pass i s { s with
        visibleModules := s.visibleModules.filter fun m => m.id ≠ id
        droppedModules := s.droppedModules ++ [id] }
  | dropLabel (title : s.title = i.minimumTitle) (alone : i.chord = "" ∨ s.title = "")
      (modules : ∀ id ∈ droppable, s.shows id = false) (label : s.showLayoutLabel = true) :
      Pass i s { s with showLayoutLabel := false }
  | dropLogo (title : s.title = i.minimumTitle) (alone : i.chord = "" ∨ s.title = "")
      (modules : ∀ id ∈ droppable, s.shows id = false) (label : s.showLayoutLabel = false)
      (logo : s.showLogoText = true) : Pass i s { s with showLogoText := false }

theorem pass_of_next (h : i.next s = some t) : i.fits s = false ∧ i.Pass s t := by
  unfold next at h
  split at h
  · cases h
  rename_i hfits
  refine ⟨by simpa using hfits, ?_⟩
  split at h
  · rename_i htitle
    cases h
    exact .elide htitle
  rename_i htitle
  split at h
  · rename_i hclear
    cases h
    exact .clearTitle (not_not.mp htitle) hclear.1 hclear.2
  rename_i hclear
  have halone : i.chord = "" ∨ s.title = "" := by tauto
  split at h
  · rename_i id hid
    cases h
    exact .dropModule (not_not.mp htitle) halone hid
  rename_i hid
  have hmodules : ∀ id ∈ droppable, s.shows id = false := by simpa using hid
  split at h
  · rename_i hlabel
    cases h
    exact .dropLabel (not_not.mp htitle) halone hmodules hlabel
  rename_i hlabel
  split at h
  · rename_i hlogo
    cases h
    exact .dropLogo (not_not.mp htitle) halone hmodules (by simpa using hlabel) hlogo
  · cases h

theorem next_eq_elide (hfits : i.fits s = false) (htitle : s.title ≠ i.minimumTitle) :
    i.next s = some { s with
      titleKeep := max (s.titleKeep - 1) 8
      title := middleElide i.fullTitle (max (s.titleKeep - 1) 8) i.probe } := by
  rw [next, if_neg (by simp [hfits]), if_pos htitle]

theorem next_eq_clearTitle (hfits : i.fits s = false) (htitle : s.title = i.minimumTitle)
    (hchord : i.chord ≠ "") (hshown : s.title ≠ "") : i.next s = some { s with title := "" } := by
  rw [next, if_neg (by simp [hfits]), if_neg (not_not.mpr htitle), if_pos ⟨hchord, hshown⟩]

/-- The loop leaves only when the row fits or nothing is left to drop. -/
theorem fits_or_exhausted (h : i.next s = none) : i.fits s = true ∨ i.Exhausted s := by
  unfold next at h
  split at h
  · rename_i hfits
    exact .inl hfits
  refine .inr ?_
  split at h
  · cases h
  rename_i htitle
  split at h
  · cases h
  rename_i hclear
  split at h
  · cases h
  rename_i hid
  split at h
  · cases h
  rename_i hlabel
  split at h
  · cases h
  rename_i hlogo
  exact ⟨.inl (not_not.mp htitle), by tauto, by simpa using hid, by simpa using hlabel,
    by simpa using hlogo⟩

/-! ## Leaving the loop -/

/-- The title is the elision the loop last asked for. -/
def Elided (i : FitInput) (s : FitState) : Prop :=
  s.title = middleElide i.fullTitle s.titleKeep i.probe ∧
    (8 ≤ s.titleKeep ∨ i.fullTitle.toList.length ≤ s.titleKeep)

theorem elided_start (i : FitInput) : i.Elided i.start :=
  ⟨(middleElide_of_length_le le_rfl).symm, .inr le_rfl⟩

theorem elided_elide (i : FitInput) (s : FitState) : i.Elided { s with
      titleKeep := max (s.titleKeep - 1) 8
      title := middleElide i.fullTitle (max (s.titleKeep - 1) 8) i.probe } :=
  ⟨rfl, .inl (le_max_right _ _)⟩

theorem Elided.lt_titleKeep (h : i.Elided s) (hne : s.title ≠ i.minimumTitle) :
    8 < s.titleKeep := by
  by_contra hle
  apply hne
  rw [h.1, minimumTitle]
  rcases h.2 with h8 | hlen
  · rw [show s.titleKeep = 8 by omega]
  · rw [middleElide_of_length_le hlen, middleElide_of_length_le (by omega)]

/-- Without a chord echo, or without a title, every pass shortens the title or
drops something for good. -/
theorem halts_of_alone (h : i.chord = "" ∨ i.fullTitle = "") : Loop.Halts i.next i.start := by
  refine Loop.halts_of_measure (P := i.Elided)
    (fun s => s.titleKeep + s.visibleModules.length + s.showLayoutLabel.toNat +
      s.showLogoText.toNat) ?_ (elided_start i)
  intro s t hs hst
  obtain ⟨-, hpass⟩ := pass_of_next hst
  cases hpass with
  | elide title =>
    have := hs.lt_titleKeep title
    exact ⟨elided_elide i s, by simp only; omega⟩
  | clearTitle title chord shown =>
    have hfull : i.fullTitle = "" := h.resolve_left chord
    rw [hs.1, hfull, middleElide_of_length_le (by simp)] at shown
    exact absurd rfl shown
  | @dropModule id title alone first =>
    have hshown := find?_some first
    obtain ⟨m, hm, hid⟩ := any_eq_true.mp hshown
    refine ⟨hs, ?_⟩
    have hlt : (s.visibleModules.filter fun m => decide (m.id ≠ id)).length <
        s.visibleModules.length :=
      length_filter_lt_length_iff_exists.mpr ⟨m, hm, by simpa using hid⟩
    simp only
    omega
  | dropLabel title alone modules label => exact ⟨hs, by simp [label]⟩
  | dropLogo title alone modules label logo => exact ⟨hs, by simp [logo]⟩

/-- Every module, the layout label and the logo text are still shown. -/
def Untouched (i : FitInput) (s : FitState) : Prop :=
  s.visibleModules = i.state.modules ∧ s.showLayoutLabel = true ∧ s.showLogoText = true

theorem untouched_start (i : FitInput) : i.Untouched i.start := ⟨rfl, rfl, rfl⟩

theorem Untouched.fits_eq (h : i.Untouched s) : i.fits s = i.rowFits s.title := by
  have : i.rowWidth s = i.rowWidth { i.start with title := s.title } := by
    simp only [rowWidth, start, h.1, h.2.1, h.2.2]
  simp only [rowFits, fits, this]

/-- When some elision fits, or the row without a title does, the loop meets it
before it drops anything. -/
theorem halts_of_rowFits (h : i.rowFits "" = true ∨
      ∃ k, 8 ≤ k ∧ i.rowFits (middleElide i.fullTitle k i.probe) = true) :
    Loop.Halts i.next i.start := by
  by_cases halone : i.chord = "" ∨ i.fullTitle = ""
  · exact halts_of_alone halone
  by_cases hfits : i.fits i.start = true
  · exact Loop.Halts.of_next_eq_none (by simp [next, hfits])
  -- The elision that fits is one of those the loop still goes through.
  let P : FitState → Prop := fun s => i.Untouched s ∧
    ((i.Elided s ∧ (i.rowFits "" = true ∨ ∃ k, 8 ≤ k ∧ k ≤ s.titleKeep ∧
        i.rowFits (middleElide i.fullTitle k i.probe) = true)) ∨
      (s.title = "" ∧ i.rowFits "" = true))
  refine Loop.halts_of_measure (P := P)
    (fun s => s.titleKeep + if s.title = "" then 0 else 1) ?_ ?_
  · rintro s t ⟨hu, hs⟩ hst
    obtain ⟨hnofit, hpass⟩ := pass_of_next hst
    rw [hu.fits_eq] at hnofit
    rcases hs with ⟨he, hrow⟩ | ⟨htitle, hrow⟩
    · have hmin : s.title = i.minimumTitle → i.rowFits "" = true := by
        intro hmin
        rcases hrow with hrow | ⟨k, hk, hkeep, hrow⟩
        · exact hrow
        · rw [middleElide_eq_of_le hk hkeep (he.1.symm.trans hmin), ← minimumTitle, ← hmin,
            hnofit] at hrow
          cases hrow
      cases hpass with
      | elide title =>
        have hkeep := he.lt_titleKeep title
        have hfull : i.fullTitle ≠ "" := fun h => halone (.inr h)
        refine ⟨⟨hu, .inl ⟨elided_elide i s, hrow.imp id ?_⟩⟩, ?_⟩
        · rintro ⟨k, hk, hle, hrow⟩
          have : k ≠ s.titleKeep := by
            rintro rfl
            rw [← he.1, hnofit] at hrow
            cases hrow
          exact ⟨k, hk, by simp only; omega, hrow⟩
        · have htitle : s.title ≠ "" := he.1 ▸ middleElide_ne_empty hfull
          simp only [middleElide_ne_empty hfull, htitle, if_false]
          omega
      | clearTitle title chord shown =>
        exact ⟨⟨hu, .inr ⟨rfl, hmin title⟩⟩, by simp [shown]⟩
      | dropModule title alone _ | dropLabel title alone _ _ | dropLogo title alone _ _ _ =>
        rcases alone with hchord | hempty
        · exact absurd (.inl hchord) halone
        · rw [hempty, hmin title] at hnofit
          cases hnofit
    · rw [htitle, hrow] at hnofit
      cases hnofit
  · refine ⟨untouched_start i, .inl ⟨elided_start i, h.imp id ?_⟩⟩
    rintro ⟨k, hk, hrow⟩
    refine ⟨k, hk, ?_, hrow⟩
    by_contra hlt
    rw [middleElide_of_length_le (by simp only [start] at hlt; omega)] at hrow
    exact hfits hrow

/-- With a chord echo and a title, a row that no elision and no removal of the
title makes fit never leaves the loop: the passes alternate between the removed
title and the shortest elision. -/
theorem not_halts_of_rowFits_eq_false (hchord : i.chord ≠ "") (htitle : i.fullTitle ≠ "")
    (hempty : i.rowFits "" = false)
    (hrow : ∀ k, 8 ≤ k → i.rowFits (middleElide i.fullTitle k i.probe) = false) :
    ¬ Loop.Halts i.next i.start := by
  let P : FitState → Prop := fun s => i.Untouched s ∧
    (s.title = "" ∨ ∃ k, 8 ≤ k ∧ s.title = middleElide i.fullTitle k i.probe)
  refine Loop.not_halts_of_invariant (P := P) ?_ ⟨untouched_start i, .inr ?_⟩
  · rintro s ⟨hu, hs⟩
    have hnofit : i.fits s = false := by
      rw [hu.fits_eq]
      rcases hs with h | ⟨k, hk, h⟩
      · rw [h, hempty]
      · rw [h, hrow k hk]
    by_cases hmin : s.title = i.minimumTitle
    · have hshown : s.title ≠ "" := hmin ▸ middleElide_ne_empty htitle
      exact ⟨_, next_eq_clearTitle hnofit hmin hchord hshown, hu, .inl rfl⟩
    · exact ⟨_, next_eq_elide hnofit hmin, hu, .inr ⟨_, le_max_right _ _, rfl⟩⟩
  · exact ⟨max i.fullTitle.toList.length 8, le_max_right _ _,
      (middleElide_of_length_le (le_max_left _ _)).symm⟩

/-! ## The order of dropping -/

/-- The droppable modules of an initial segment of the ladder are gone, and only
those were dropped; labels go last. -/
def Descended (s : FitState) : Prop :=
  (∃ n, s.droppedModules.Sublist (droppable.take n) ∧
    ∀ id ∈ droppable.take n, s.shows id = false) ∧
  (s.showLayoutLabel = false ∨ s.showLogoText = false → ∀ id ∈ droppable, s.shows id = false)

theorem shows_filter_of_shows_eq_false {id id' : String} (h : s.shows id = false) : ({ s with
        visibleModules := s.visibleModules.filter fun m => m.id ≠ id'
        droppedModules := s.droppedModules ++ [id'] } : FitState).shows id = false := by
  simp only [FitState.shows, any_eq_false, mem_filter] at h ⊢
  exact fun m hm => h m hm.1

theorem descended_of_pass (hs : Descended s) (h : i.Pass s t) : Descended t := by
  obtain ⟨⟨n, hsub, hgone⟩, hlabels⟩ := hs
  cases h with
  | elide | clearTitle => exact ⟨⟨n, hsub, hgone⟩, hlabels⟩
  | @dropModule id _ _ first =>
    obtain ⟨hshown, before, after, hsplit, hbefore⟩ := find?_eq_some_iff_append.mp first
    have hbefore : ∀ id ∈ before, s.shows id = false := by simpa using hbefore
    have hmem : id ∈ droppable := by simp [hsplit]
    -- The module found is not among the first `n`, so those come before it.
    have hn : n ≤ before.length := by
      by_contra hlt
      have : id ∈ droppable.take n := by
        rw [hsplit, take_append, mem_append]
        exact .inr (by rw [show n - before.length = n - before.length - 1 + 1 by omega]; simp)
      rw [hgone id this] at hshown
      cases hshown
    have htake : droppable.take (before.length + 1) = before ++ [id] := by
      rw [hsplit, take_append, take_of_length_le (by omega)]
      simp
    refine ⟨⟨before.length + 1, ?_, ?_⟩, ?_⟩
    · rw [htake]
      refine Sublist.append (hsub.trans ?_) (Sublist.refl _)
      rw [hsplit, take_append_of_le_length hn]
      exact take_sublist n before
    · rw [htake]
      intro id' hid'
      rcases mem_append.mp hid' with hid' | hid'
      · exact shows_filter_of_shows_eq_false (hbefore id' hid')
      · simp only [mem_singleton] at hid'
        simp [FitState.shows, hid']
    · intro hdropped
      rw [hlabels hdropped id hmem] at hshown
      cases hshown
  | dropLabel _ _ modules _ | dropLogo _ _ modules _ _ => exact ⟨⟨n, hsub, hgone⟩, fun _ => modules⟩

theorem descended_of_reaches (h : Loop.Reaches i.next i.start s) : Descended s := by
  refine h.invariant (fun a b ha hab => descended_of_pass ha (pass_of_next hab).2) ?_
  exact ⟨⟨0, by simp [start], by simp⟩, by simp [start]⟩

/-- A pass that changes the modules drops one droppable module, and the title is
at its shortest elision or removed. -/
theorem dropModule_of_ne (h : i.Pass s t) (hne : t.visibleModules ≠ s.visibleModules) :
    (s.title = i.minimumTitle ∨ s.title = "") ∧
      ∃ id ∈ droppable, t.droppedModules = s.droppedModules ++ [id] ∧
        t.visibleModules = s.visibleModules.filter fun m => m.id ≠ id := by
  cases h with
  | dropModule title _ first => exact ⟨.inl title, _, mem_of_find?_eq_some first, rfl, rfl⟩
  | elide | clearTitle | dropLabel | dropLogo => exact absurd rfl hne

/-! ## The contract -/

/-- What the collapse ladder promises for one frame. -/
structure FitContract (i : FitInput) : Prop where
  /-- The loop leaves after finitely many passes. -/
  halts : Loop.Halts i.next i.start
  /-- It leaves only with a row that fits or with nothing left to drop. -/
  exit : ∀ s, Loop.Reaches i.next i.start s → i.next s = none →
    i.fits s = true ∨ i.Exhausted s
  /-- Modules are dropped in ladder order: those before a dropped one are gone. -/
  order : ∀ s, Loop.Reaches i.next i.start s → ∃ n,
    s.droppedModules.Sublist (droppable.take n) ∧ ∀ id ∈ droppable.take n, s.shows id = false
  /-- Modules are dropped one at a time, once the title cannot be shortened. -/
  modules : ∀ s t, Loop.Reaches i.next i.start s → i.next s = some t →
    t.visibleModules ≠ s.visibleModules →
    (s.title = i.minimumTitle ∨ s.title = "") ∧
      ∃ id ∈ droppable, t.droppedModules = s.droppedModules ++ [id] ∧
        t.visibleModules = s.visibleModules.filter fun m => m.id ≠ id
  /-- The layout label and the logo text are dropped after every module. -/
  labels : ∀ s, Loop.Reaches i.next i.start s →
    s.showLayoutLabel = false ∨ s.showLogoText = false →
    ∀ id ∈ droppable, s.shows id = false

theorem fitContract_of_halts (h : Loop.Halts i.next i.start) : i.FitContract where
  halts := h
  exit _ _ hnone := fits_or_exhausted hnone
  order _ hs := (descended_of_reaches hs).1
  modules _ _ _ hst hne := dropModule_of_ne (pass_of_next hst).2 hne
  labels _ hs := (descended_of_reaches hs).2

/-- The fit loop keeps its contract exactly on the frames that have no chord
echo, no focused title, or a row that fits with every module and label once the
title is elided far enough or removed. -/
theorem fitContract_iff (i : FitInput) :
    i.FitContract ↔
      i.state.chordEcho = "" ∨ i.state.focusedTitle = "" ∨ i.rowFits "" = true ∨
        ∃ k, 8 ≤ k ∧ i.rowFits (middleElide i.fullTitle k i.probe) = true := by
  constructor
  · intro h
    by_contra hcon
    simp only [not_or, not_exists, not_and, Bool.not_eq_true] at hcon
    obtain ⟨hchord, htitle, hempty, hrow⟩ := hcon
    refine not_halts_of_rowFits_eq_false ?_ ?_ hempty hrow h.halts
    · exact fun h => hchord (sanitizeWith_eq_empty.mp h)
    · exact fun h => htitle (sanitizeWith_eq_empty.mp h)
  · rintro (hchord | htitle | hrow)
    · exact fitContract_of_halts (halts_of_alone (.inl (sanitizeWith_eq_empty.mpr hchord)))
    · exact fitContract_of_halts (halts_of_alone (.inr (sanitizeWith_eq_empty.mpr htitle)))
    · exact fitContract_of_halts (halts_of_rowFits hrow)

/-- A frame 320 pixels wide with a pending chord and a focused title, drawn with
a font of eight pixels a character. -/
def narrowFrame : FitInput where
  text := ⟨fun text _ _ => 8 * text.length, fun text _ _ => 8 * text.length⟩
  state := { RealmState.default with
    focusedTitle := "shell"
    chordEcho := "mod+ ▸ awaiting chord…"
    modules := [⟨"cpu", "cpu 31%", none, false⟩] }
  typography := ⟨400, 500, 13, 11⟩
  probe := ⟨[], []⟩
  width := 320
  covers := fun _ => true

/-- The left part of the narrow frame alone is wider than the frame. -/
theorem narrowFrame_rowFits (title : String) : narrowFrame.rowFits title = false := by
  have hleft : narrowFrame.width < narrowFrame.leftWidth true true := by decide +kernel
  have hwidth : narrowFrame.width < 2 ^ 32 - 1 := by decide
  simp only [rowFits, fits, rowWidth, saturatingAdd, start, decide_eq_false_iff_not]
  omega

/-- On the narrow frame the loop never leaves, although its module could still
be dropped. -/
theorem narrowFrame_not_fitContract : ¬ narrowFrame.FitContract := by
  intro h
  refine not_halts_of_rowFits_eq_false ?_ ?_ (narrowFrame_rowFits _)
    (fun _ _ => narrowFrame_rowFits _) h.halts
  · exact fun h => absurd (sanitizeWith_eq_empty.mp h) (by decide)
  · exact fun h => absurd (sanitizeWith_eq_empty.mp h) (by decide)

end FitInput

end Realm.Bar

import Realm.River.Moves

/-!
# When a render sequence is answered

A render sequence places the windows of the projection in force.  It is answered
exactly when each of them is still bound; a window that is closed is bound no more.
-/

namespace Realm

open River

namespace RiverBackend

variable {b b' : RiverBackend}

theorem exists_placed_eq_ok (hb : b.Linked) {win : WinId} :
    (∃ found, b.placed win = .ok found) ↔ win ∈ b.realmIds := by
  constructor
  · rintro ⟨found, hfound⟩
    obtain ⟨bid, hbid, -⟩ := Option.bind_eq_some_iff.mp (placed_eq_ok hfound).1
    exact AList.lookup_isSome.mp (by rw [hbid]; rfl)
  · intro hwin
    obtain ⟨bid, hbid⟩ := Option.isSome_iff_exists.mp (AList.lookup_isSome.mpr hwin)
    obtain ⟨id, w, hid, hw, -⟩ := hb.realm win bid hbid
    exact ⟨(id, w), by simp [placed, objectOf, hbid, hid, hw]⟩

theorem Repaints.realmIds (h : Repaints b b') : b'.realmIds = b.realmIds := h.sameBindings.realmIds

theorem exists_renderPlacement_eq_ok {state : RiverBackend × CorrectionMap}
    (hb : state.1.Linked) {allowCorrection raise : Bool} {p : Placement} :
    (∃ state', renderPlacement allowCorrection raise state p = .ok state') ↔
      p.win ∈ state.1.realmIds := by
  rw [← exists_placed_eq_ok hb]
  unfold renderPlacement
  simp only [Guard.bind_eq_ok]
  constructor
  · rintro ⟨state', found, hfound, -⟩
    exact ⟨found, hfound⟩
  · rintro ⟨found, hfound⟩
    exact ⟨_, found, hfound, rfl⟩

theorem exists_applyRenderResponse_eq_ok (hb : b.Linked) (allowCorrection : Bool)
    {projection : Option (List Placement)} :
    (∃ result, b.applyRenderResponse projection allowCorrection = .ok result) ↔
      ∀ p ∈ projection.getD [], p.win ∈ b.realmIds := by
  cases projection with
  | none => simp [applyRenderResponse]
  | some projection =>
    have hhide := b.repaints_hideUnplaced (projection.map (·.win))
    refine Guard.exists_foldlM_eq_ok
      (I := fun state : RiverBackend × CorrectionMap =>
        state.1.Linked ∧ state.1.realmIds = b.realmIds) ?_ ?_
      ⟨hhide.sameBindings.linked hb, hhide.realmIds⟩
    · rintro state p ⟨hlinked, hids⟩
      rw [exists_renderPlacement_eq_ok hlinked, hids]
    · rintro state p state' ⟨hlinked, hids⟩ h
      have hpaint := repaints_renderPlacement h
      exact ⟨hpaint.sameBindings.linked hlinked, hpaint.realmIds.trans hids⟩

theorem renderFinish_of_repaints (hb : b.Sound) (h : Repaints b b') :
    b'.renderFinish = .ok { b'.send .renderFinish with flushPending := true } := by
  have hmanager : b'.windowManager ≠ none := by
    obtain ⟨⟨_, _, _, _, _, _, _, rfl⟩, -, -, -⟩ := h
    exact Option.isSome_iff_ne_none.mp hb.windowManager
  rw [renderFinish, if_neg hmanager]

theorem Repaints.within (h : Repaints b b') (hb : b.Within) : b'.Within := by
  obtain ⟨⟨_, _, _, _, _, _, _, rfl⟩, -, -, -⟩ := h
  exact hb

/-- A render sequence that does not overtake the end of the last one is answered
exactly when every window of the projection in force is bound. -/
theorem exists_renderStart_eq_ok (hb : b.Sound)
    (hstage : ∀ pending, b.pendingResponse = some pending → pending.stage ≠ .flushingRender) :
    (∃ b', b.renderStart = .ok b') ↔ ∀ p ∈ b.projectionInForce.getD [], p.win ∈ b.realmIds := by
  unfold renderStart
  split
  · rw [← exists_applyRenderResponse_eq_ok hb.linked false]
    simp only [Guard.bind_eq_ok]
    constructor
    · rintro ⟨b', result, hresult, -⟩
      exact ⟨result, hresult⟩
    · rintro ⟨result, hresult⟩
      have hpaint := repaints_applyRenderResponse hresult
      exact ⟨_, result, hresult, _, renderFinish_of_repaints hb hpaint,
        validatePolicyCapacity_eq_ok.mpr ⟨rfl, hpaint.within hb.within⟩⟩
  rename_i pending hpending
  split
  · rw [← exists_applyRenderResponse_eq_ok hb.linked true]
    simp only [Guard.bind_eq_ok]
    constructor
    · rintro ⟨b', result, hresult, -⟩
      exact ⟨result, hresult⟩
    · rintro ⟨result, hresult⟩
      exact ⟨_, result, hresult, renderFinish_of_repaints hb (repaints_applyRenderResponse hresult)⟩
  · rename_i hawait
    rw [← exists_applyRenderResponse_eq_ok hb.linked (!pending.correctionRound)]
    simp only [Guard.bind_eq_ok, renderResponse]
    constructor
    · rintro ⟨b', c, ⟨result, hresult, -⟩, -⟩
      exact ⟨result, hresult⟩
    · rintro ⟨result, hresult⟩
      have hpaint := repaints_applyRenderResponse hresult
      by_cases hkeys : result.2.keys = []
      · exact ⟨_, _, ⟨result, hresult, _, renderFinish_of_repaints hb hpaint, if_pos hkeys⟩,
          validatePolicyCapacity_eq_ok.mpr ⟨rfl, hpaint.within hb.within⟩⟩
      · exact ⟨_, _, ⟨result, hresult, _, renderFinish_of_repaints hb hpaint, if_neg hkeys⟩,
          validatePolicyCapacity_eq_ok.mpr ⟨rfl, hpaint.within hb.within⟩⟩
  · exact absurd ‹_› (hstage pending hpending)

end RiverBackend

end Realm

import Realm.Core.Extent
import Realm.River.Sequence
import Realm.Session.LastProjection

/-!
# The geometry of responses

A session derives its responses without a look at the limits of the backend.  River refuses
a response with an empty rectangle, or with more closes and placements than one sequence may
stage.  A response passes both checks exactly when the tiles have room for the layout and the
closes and the windows shown fit together.
-/

namespace Realm

open List

/-- The response passes the checks of River for its size and geometry. -/
structure BackendPolicyResponse.Sized (response : BackendPolicyResponse) : Prop where
  size : response.closes.length + (response.projection.getD []).length ≤ maxStagedEffects
  geometry : ∀ p ∈ response.projection.getD [], p.rect.Solid

theorem RiverBackend.respondPolicyTurn_of_not_sized {response : BackendPolicyResponse}
    (h : ¬ response.Sized) (b : RiverBackend) (turn : BackendPolicyTurnId)
    (ticket : BackendTicket) :
    ∃ error, b.respondPolicyTurn turn ticket response = b.fail error := by
  unfold respondPolicyTurn
  simp only
  split
  · exact ⟨_, rfl⟩
  split
  · exact ⟨_, rfl⟩
  split
  · exact ⟨_, rfl⟩
  split
  · exact ⟨_, rfl⟩
  split
  · exact ⟨_, rfl⟩
  · rename_i hsize _ _ hwell
    refine absurd ⟨not_lt.mp hsize, fun p hp => ?_⟩ h
    simp only [wellFormedResponse, Bool.not_eq_true', Bool.not_eq_false, Bool.and_eq_true,
      all_eq_true, decide_eq_true_eq] at hwell
    exact hwell.1.1.1.1 p hp

namespace ActiveTransaction

/-- The number of windows to place, if a projection is due. -/
def shown (active : ActiveTransaction) : ℕ :=
  if active.projectionRequired then
    (active.working.workarea.map active.working.ledger.activeOrbit.shown).getD 0
  else 0

/-- The tiles have room for the layout of the active orbit, if a projection is due, and one
sequence has room for the closes and the windows shown. -/
structure HasRoom (active : ActiveTransaction) : Prop where
  tiles : active.projectionRequired = true → ∀ area ∈ active.working.workarea,
    active.working.ledger.activeOrbit.HasRoom area
  staged : active.response.closes.length + active.shown ≤ maxStagedEffects

/-- The outputs have pixels and the sizes are those of River, and so is the number of
windows. -/
structure Reported (active : ActiveTransaction) : Prop where
  windows : active.working.ledger.activeOrbit.windows.length ≤ 256
  output : ∀ area ∈ active.working.workarea, area.output.Solid
  width : ∀ area ∈ active.working.workarea, area.tiles.w < 2 ^ 31
  height : ∀ area ∈ active.working.workarea, area.tiles.h < 2 ^ 31

theorem Reported.visible {active : ActiveTransaction} (h : active.Reported) :
    active.working.ledger.activeOrbit.visible.length ≤ 256 :=
  (length_filter_le _ _).trans h.windows

end ActiveTransaction

namespace Session

variable {B : Type} {s : Session B} {active : ActiveTransaction} {area : Workarea}

/-- The exclusive surface changes the focus of the placements and not their rectangles. -/
theorem map_rect_projectAuthority {a : AuthorityState} (h : a.workarea = some area) :
    (projectAuthority a).map (·.rect) =
      (project f32 a.ledger.activeOrbit area (TriptychParams.default f32)).map (·.rect) := by
  simp only [projectAuthority, h]
  split
  · rw [map_map]
    rfl
  · rfl

/-- The projection of a known workarea has pixels exactly when there is room, and then
places the windows shown. -/
theorem solid_projectAuthority_iff (h : active.Reported)
    (harea : active.working.workarea = some area) :
    ((∀ p ∈ projectAuthority active.working, p.rect.Solid) ↔
        active.working.ledger.activeOrbit.HasRoom area) ∧
      (active.working.ledger.activeOrbit.HasRoom area → (projectAuthority active.working).length =
          active.working.ledger.activeOrbit.shown area) := by
  have hrects := map_rect_projectAuthority harea
  have hsolid := project_solid_iff h.visible (h.width area harea) (h.output area harea)
    (h.height area harea)
  constructor
  · rw [← hsolid, ← forall_mem_map (f := Placement.rect) (P := Rect.Solid), hrects,
      forall_mem_map]
    rfl
  · intro hroom
    rw [← length_map Placement.rect, hrects, length_map]
    exact length_project h.visible (h.width area harea) hroom

variable [WmBackend B]

/-- The response to a turn passes the checks of River for its size and geometry exactly
when there is room for it; otherwise River refuses it. -/
theorem response_sized_iff {turn : BackendPolicyTurn} {backend : B} (hs : Reachable s)
    (hreduce : s.reduceTurn turn.events = (.ok active, backend)) (h : active.Reported) :
    ((s.deriveResponse active).response.Sized ↔ active.HasRoom) ∧
      (¬ active.HasRoom → ∀ (b : RiverBackend) (ticket : BackendTicket), ∃ error,
        b.respondPolicyTurn turn.id ticket (s.deriveResponse active).response = b.fail error) := by
  have htracks := hs.clean.reduceTurn hreduce
  have hprojection := deriveResponse_projection htracks s
  have hsized : (s.deriveResponse active).response.Sized ↔ active.HasRoom := by
    have hcloses : (s.deriveResponse active).response.closes = active.response.closes := rfl
    cases hrequired : active.projectionRequired with
    | false =>
      have hshown : active.shown = 0 := by simp [ActiveTransaction.shown, hrequired]
      rw [hrequired] at hprojection
      constructor
      · intro hsized
        have hsize := hsized.size
        rw [hprojection, hcloses] at hsize
        exact ⟨by simp [hrequired], hshown ▸ hsize⟩
      · intro hroom
        have hstaged := hroom.staged
        rw [hshown] at hstaged
        exact ⟨by rw [hprojection, hcloses]; exact hstaged, by simp [hprojection]⟩
    | true =>
      obtain ⟨area, harea⟩ := Option.isSome_iff_exists.mp (htracks.required hrequired)
      obtain ⟨hsolid, hlength⟩ := solid_projectAuthority_iff h harea
      have hshown : active.shown = active.working.ledger.activeOrbit.shown area := by
        simp [ActiveTransaction.shown, hrequired, harea]
      rw [hrequired] at hprojection
      constructor
      · intro hsized
        have hsize := hsized.size
        have hgeometry := hsized.geometry
        rw [hprojection] at hsize hgeometry
        have hroom := hsolid.mp hgeometry
        refine ⟨fun _ area' harea' => ?_, ?_⟩
        · cases harea.symm.trans harea'
          exact hroom
        · rw [hshown, ← hlength hroom]
          exact hsize
      · intro hroom
        have htiles := hroom.tiles hrequired area harea
        have hstaged := hroom.staged
        rw [hshown, ← hlength htiles] at hstaged
        exact ⟨by rw [hprojection]; exact hstaged, by rw [hprojection]; exact hsolid.mpr htiles⟩
  exact ⟨hsized, fun hroom b ticket =>
    b.respondPolicyTurn_of_not_sized (mt hsized.mp hroom) turn.id ticket⟩

/-- The replay turn of two windows. -/
def pairTurn : BackendPolicyTurn where
  id := firstTurn
  drains := none
  events := [.windowOpened term1 "foot" "shell", .windowOpened term2 "foot" "shell",
    .initialReplayComplete]

/-- The turn that reports tiles of this width on an output. -/
def tilesTurn (w : ℤ) : BackendPolicyTurn where
  id := secondTurn
  drains := none
  events := [.workareaChanged ⟨⟨0, 0, 1920, 1080⟩, ⟨0, 0, w, 1080⟩⟩]

/-- Two windows side by side. -/
theorem response_sized_pair : ∃ (s : Session PromptBackend) (active : ActiveTransaction),
    s.reduceTurn (tilesTurn 2).events = (.ok active, ⟨⟩) ∧ active.shown = 2 ∧
      (s.deriveResponse active).response.Sized := by
  have hconnect : ∃ s active, connect PromptBackend.mk none Keymap.default = .ok s ∧
      (s.step (.backendEvent (.policyTurn pairTurn))).reduceTurn (tilesTurn 2).events =
        (.ok active, ⟨⟩) ∧ active.shown = 2 ∧ active.working.ledger.activeOrbit.windows.length = 2 ∧
      active.working.ledger.activeOrbit.layout = .triptych ∧
      active.working.ledger.activeOrbit.visible.length = 2 ∧
      active.working.workarea = some ⟨⟨0, 0, 1920, 1080⟩, ⟨0, 0, 2, 1080⟩⟩ ∧
      active.response.closes = [] :=
    ⟨_, _, rfl, rfl, by decide +kernel, by decide +kernel, by decide +kernel, by decide +kernel,
      by decide +kernel, by decide +kernel⟩
  obtain ⟨s, active, hs, hreduce, hshown, hwindows, hlayout, hvisible, harea, hcloses⟩ := hconnect
  refine ⟨_, active, hreduce, hshown, (response_sized_iff ((Reachable.connect hs).step _) hreduce
    ⟨?_, ?_, ?_, ?_⟩).1.mpr ⟨fun _ => ?_, ?_⟩⟩
  · omega
  · simp [harea, Rect.Solid]
  · simp [harea]
  · simp [harea]
  · simp [harea, Orbit.HasRoom, hlayout, hvisible, Layout.HasRoom]
  · simp [hcloses, hshown, maxStagedEffects]

/-- Tiles one pixel wide leave no pixel for the master of two windows. -/
theorem response_empty_master : ∃ (s : Session PromptBackend) (active : ActiveTransaction),
    Reachable s ∧ s.validatePolicyTurn (tilesTurn 1) = .ok () ∧
      s.reduceTurn (tilesTurn 1).events = (.ok active, ⟨⟩) ∧
      active.working.workarea = some ⟨⟨0, 0, 1920, 1080⟩, ⟨0, 0, 1, 1080⟩⟩ ∧
      ∃ p ∈ (s.deriveResponse active).response.projection.getD [], p.rect.w = 0 := by
  have hconnect : ∃ s active, connect PromptBackend.mk none Keymap.default = .ok s ∧
      (s.step (.backendEvent (.policyTurn pairTurn))).validatePolicyTurn (tilesTurn 1) = .ok () ∧
      (s.step (.backendEvent (.policyTurn pairTurn))).reduceTurn (tilesTurn 1).events =
        (.ok active, ⟨⟩) ∧
      active.working.workarea = some ⟨⟨0, 0, 1920, 1080⟩, ⟨0, 0, 1, 1080⟩⟩ ∧
      ∃ p ∈ ((s.step (.backendEvent (.policyTurn pairTurn))).deriveResponse
        active).response.projection.getD [], p.rect.w = 0 :=
    ⟨_, _, rfl, by decide +kernel, rfl, by decide +kernel, by decide +kernel⟩
  obtain ⟨s, active, hs, hturn, hreduce, harea, hempty⟩ := hconnect
  exact ⟨_, active, (Reachable.connect hs).step _, hturn, hreduce, harea, hempty⟩

end Session

end Realm

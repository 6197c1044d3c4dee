import Realm.River.Turns
import Realm.Runtime.Known

/-!
# Turns that validate

A turn is validated event by event against running totals.  The totals are determined
by the facts before an event: the identities known there, the text so far and the
effects so far.  So a turn validates when it has the shape of its phase, each fact is
permitted where it stands, and there is room for the windows and effects it adds.
-/

namespace Realm

open River Guard List BackendPolicyEvent RiverBackend

namespace BackendPolicyEvent

def reference : BackendPolicyEvent → Option BackendWindowId
  | .windowClosed id | .titleChanged id _ | .focusChanged (some id) | .geometryDrifted id _ =>
    some id
  | _ => none

def opens : BackendPolicyEvent → Bool
  | .windowOpened .. => true
  | _ => false

def isFocus : BackendPolicyEvent → Bool
  | .focusChanged _ => true
  | _ => false

def isExclusive : BackendPolicyEvent → Bool
  | .exclusiveFocusChanged _ => true
  | _ => false

/-- The facts that may stand in the initial replay. -/
def replays : BackendPolicyEvent → Bool
  | .windowOpened .. | .focusChanged _ | .exclusiveFocusChanged _ | .initialReplayComplete => true
  | _ => false

end BackendPolicyEvent

namespace Session

variable {B : Type} {s s' : Session B} {known : Finset BackendWindowId} {event : BackendPolicyEvent}
  {events opens : List BackendPolicyEvent} {replay : Bool} {c : TurnCheck}

/-! ## Permitted facts -/

/-- A fact may stand where the identities given are known. -/
def Permits (s : Session B) (known : Finset BackendWindowId) : BackendPolicyEvent → Prop
  | .windowClosed id | .titleChanged id _ | .focusChanged (some id) | .geometryDrifted id _ =>
    id ∈ known
  | .bindingPressed id | .bindingReleased id | .bindingRepeatStopped id =>
    id ∈ s.bindings ∧ s.phase = .live
  | .unboundKeyEaten => s.phase = .live
  | .modifiersChanged old new => canonicalModifiers old = true ∧ canonicalModifiers new = true
  | _ => True

theorem Permits.reference
    {id : BackendWindowId} (h : s.Permits known event) (hid : event.reference = some id) :
    id ∈ known := by
  cases event with
  | windowClosed _ | titleChanged _ _ | geometryDrifted _ _ =>
    cases hid
    exact h
  | focusChanged focus =>
    cases focus with
    | none => cases hid
    | some =>
      cases hid
      exact h
  | _ => cases hid

theorem Permits.mono
    (hbindings : s'.bindings = s.bindings) (hphase : s.phase = .live → s'.phase = .live)
    (h : s.Permits known event) : s'.Permits known event := by
  cases event with
  | focusChanged focus =>
    cases focus with
    | none => trivial
    | some => exact h
  | bindingPressed _ | bindingReleased _ | bindingRepeatStopped _ =>
    exact ⟨hbindings ▸ h.1, hphase h.2⟩
  | unboundKeyEaten => exact hphase h
  | _ => exact h

/-- Every fact of a row is permitted where it stands, and the known windows stay few. -/
def Legal (s : Session B) : Finset BackendWindowId → List BackendPolicyEvent → Prop
  | _, [] => True
  | known, event :: events =>
    s.Permits known event ∧ (advance known event).card ≤ maxManagedWindows ∧
      s.Legal (advance known event) events

theorem legal_append {events' : List BackendPolicyEvent} : s.Legal known (events ++ events') ↔
      s.Legal known events ∧ s.Legal (events.foldl advance known) events' := by
  induction events generalizing known with
  | nil => simp [Legal]
  | cons event events ih => simp [Legal, ih, and_assoc]

theorem Legal.mono
    (hbindings : s'.bindings = s.bindings) (hphase : s.phase = .live → s'.phase = .live)
    (h : s.Legal known events) : s'.Legal known events := by
  induction events generalizing known with
  | nil => trivial
  | cons event events ih => exact ⟨h.1.mono hbindings hphase, h.2.1, ih h.2.2⟩

theorem exists_of_opens (h : event.opens = true) :
    ∃ id appId title, event = .windowOpened id appId title := by
  cases event with
  | windowOpened id appId title => exact ⟨id, appId, title, rfl⟩
  | _ => cases h

theorem subset_foldl_opens
    (hopens : ∀ event ∈ opens, event.opens = true) (known : Finset BackendWindowId) :
    known ⊆ opens.foldl advance known := by
  induction opens generalizing known with
  | nil => exact Finset.Subset.refl _
  | cons event events ih =>
    obtain ⟨id, appId, title, rfl⟩ := exists_of_opens (hopens event (by simp))
    refine Finset.Subset.trans (Finset.subset_insert id known) ?_
    exact ih (fun e he => hopens e (by simp [he])) _

theorem legal_opens (hopens : ∀ event ∈ opens, event.opens = true)
    (hcard : (opens.foldl advance known).card ≤ maxManagedWindows) : s.Legal known opens := by
  induction opens generalizing known with
  | nil => trivial
  | cons event events ih =>
    have hrest : ∀ e ∈ events, e.opens = true := fun e he => hopens e (by simp [he])
    refine ⟨?_, (Finset.card_le_card (subset_foldl_opens hrest _)).trans hcard, ih hrest hcard⟩
    obtain ⟨id, appId, title, rfl⟩ := exists_of_opens (hopens event (by simp))
    trivial

/-! ## Running totals -/

def stages (s : Session B) : BackendPolicyEvent → Bool
  | .bindingPressed id => (s.bindings.lookup id).any fun binding => actionHasEffect binding.action
  | _ => false

/-- The totals after an event that was accepted. -/
def tally (s : Session B) (c : TurnCheck) (event : BackendPolicyEvent) : TurnCheck :=
  let c := { c with
    textBytes := c.textBytes + RiverBackend.eventTextBytes event
    known := advance c.known event
    live := advance c.live event }
  match event with
  | .windowOpened id _ _ => { c with
      mapped := insert id c.mapped
      nextWinId := if id ∈ c.mapped then c.nextWinId else c.nextWinId + 1 }
  | .windowClosed id => { c with mapped := c.mapped.erase id }
  | .bindingPressed id =>
    match c.quitSeen, s.bindings.lookup id with
    | false, some binding => { c with
        effects := if actionHasEffect binding.action then c.effects + 1 else c.effects
        quitSeen := decide (binding.action = .quit) }
    | _, _ => c
  | _ => c

/-- There is an id and a place for a window that opens. -/
def HasPlace (c : TurnCheck) : BackendPolicyEvent → Prop
  | .windowOpened id _ _ => (id ∈ c.mapped ∨ c.nextWinId ≠ u64Max) ∧
      (insert id c.live).card ≤ maxManagedWindows
  | _ => True

/-- The events that are checked to stand in a later turn. -/
def later : BackendPolicyEvent → Bool
  | .windowClosed _ | .titleChanged .. | .workareaChanged _ | .geometryDrifted .. => true
  | _ => false

theorem checkEvent_eq_ok {c' : TurnCheck} :
    s.checkEvent replay c event = .ok c' ↔ s.Permits c.known event ∧ HasPlace c event ∧
      (replay = true → later event = false) ∧ s.tally c event = c' := by
  cases event with
  | windowOpened id =>
    by_cases hmapped : id ∈ c.mapped <;>
      simp [checkEvent, ite_error_eq_ok, hmapped, Permits, HasPlace, later, tally, advance,
        eventTextBytes, Nat.add_assoc, and_assoc]
  | focusChanged focus =>
    cases focus <;> simp [checkEvent, else_error_eq_ok, Permits, HasPlace, later, tally,
      advance, eventTextBytes]
  | bindingPressed id =>
    obtain ⟨known, live, mapped, nextWinId, textBytes, effects, quitSeen⟩ := c
    simp only [checkEvent, Permits, HasPlace, later, tally, advance, Map.mem_iff_lookup]
    cases s.bindings.lookup id <;> cases quitSeen <;>
      simp [else_error_eq_ok, eventTextBytes]
  | bindingReleased id | bindingRepeatStopped id =>
    simp only [checkEvent, Permits, HasPlace, later, tally, advance, Map.mem_iff_lookup]
    cases s.bindings.lookup id <;> simp [else_error_eq_ok, eventTextBytes]
  | _ =>
    simp [checkEvent, ite_error_eq_ok, else_error_eq_ok, Permits, HasPlace, later,
      tally, advance, eventTextBytes, Nat.add_assoc, and_left_comm]

/-- How the totals grow. -/
structure Tallies (s : Session B) (c : TurnCheck) (event : BackendPolicyEvent) (c' : TurnCheck) :
    Prop where
  known : c'.known = advance c.known event
  live : c'.live = advance c.live event
  textBytes : c'.textBytes = c.textBytes + RiverBackend.eventTextBytes event
  nextWinId : c'.nextWinId ≤ c.nextWinId + if event.opens then 1 else 0
  effects : c'.effects ≤ c.effects + if s.stages event then 1 else 0

theorem tallies_tally (s : Session B) (c : TurnCheck) (event : BackendPolicyEvent) :
    s.Tallies c event (s.tally c event) := by
  cases event with
  | windowOpened id =>
    refine ⟨rfl, rfl, rfl, ?_, by simp [tally]⟩
    by_cases hmapped : id ∈ c.mapped <;> simp [tally, hmapped, opens]
  | bindingPressed id =>
    simp only [tally]
    split
    · rename_i binding _ hbinding
      refine ⟨rfl, rfl, rfl, by simp, ?_⟩
      simp only [stages, hbinding, Option.any_some]
      split <;> simp
    · exact ⟨rfl, rfl, rfl, by simp, by simp⟩
  | _ => exact ⟨rfl, rfl, rfl, by simp [tally], by simp [tally]⟩

theorem exists_checkEvents (hlive : c.live = c.known) (hlegal : s.Legal c.known events)
    (hreplay : replay = true → ∀ event ∈ events, event.replays = true)
    (hroom : c.nextWinId + events.countP BackendPolicyEvent.opens ≤ u64Max) :
    ∃ c', s.checkEvents replay events c = .ok c' ∧
      c'.textBytes = c.textBytes + (events.map RiverBackend.eventTextBytes).sum ∧
      c'.effects ≤ c.effects + events.countP s.stages := by
  induction events generalizing c with
  | nil => exact ⟨c, rfl, by simp, by simp⟩
  | cons event events ih =>
    obtain ⟨hpermits, hcard, hlegal⟩ := hlegal
    rw [countP_cons] at hroom
    have hplace : HasPlace c event := by
      cases event with
      | windowOpened =>
        rw [← hlive] at hcard
        rw [BackendPolicyEvent.opens, if_pos rfl] at hroom
        exact ⟨.inr (by omega), hcard⟩
      | _ => trivial
    have hlater : replay = true → later event = false := by
      intro h
      have hreplays := hreplay h event (by simp)
      cases event <;> first | rfl | cases hreplays
    obtain ⟨hknown, hlive', htext, hnext, hstaged⟩ := s.tallies_tally c event
    obtain ⟨c', hchecks, htext', heffects⟩ := ih (c := s.tally c event)
      (by rw [hlive', hknown, hlive]) (hknown ▸ hlegal)
      (fun h e he => hreplay h e (by simp [he])) (by omega)
    refine ⟨c', ?_, ?_, ?_⟩
    · exact bind_eq_ok.mpr ⟨_, checkEvent_eq_ok.mpr ⟨hpermits, hplace, hlater, rfl⟩, hchecks⟩
    · rw [htext', htext, map_cons, sum_cons, Nat.add_assoc]
    · rw [countP_cons]
      omega

/-! ## The shape of a turn -/

/-- A replay reports opens, the barrier and at most one fact of each focus. -/
structure ReplayShape (events : List BackendPolicyEvent) : Prop where
  replays : ∀ event ∈ events, event.replays = true
  focus_le : events.countP isFocus ≤ 1
  exclusive_le : events.countP isExclusive ≤ 1

theorem checkReplayEvents_eq_ok {focus exclusive : ℕ}
    (hfocus : focus ≤ 1) (hexclusive : exclusive ≤ 1) :
    checkReplayEvents events focus exclusive = .ok () ↔ (∀ event ∈ events, event.replays = true) ∧
        focus + events.countP isFocus ≤ 1 ∧ exclusive + events.countP isExclusive ≤ 1 := by
  induction events generalizing focus exclusive with
  | nil => simp [checkReplayEvents, hfocus, hexclusive]
  | cons event events ih =>
    cases event with
    | windowOpened _ _ _ | initialReplayComplete =>
      simp [checkReplayEvents, ih hfocus hexclusive, replays, isFocus, isExclusive]
    | focusChanged =>
      simp only [checkReplayEvents, ite_error_eq_ok, forall_mem_cons,
        replays, true_and, countP_cons, isFocus,
        isExclusive, if_true, Bool.false_eq_true, if_false, Nat.add_zero]
      constructor
      · rintro ⟨hone, h⟩
        obtain ⟨hreplays, hcount, hcount'⟩ := (ih (by omega) hexclusive).mp h
        exact ⟨hreplays, by omega, hcount'⟩
      · rintro ⟨hreplays, hcount, hcount'⟩
        exact ⟨by omega, (ih (by omega) hexclusive).mpr ⟨hreplays, by omega, hcount'⟩⟩
    | exclusiveFocusChanged =>
      simp only [checkReplayEvents, ite_error_eq_ok, forall_mem_cons,
        replays, true_and, countP_cons, isFocus,
        isExclusive, if_true, Bool.false_eq_true, if_false, Nat.add_zero]
      constructor
      · rintro ⟨hone, h⟩
        obtain ⟨hreplays, hcount, hcount'⟩ := (ih hfocus (by omega)).mp h
        exact ⟨hreplays, hcount, by omega⟩
      · rintro ⟨hreplays, hcount, hcount'⟩
        exact ⟨by omega, (ih hfocus (by omega)).mpr ⟨hreplays, hcount, by omega⟩⟩
    | _ => simp [checkReplayEvents, replays]

theorem checkReplayEvents_iff_replayShape :
    checkReplayEvents events 0 0 = .ok () ↔ ReplayShape events := by
  rw [checkReplayEvents_eq_ok (Nat.zero_le _) (Nat.zero_le _), Nat.zero_add, Nat.zero_add]
  exact ⟨fun ⟨h, h', h''⟩ => ⟨h, h', h''⟩, fun ⟨h, h', h''⟩ => ⟨h, h', h''⟩⟩

/-- A turn has the barrier, the length and the text of its phase. -/
structure Shaped (replay : Bool) (events : List BackendPolicyEvent) : Prop where
  barrier : checkBarrier replay events = .ok ()
  length_le : events.length ≤ if replay then maxReplayPolicyEvents else maxPolicyEvents
  text_le : (events.map RiverBackend.eventTextBytes).sum ≤ maxPolicyTextBytes

theorem Shaped.replayShape (h : Shaped true events) : ReplayShape events := by
  have hbarrier := h.barrier
  simp only [checkBarrier, if_true, ite_error_eq_ok] at hbarrier
  exact checkReplayEvents_iff_replayShape.mp hbarrier.2

/-- The identities known before the first fact of the next turn. -/
def baseIds (s : Session B) : Finset BackendWindowId :=
  if s.phase = .initialReplay then ∅ else s.turnBase.knownIds

theorem knownIds_of_reduceTurn [WmBackend B] {backend : B} {active : ActiveTransaction}
    (hc : s.turnBase.Consistent) (hshaped : Shaped (decide (s.phase = .initialReplay)) events)
    (h : s.reduceTurn events = (.ok active, backend)) :
    active.working.knownIds = events.foldl advance s.baseIds := by
  rw [← openTurn_working] at hc
  rw [baseIds]
  unfold reduceTurn at h
  split at h
  · rename_i hphase
    rw [if_pos hphase]
    have hreplay := (decide_eq_true hphase ▸ hshaped : Shaped true events).replayShape
    exact knownIds_reduceInitialReplay hc (checkReplayEvents_iff_replayShape.mpr hreplay) h
  · rename_i hphase
    rw [if_neg hphase, ← openTurn_working]
    exact (reductions_reducePolicyEvents h).knownIds hc

/-- There are ids for the windows of a turn and room for the effects it stages. -/
structure HasRoom (s : Session B) (events : List BackendPolicyEvent) : Prop where
  ids : s.turnBase.nextWinId + events.countP BackendPolicyEvent.opens ≤ u64Max
  effects : (s.active.map (·.stagedEffects.length)).getD 0 + events.countP s.stages ≤
    maxStagedEffects

theorem validatePolicyTurn_of_legal {turn : BackendPolicyTurn}
    (hsequence : s.checkSequence turn = .ok ())
    (hshape : Shaped (decide (s.phase = .initialReplay)) turn.events)
    (hlegal : s.Legal s.baseIds turn.events) (hroom : s.HasRoom turn.events) :
    s.validatePolicyTurn turn = .ok () := by
  have hbase : (s.initialCheck (decide (s.phase = .initialReplay))).known = s.baseIds := by
    simp only [initialCheck, baseIds, decide_eq_true_eq]
    rfl
  obtain ⟨c, hcheck, htext, heffects⟩ := exists_checkEvents
    (c := s.initialCheck (decide (s.phase = .initialReplay))) rfl (hbase.symm ▸ hlegal)
    (fun hreplay => (hreplay ▸ hshape : Shaped true turn.events).replayShape.replays) hroom.ids
  have hlimit := hshape.text_le
  have hstaged := hroom.effects
  simp only [initialCheck] at htext heffects
  refine bind_eq_ok.mpr ⟨(), hsequence, bind_eq_ok.mpr ⟨(), hshape.barrier, ?_⟩⟩
  rw [if_neg (Nat.not_lt.mpr hshape.length_le)]
  refine bind_eq_ok.mpr ⟨c, hcheck, ?_⟩
  rw [if_neg (by omega), if_neg (by omega)]

end Session

end Realm

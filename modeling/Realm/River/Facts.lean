import Mathlib.Data.Finset.Card
import Realm.River.Frame

/-!
# Facts and identities

One applied event retains at most one fact, and `factOf` says which.  The
identity maps stay linked to the window records: a window of the session leads
to a live record that is assigned to it, and a named record is found by its name.
-/

namespace Realm

open River Guard List Map AList

variable {w w' : Window}

namespace River

/-- What ties a record to the session. -/
def Window.binding (w : Window) : Option BackendWindowId × Bool × Option WinId :=
  (w.backendId, w.pendingOpen, w.assigned)

theorem Window.binding_eq : w'.binding = w.binding ↔
    w'.backendId = w.backendId ∧ w'.pendingOpen = w.pendingOpen ∧ w'.assigned = w.assigned := by
  simp only [binding, Prod.mk.injEq]

theorem Window.binding_eq_of_identity (h : w'.identity = w.identity) : w'.binding = w.binding := by
  simp only [identity, Prod.mk.injEq] at h
  simp [binding, h]

/-- The identities the session knows of after a fact. -/
def advance (known : Finset BackendWindowId) : BackendPolicyEvent → Finset BackendWindowId
  | .windowOpened bid _ _ => insert bid known
  | .windowClosed bid => known.erase bid
  | _ => known

end River

namespace RiverBackend

variable {b b' : RiverBackend} {id layer : ObjectId} {height width x y : ℤ}
  {fact : BackendPolicyEvent} {event : Incoming} {identifier : String} {bid : BackendWindowId}

/-- The state of the exchange with the session, which events other than the start
of a sequence do not touch. -/
structure Exchange where
  connected : Bool
  windowManager : Option ObjectId
  replay : Bool
  publicEvents : List BackendEvent
  openTurn : Option BackendPolicyTurnId
  turnRequested : Bool
  pendingResponse : Option PendingResponse
  nextTurn : ℕ
  bindings : Map BackendBindingId BackendBindingSpec
  drainTicket : Option BackendTicket
  lastProjection : Option (List Placement)
  deferredCorrections : CorrectionMap
  readGuard : Bool
  flushBlocked : Bool
  exitStarted : Bool
  exitFlushed : Bool
  exitComplete : Bool

def exchange (b : RiverBackend) : Exchange where
  connected := b.connected
  windowManager := b.windowManager
  replay := b.replay
  publicEvents := b.publicEvents
  openTurn := b.openTurn
  turnRequested := b.turnRequested
  pendingResponse := b.pendingResponse
  nextTurn := b.nextTurn
  bindings := b.bindings
  drainTicket := b.drainTicket
  lastProjection := b.lastProjection
  deferredCorrections := b.deferredCorrections
  readGuard := b.readGuard
  flushBlocked := b.flushBlocked
  exitStarted := b.exitStarted
  exitFlushed := b.exitFlushed
  exitComplete := b.exitComplete

/-! ## Identities -/

/-- The identity maps lead to the records that carry the identities. -/
structure Linked (b : RiverBackend) : Prop where
  realm : ∀ win bid, b.realmIds.lookup win = some bid → ∃ id w,
    b.windowIds.lookup bid = some id ∧ b.windows.lookup id = some w ∧ w.assigned = some win
  named : ∀ id w bid, b.windows.lookup id = some w → w.backendId = some bid →
    b.windowIds.lookup bid = some id
  identified : ∀ bid id w, b.windowIds.lookup bid = some id → b.windows.lookup id = some w →
    w.backendId.isSome
  reported : ∀ id w, b.windows.lookup id = some w → w.pendingOpen = false → w.backendId.isSome
  windows_known : ∀ id w, b.windows.lookup id = some w → id ∈ b.transport.objects
  windowIds_known : ∀ bid id, b.windowIds.lookup bid = some id → id ∈ b.transport.objects

/-- The identities reported to the session and not closed since. -/
def openedIds (b : RiverBackend) : Finset BackendWindowId :=
  ((b.windows.entries.filter fun e => !e.2.pendingOpen).filterMap (·.2.backendId)).toFinset

theorem mem_openedIds : bid ∈ b.openedIds ↔
    ∃ id w, b.windows.lookup id = some w ∧ w.pendingOpen = false ∧ w.backendId = some bid := by
  simp only [openedIds, mem_toFinset, mem_filterMap, mem_filter]
  constructor
  · rintro ⟨⟨id, w⟩, ⟨hmem, hopen⟩, hbid⟩
    exact ⟨id, w, mem_entries.mp hmem, by simpa using hopen, hbid⟩
  · rintro ⟨id, w, hlookup, hopen, hbid⟩
    exact ⟨⟨id, w⟩, ⟨mem_entries.mpr hlookup, by simpa using hopen⟩, hbid⟩

theorem card_openedIds_le (b : RiverBackend) : b.openedIds.card ≤ b.windows.keys.length := by
  refine (toFinset_card_le _).trans ((length_filterMap_le _ _).trans ?_)
  refine (length_filter_le _ _).trans (le_of_eq ?_)
  simp [AList.keys, List.keys]

/-- The records keep what ties them to the session, and the maps stay. -/
structure SameBindings (b b' : RiverBackend) : Prop where
  windows : ∀ id, (b'.windows.lookup id).map Window.binding =
    (b.windows.lookup id).map Window.binding
  windowIds : b'.windowIds = b.windowIds
  realmIds : b'.realmIds = b.realmIds
  objects : b.transport.objects ⊆ b'.transport.objects

namespace SameBindings

theorem lookup (h : SameBindings b b') (hw' : b'.windows.lookup id = some w') :
    ∃ w, b.windows.lookup id = some w ∧ w'.backendId = w.backendId ∧
      w'.pendingOpen = w.pendingOpen ∧ w'.assigned = w.assigned := by
  have hid := h.windows id
  rw [hw', Option.map_some] at hid
  obtain ⟨w, hw, heq⟩ := Option.map_eq_some_iff.mp hid.symm
  exact ⟨w, hw, Window.binding_eq.mp heq.symm⟩

theorem symm_lookup (h : SameBindings b b') (hw : b.windows.lookup id = some w) :
    ∃ w', b'.windows.lookup id = some w' ∧ w'.backendId = w.backendId ∧
      w'.pendingOpen = w.pendingOpen ∧ w'.assigned = w.assigned := by
  have hid := h.windows id
  rw [hw, Option.map_some] at hid
  obtain ⟨w', hw', heq⟩ := Option.map_eq_some_iff.mp hid
  exact ⟨w', hw', Window.binding_eq.mp heq⟩

theorem linked (h : SameBindings b b') (hb : b.Linked) : b'.Linked where
  realm win bid hwin := by
    rw [h.realmIds] at hwin
    obtain ⟨id, w, hid, hw, hassigned⟩ := hb.realm win bid hwin
    obtain ⟨w', hw', -, -, heq⟩ := h.symm_lookup hw
    exact ⟨id, w', h.windowIds ▸ hid, hw', heq.trans hassigned⟩
  named id w' bid hw' hbid := by
    obtain ⟨w, hw, heq⟩ := h.lookup hw'
    exact h.windowIds ▸ hb.named id w bid hw (heq.1 ▸ hbid)
  identified bid id w' hbid hw' := by
    obtain ⟨w, hw, heq⟩ := h.lookup hw'
    exact heq.1 ▸ hb.identified bid id w (h.windowIds ▸ hbid) hw
  reported id w' hw' hopen := by
    obtain ⟨w, hw, heq⟩ := h.lookup hw'
    exact heq.1 ▸ hb.reported id w hw (heq.2.1 ▸ hopen)
  windows_known id w' hw' := by
    obtain ⟨w, hw, _⟩ := h.lookup hw'
    exact h.objects (hb.windows_known id w hw)
  windowIds_known bid id hbid := h.objects (hb.windowIds_known bid id (h.windowIds ▸ hbid))

theorem openedIds (h : SameBindings b b') : b'.openedIds = b.openedIds := by
  ext bid
  simp only [mem_openedIds]
  constructor
  · rintro ⟨id, w', hw', hopen, hbid⟩
    obtain ⟨w, hw, heq⟩ := h.lookup hw'
    exact ⟨id, w, hw, heq.2.1 ▸ hopen, heq.1 ▸ hbid⟩
  · rintro ⟨id, w, hw, hopen, hbid⟩
    obtain ⟨w', hw', heq⟩ := h.symm_lookup hw
    exact ⟨id, w', hw', heq.2.1.trans hopen, heq.1.trans hbid⟩

theorem insertWindow (h : b.windows.lookup id = some w) (heq : w'.binding = w.binding) :
    SameBindings b { b with windows := b.windows.insert id w' } := by
  refine ⟨fun id' => ?_, rfl, rfl, Subset.refl _⟩
  by_cases hid : id' = id
  · subst hid
    simp [h, heq]
  · simp [lookup_insert_ne hid]

end SameBindings

theorem Repaints.sameBindings (h : Repaints b b') : SameBindings b b' := by
  obtain ⟨⟨_, _, _, _, _, _, _, rfl⟩, hsends, hident, -⟩ := h
  refine ⟨fun id => ?_, rfl, rfl, hsends.objects⟩
  have hid := hident id
  cases hw : b.windows.lookup id with
  | none =>
    rw [hw, Option.map_none, Option.map_eq_none_iff] at hid
    simp [hid]
  | some =>
    rw [hw, Option.map_some] at hid
    obtain ⟨w', hw', heq⟩ := Option.map_eq_some_iff.mp hid
    simp [hw', Window.binding_eq_of_identity heq]

/-! ## The fact of an event -/

/-- The fact an event makes the backend retain.  The start of a sequence retains
none by itself. -/
def factOf (b : RiverBackend) : Incoming → Option BackendPolicyEvent
  | .windowTitle id title =>
    (b.windows.lookup id).bind fun w =>
      if w.pendingOpen then none else w.backendId.map fun bid => .titleChanged bid title
  | .windowDimensions id width height =>
    (b.windows.lookup id).bind fun w =>
      match b.drifts w (width, height), w.backendId, w.position with
      | true, some bid, some (x, y) => some (.geometryDrifted bid ⟨x, y, width, height⟩)
      | _, _, _ => none
  | .windowClosed id =>
    (b.windows.lookup id).bind fun w =>
      if w.pendingOpen then none else w.backendId.map fun bid => .windowClosed bid
  | .windowInteracted id =>
    ((b.windows.lookup id).bind (·.backendId)).map fun bid => .focusChanged (some bid)
  | .workarea layer x y width height =>
    (b.outputs.entries.find? fun e => e.2.layer = layer).bind fun e =>
      if b.selectedOutput ≠ some e.1 then none
      else
        match e.2.position, e.2.dimensions with
        | some (ox, oy), some (ow, oh) =>
          some (.workareaChanged ⟨⟨ox, oy, ow, oh⟩, ⟨x, y, width, height⟩⟩)
        | _, _ => none
  | .exclusiveFocus exclusive => some (.exclusiveFocusChanged exclusive)
  | .bindingPressed id => some (.bindingPressed id)
  | .bindingReleased id => some (.bindingReleased id)
  | .bindingRepeatStopped id => some (.bindingRepeatStopped id)
  | .unboundKeyEaten => some .unboundKeyEaten
  | .modifiersChanged old new =>
    (decodeModifiers old).bind fun old => (decodeModifiers new).map fun new =>
      .modifiersChanged old new
  | _ => none

theorem factOf_windowDimensions (h : b.factOf (.windowDimensions id width height) = some fact) :
    ∃ bid, (∃ w, b.windows.lookup id = some w ∧ w.pendingOpen = false ∧ w.backendId = some bid) ∧
      ∃ rect, fact = .geometryDrifted bid rect := by
  obtain ⟨w, hw, h⟩ := Option.bind_eq_some_iff.mp h
  split at h
  · rename_i bid x y hdrift hbid _
    refine ⟨bid, ⟨w, hw, ?_, hbid⟩, _, (Option.some.inj h).symm⟩
    simp only [drifts, Bool.and_eq_true, Bool.not_eq_true'] at hdrift
    exact hdrift.2
  · cases h

theorem factOf_workarea (h : b.factOf (.workarea layer x y width height) = some fact) :
    ∃ area, fact = .workareaChanged area := by
  obtain ⟨e, -, h⟩ := Option.bind_eq_some_iff.mp h
  split at h
  · cases h
  split at h
  · exact ⟨_, (Option.some.inj h).symm⟩
  · cases h

/-- An event was applied: it retained a fact or none, left the exchange with the
session alone, and added only binding objects that are configured. -/
structure Applied (b b' : RiverBackend) (fact : Option BackendPolicyEvent) : Prop where
  exchange : b'.exchange = b.exchange
  sends : b.transport.Sends b'.transport
  policyEvents : b'.policyEvents = b.policyEvents ++ fact.toList
  bindingObjects : ∀ id, id ∈ b'.bindingObjects → id ∈ b.bindingObjects ∨ id ∈ b.bindings

theorem nextOrdinal_eq_ok {n m : ℕ} (h : b.nextOrdinal n = .ok m) : m = n + 1 := by
  unfold nextOrdinal at h
  split at h
  · cases h
  · exact (Except.ok.inj h).symm

/-- Input devices have no part in windows, facts or the exchange. -/
theorem applyInputEvent_eq_ok (h : b.applyInputEvent event = .ok b') :
    b.transport.Sends b'.transport ∧ b' = { b with
      transport := b'.transport
      inputDevices := b'.inputDevices
      libinputDevices := b'.libinputDevices
      libinputResults := b'.libinputResults
      nextInputOrdinal := b'.nextInputOrdinal
      nextLibinputOrdinal := b'.nextLibinputOrdinal
      flushPending := b'.flushPending } := by
  unfold applyInputEvent at h
  split at h
  · split at h
    · cases h
    · obtain ⟨_, _, h⟩ := bind_eq_ok.mp h
      cases h
      exact ⟨.refl _, rfl⟩
  · cases h
    exact ⟨.destroy _ _, rfl⟩
  · split at h
    · cases h
      exact ⟨.refl _, rfl⟩
    · cases h
  · split at h
    · cases h
    · cases h
      exact ⟨.send _ _, rfl⟩
    · cases h
      exact ⟨.refl _, rfl⟩
  · split at h
    · cases h
    · obtain ⟨_, _, h⟩ := bind_eq_ok.mp h
      cases h
      exact ⟨.refl _, rfl⟩
  · cases h
    exact ⟨.destroy _ _, rfl⟩
  · split at h
    · cases h
    · cases h
      exact ⟨.refl _, rfl⟩
  · split at h
    · cases h
    · cases h
      exact ⟨.refl _, rfl⟩
  · split at h
    · cases h
    · split at h
      · cases h
        exact ⟨.trans (.construct _) (.send _ _), rfl⟩
      · cases h
        exact ⟨.refl _, rfl⟩
  · split at h
    · cases h
      exact ⟨.refl _, rfl⟩
    · cases h
  · cases h

/-- An event that changes no tie of a window to the session. -/
structure Untied (b b' : RiverBackend) (fact : Option BackendPolicyEvent) : Prop
    extends Applied b b' fact, SameBindings b b'

theorem untied_of_windows_eq {fact : Option BackendPolicyEvent}
    (hsends : b.transport.Sends b'.transport)
    (hsame : (b'.exchange, b'.windows, b'.windowIds, b'.realmIds) =
      (b.exchange, b.windows, b.windowIds, b.realmIds))
    (hbindings : ∀ id, id ∈ b'.bindingObjects → id ∈ b.bindingObjects ∨ id ∈ b.bindings)
    (hfacts : b'.policyEvents = b.policyEvents ++ fact.toList) : Untied b b' fact := by
  simp only [Prod.mk.injEq] at hsame
  obtain ⟨hexchange, hwindows, hwindowIds, hrealmIds⟩ := hsame
  exact ⟨⟨hexchange, hsends, hfacts, hbindings⟩,
    ⟨fun _ => by rw [hwindows], hwindowIds, hrealmIds, hsends.objects⟩⟩

theorem untied_of_bindings_eq {fact : Option BackendPolicyEvent}
    (hsends : b.transport.Sends b'.transport)
    (hsame : (b'.exchange, b'.windows, b'.windowIds, b'.realmIds, b'.bindingObjects) =
      (b.exchange, b.windows, b.windowIds, b.realmIds, b.bindingObjects))
    (hfacts : b'.policyEvents = b.policyEvents ++ fact.toList) : Untied b b' fact := by
  simp only [Prod.mk.injEq] at hsame
  obtain ⟨hexchange, hwindows, hwindowIds, hrealmIds, hbindings⟩ := hsame
  exact untied_of_windows_eq hsends (by rw [hexchange, hwindows, hwindowIds, hrealmIds])
    (fun _ h => .inl (hbindings ▸ h)) hfacts

theorem untied_applyInputEvent (h : b.applyInputEvent event = .ok b') : Untied b b' none := by
  obtain ⟨hsends, heq⟩ := applyInputEvent_eq_ok h
  exact untied_of_bindings_eq hsends (by rw [heq]; rfl) (by rw [heq]; simp)

theorem untied_insertWindow (w' : Window) (h : b.windows.lookup id = some w)
    (heq : w'.binding = w.binding) (fact : Option BackendPolicyEvent) : Untied b { b with
      windows := b.windows.insert id w'
      policyEvents := b.policyEvents ++ fact.toList } fact where
  exchange := rfl
  sends := .refl _
  policyEvents := rfl
  bindingObjects _ := .inl
  windows := (SameBindings.insertWindow h heq).windows
  windowIds := rfl
  realmIds := rfl
  objects := List.Subset.refl _

theorem untied_modifyWindow {f : Window → Window}
    (hf : ∀ w, (f w).binding = w.binding) (h : b.modifyWindow id f = .ok b') :
    Untied b b' none := by
  unfold modifyWindow at h
  split at h
  · cases h
  · rename_i w hw
    cases h
    simpa using untied_insertWindow (f w) hw (hf w) none

theorem untied_windowTitle {title : String} (h : b.windowTitle id title = .ok b') :
    Untied b b' (b.factOf (.windowTitle id title)) := by
  unfold windowTitle at h
  split at h
  · cases h
  rename_i w hw
  simp only at h
  split at h
  · rename_i hpending
    cases h
    simpa [factOf, hw, hpending] using
      untied_insertWindow { w with title := title } hw rfl none
  · rename_i hpending
    split at h
    · cases h
    · rename_i bid hbid
      cases h
      simpa [factOf, hw, hpending, hbid, retain] using
        untied_insertWindow { w with title := title } hw rfl (some (.titleChanged bid title))

theorem untied_windowDimensions (h : b.windowDimensions id width height = .ok b') :
    Untied b b' (b.factOf (.windowDimensions id width height)) := by
  unfold windowDimensions at h
  split at h
  · cases h
  split at h
  · cases h
  rename_i w hw
  simp only at h
  split at h
  · rename_i bid x y hdrift hbid hposition
    cases h
    simpa [factOf, hw, hdrift, hbid, hposition, retain] using
      untied_insertWindow { w with
        awaitingDimensions := false
        dimensions := some (width, height)
        proposedSize := none } hw rfl (some (.geometryDrifted bid ⟨x, y, width, height⟩))
  · cases h
    have hfact : b.factOf (.windowDimensions id width height) = none := by
      simp only [factOf, hw, Option.bind_some]
    rw [hfact]
    simpa using untied_insertWindow { w with
      awaitingDimensions := false
      dimensions := some (width, height) } hw rfl none

theorem untied_outputCreated (h : b.outputCreated id = .ok b') : Untied b b' none := by
  unfold outputCreated at h
  split at h
  · cases h
  obtain ⟨ordinal, _, h⟩ := bind_eq_ok.mp h
  simp only at h
  split at h
  · cases h
  · cases h
    exact untied_of_bindings_eq (.trans (.construct _) (.send _ _)) rfl (by simp [send])

theorem untied_modifyOutput {f : Output → Output}
    (h : b.modifyOutput id f = .ok b') : Untied b b' none := by
  unfold modifyOutput at h
  split at h
  · cases h
  · cases h
    exact untied_of_bindings_eq (.refl _) rfl (by simp)

theorem leaveFullscreen_binding (w : Window) : (leaveFullscreen w).binding = w.binding := by
  unfold leaveFullscreen
  split <;> rfl

theorem untied_outputRemoved (h : b.outputRemoved id = .ok b') : Untied b b' none := by
  unfold outputRemoved at h
  split at h
  · cases h
  rename_i output houtput
  cases h
  simp only
  split
  · refine ⟨⟨rfl, .trans (.destroy _ _) (.destroy _ _), by simp [destroy], fun _ h => .inl h⟩,
      ⟨fun id => ?_, rfl, rfl, Subset.refl _⟩⟩
    simp [destroy, lookup_mapValues, Function.comp_def, leaveFullscreen_binding]
  · exact untied_of_bindings_eq (.trans (.destroy _ _) (.destroy _ _)) rfl (by simp [destroy])

theorem exists_createBindings {seat : ObjectId}
    {entries : List (BackendBindingId × BackendBindingSpec)}
    (h : entries.foldlM (createBinding seat) b = .ok b') :
    ∃ transport bindingObjects, b.transport.Sends transport ∧
      (∀ id, id ∈ bindingObjects → id ∈ b.bindingObjects ∨ id ∈ entries.map (·.1)) ∧
      b' = { b with transport := transport, bindingObjects := bindingObjects } := by
  induction entries generalizing b with
  | nil =>
    rw [foldlM_nil, pure_eq_ok] at h
    exact ⟨_, _, .refl _, fun _ h => .inl h, h.symm⟩
  | cons entry entries ih =>
    rw [foldlM_cons] at h
    obtain ⟨c, hc, h⟩ := bind_eq_ok.mp h
    unfold createBinding at hc
    split at hc
    · cases hc
    cases hc
    obtain ⟨t, objects, hsends, hobjects, rfl⟩ := ih h
    refine ⟨t, objects, .trans (.trans (.construct _) (.send _ _)) hsends, fun id hid => ?_, rfl⟩
    rcases hobjects id hid with hmem | hmem
    · rw [mem_insert] at hmem
      rcases hmem with rfl | hmem
      · exact .inr (by simp)
      · exact .inl hmem
    · exact .inr (mem_cons_of_mem _ hmem)

theorem untied_seatCreated (h : b.seatCreated id = .ok b') : Untied b b' none := by
  unfold seatCreated at h
  split at h
  · cases h
  obtain ⟨ordinal, _, h⟩ := bind_eq_ok.mp h
  obtain ⟨c, hc, h⟩ := bind_eq_ok.mp h
  cases h
  unfold ensureSeat at hc
  split at hc
  · cases hc
    exact untied_of_bindings_eq (.refl _) rfl (by simp)
  unfold selectSeat at hc
  simp only at hc
  split at hc
  · cases hc
  split at hc
  · cases hc
  obtain ⟨d, hd, hc⟩ := bind_eq_ok.mp hc
  cases hc
  obtain ⟨t, objects, hsends, hobjects, rfl⟩ := exists_createBindings hd
  refine untied_of_windows_eq ?_ rfl (fun id hid => ?_) (by simp [send])
  · exact .trans (.trans (.trans (.construct _) (.send _ _)) (.trans (.construct _) (.send _ _)))
      hsends
  · refine (hobjects id hid).imp_right fun hmem => ?_
    simp only [mem_map, mem_insertionSort] at hmem
    obtain ⟨_, ⟨e, he, rfl⟩, rfl⟩ := hmem
    exact mem_keys.mpr (mem_map_of_mem he)

theorem exists_destroyAll (b : RiverBackend) (ids : List ObjectId) :
    ∃ t, b.transport.Sends t ∧ ids.foldl destroy b = { b with transport := t } := by
  induction ids generalizing b with
  | nil => exact ⟨_, .refl _, rfl⟩
  | cons id ids ih =>
    obtain ⟨t, hsends, heq⟩ := ih (b.destroy id)
    exact ⟨t, .trans (.destroy _ _) hsends, heq⟩

theorem untied_seatRemoved (h : b.seatRemoved id = .ok b') : Untied b b' none := by
  unfold seatRemoved at h
  split at h
  · cases h
  cases h
  simp only
  split
  · unfold dropSeat
    obtain ⟨t, hsends, heq⟩ := exists_destroyAll { b with seats := b.seats.erase id }
      (b.layerSeat.toList ++ b.xkbSeat.toList ++
        (b.bindingObjects.entries.insertionSort fun a c => a.1.raw ≤ c.1.raw).map (·.2.proxy))
    simp only [heq]
    exact untied_of_windows_eq (.trans hsends (.destroy _ _)) rfl (by simp [destroy])
      (by simp [destroy])
  · exact untied_of_bindings_eq (.destroy _ _) rfl (by simp [destroy])

theorem untied_retain (b : RiverBackend) (fact : BackendPolicyEvent) :
    Untied b (b.retain fact) (some fact) :=
  untied_of_bindings_eq (.refl _) rfl rfl

theorem untied_windowInteracted (h : b.windowInteracted id = .ok b') :
    Untied b b' (b.factOf (.windowInteracted id)) := by
  unfold windowInteracted at h
  split at h
  · cases h
  · rename_i bid hbid
    cases h
    simpa [factOf, hbid] using b.untied_retain (.focusChanged (some bid))

theorem untied_workarea (h : b.workarea layer ⟨x, y, width, height⟩ = .ok b') :
    Untied b b' (b.factOf (.workarea layer x y width height)) := by
  unfold workarea at h
  split at h
  · cases h
  rename_i id output hfind
  simp only at h
  split at h
  · rename_i hselected
    cases h
    simp only [factOf, hfind, Option.bind_some, if_pos hselected]
    exact untied_of_bindings_eq (.refl _) rfl (by simp)
  · rename_i hselected
    split at h
    · rename_i hposition hdimensions
      cases h
      simp only [factOf, hfind, Option.bind_some, if_neg hselected, hposition, hdimensions]
      exact untied_of_bindings_eq (.refl _) rfl rfl
    · cases h

theorem untied_bindingFact {id : BackendBindingId}
    (h : b.bindingFact id fact = .ok b') : Untied b b' (some fact) := by
  unfold bindingFact at h
  split at h
  · cases h
    exact b.untied_retain fact
  · cases h

theorem untied_modifiersChanged {old new : ℕ} (h : b.modifiersChanged old new = .ok b') :
    Untied b b' (b.factOf (.modifiersChanged old new)) := by
  unfold modifiersChanged at h
  split at h
  · rename_i hold hnew
    cases h
    simpa [factOf, hold, hnew] using b.untied_retain (.modifiersChanged _ _)
  · cases h

/-! ## Events that change identities -/

theorem exists_windowCreated (h : b.windowCreated id = .ok b') :
    b.windows.keys.length ≠ maxManagedWindows ∧ ∃ node transport, b.transport.Sends transport ∧
      b' = { b with
        transport := transport
        nextWindowOrdinal := b.nextWindowOrdinal + 1
        flushPending := true
        windows := b.windows.insert id (Window.new node (b.nextWindowOrdinal + 1)) } := by
  unfold windowCreated at h
  split at h
  · cases h
  rename_i hlen
  obtain ⟨ordinal, hordinal, h⟩ := bind_eq_ok.mp h
  obtain rfl := nextOrdinal_eq_ok hordinal
  cases h
  exact ⟨hlen, _, _, .trans (.construct _) (.send _ _), rfl⟩

theorem exists_windowIdentifier (h : b.windowIdentifier id identifier = .ok b') :
    ∃ bid w, BackendWindowId.new identifier = some bid ∧ b.windowIds.lookup bid = none ∧
      b.windows.lookup id = some w ∧ b' = { b with
        windows := b.windows.insert id { w with backendId := some bid }
        windowIds := b.windowIds.insert bid id } := by
  unfold windowIdentifier at h
  split at h
  · cases h
  rename_i bid hnew
  split at h
  · cases h
  rename_i hfresh
  obtain ⟨c, hc, h⟩ := bind_eq_ok.mp h
  unfold modifyWindow at hc
  split at hc
  · cases hc
  rename_i w hw
  cases hc
  cases h
  exact ⟨bid, w, hnew, lookup_eq_none.mpr hfresh, hw, rfl⟩

theorem exists_windowClosed (h : b.windowClosed id = .ok b') :
    ∃ w transport focusedWindow, b.windows.lookup id = some w ∧ b.transport.Sends transport ∧
      b' = { b with
        transport := transport
        windows := b.windows.erase id
        windowIds := w.backendId.elim b.windowIds b.windowIds.erase
        realmIds := if w.backendId.isSome then w.assigned.elim b.realmIds b.realmIds.erase
          else b.realmIds
        focusedWindow := focusedWindow
        policyEvents := b.policyEvents ++ (b.factOf (.windowClosed id)).toList
        flushPending := true } := by
  unfold windowClosed at h
  split at h
  · cases h
  rename_i w hw
  cases h
  have hsends : b.transport.Sends ((b.transport.destroy w.node).destroy id) :=
    .trans (.destroy _ w.node) (.destroy _ id)
  cases hbid : w.backendId with
  | none =>
    refine ⟨w, _, b.focusedWindow, hw, hsends, ?_⟩
    simp [factOf, hw, hbid, destroy]
  | some bid =>
    cases hassigned : w.assigned with
    | none =>
      refine ⟨w, _, b.focusedWindow, hw, hsends, ?_⟩
      cases hpending : w.pendingOpen <;>
        simp [factOf, hw, hbid, hassigned, hpending, forgetWindow, destroy, retain]
    | some =>
      refine ⟨w, _, (b.forgetWindow w bid).focusedWindow, hw, hsends, ?_⟩
      cases hpending : w.pendingOpen <;>
        simp [factOf, hw, hbid, hassigned, hpending, forgetWindow, destroy, retain] <;>
        rfl

/-- Nothing leads to the object. -/
structure Unlinked (b : RiverBackend) (id : ObjectId) : Prop where
  windows : b.windows.lookup id = none
  windowIds : ∀ bid, b.windowIds.lookup bid ≠ some id

theorem Linked.unlinked (hb : b.Linked) (hid : id ∉ b.transport.objects) : b.Unlinked id where
  windows := Option.eq_none_iff_forall_ne_some.mpr fun w hw => hid (hb.windows_known id w hw)
  windowIds bid hbid := hid (hb.windowIds_known bid id hbid)

theorem linked_windowCreated (hb : b.Linked) (hfresh : b.Unlinked id)
    (hknown : id ∈ b.transport.objects) (h : b.windowCreated id = .ok b') : b'.Linked := by
  obtain ⟨-, node, t, hsends, rfl⟩ := exists_windowCreated h
  constructor
  case realm =>
    intro win bid hwin
    obtain ⟨id', w, hid, hw, hassigned⟩ := hb.realm win bid hwin
    exact ⟨id', w, hid, lookup_insert_eq_some.mpr
      (.inr ⟨ne_of_lookup hfresh.windows hw, hw⟩), hassigned⟩
  case named =>
    intro id' w bid hw hbid
    rcases lookup_insert_eq_some.mp hw with ⟨-, rfl⟩ | ⟨-, hw⟩
    · cases hbid
    · exact hb.named id' w bid hw hbid
  case identified =>
    intro bid id' w hbid hw
    rcases lookup_insert_eq_some.mp hw with ⟨rfl, -⟩ | ⟨-, hw⟩
    · exact absurd hbid (hfresh.windowIds bid)
    · exact hb.identified bid id' w hbid hw
  case reported =>
    intro id' w hw hopen
    rcases lookup_insert_eq_some.mp hw with ⟨-, rfl⟩ | ⟨-, hw⟩
    · cases hopen
    · exact hb.reported id' w hw hopen
  case windows_known =>
    intro id' w hw
    rcases lookup_insert_eq_some.mp hw with ⟨rfl, -⟩ | ⟨-, hw⟩
    · exact hsends.objects hknown
    · exact hsends.objects (hb.windows_known id' w hw)
  case windowIds_known =>
    exact fun bid id' hbid => hsends.objects (hb.windowIds_known bid id' hbid)

theorem linked_windowIdentifier (hb : b.Linked)
    (h : b.windowIdentifier id identifier = .ok b') : b'.Linked := by
  obtain ⟨bid, w, -, hfresh, hw, rfl⟩ := exists_windowIdentifier h
  have hother : ∀ {bid' id'}, b.windowIds.lookup bid' = some id' →
      (b.windowIds.insert bid id).lookup bid' = some id' := fun hid =>
    lookup_insert_eq_some.mpr (.inr ⟨ne_of_lookup hfresh hid, hid⟩)
  constructor
  case realm =>
    intro win bid' hwin
    obtain ⟨id', w', hid, hw', hassigned⟩ := hb.realm win bid' hwin
    by_cases heq : id' = id
    · cases hw'.symm.trans (heq ▸ hw)
      exact ⟨id', _, hother hid, lookup_insert_eq_some.mpr (.inl ⟨heq, rfl⟩), hassigned⟩
    · exact ⟨id', w', hother hid, lookup_insert_eq_some.mpr (.inr ⟨heq, hw'⟩), hassigned⟩
  case named =>
    intro id' w' bid' hw' hbid'
    rcases lookup_insert_eq_some.mp hw' with ⟨rfl, rfl⟩ | ⟨-, hw'⟩
    · exact lookup_insert_eq_some.mpr (.inl ⟨(Option.some.inj hbid').symm, rfl⟩)
    · exact hother (hb.named id' w' bid' hw' hbid')
  case identified =>
    intro bid' id' w' hbid' hw'
    rcases lookup_insert_eq_some.mp hw' with ⟨-, rfl⟩ | ⟨hid, hw'⟩
    · rfl
    rcases lookup_insert_eq_some.mp hbid' with ⟨-, rfl⟩ | ⟨-, hbid'⟩
    · exact absurd rfl hid
    · exact hb.identified bid' id' w' hbid' hw'
  case reported =>
    intro id' w' hw' hopen
    rcases lookup_insert_eq_some.mp hw' with ⟨-, rfl⟩ | ⟨-, hw'⟩
    · rfl
    · exact hb.reported id' w' hw' hopen
  case windows_known =>
    intro id' w' hw'
    rcases lookup_insert_eq_some.mp hw' with ⟨rfl, -⟩ | ⟨-, hw'⟩
    · exact hb.windows_known id' w hw
    · exact hb.windows_known id' w' hw'
  case windowIds_known =>
    intro bid' id' hbid'
    rcases lookup_insert_eq_some.mp hbid' with ⟨-, rfl⟩ | ⟨-, hbid'⟩
    · exact hb.windows_known id w hw
    · exact hb.windowIds_known bid' id' hbid'

/-- A name other than that of a closed window still leads to its object. -/
theorem Linked.lookup_elim_erase (hb : b.Linked) {id' : ObjectId}
    (hw : b.windows.lookup id = some w) (hbid : b.windowIds.lookup bid = some id')
    (hne : id' ≠ id) : (w.backendId.elim b.windowIds b.windowIds.erase).lookup bid = some id' := by
  cases hname : w.backendId with
  | none => exact hbid
  | some name =>
    have hlookup := hb.named id w name hw hname
    have hbid' : bid ≠ name := by
      rintro rfl
      exact hne (Option.some.inj (hbid.symm.trans hlookup))
    rw [Option.elim_some, lookup_erase_eq, if_neg hbid', hbid]

theorem lookup_of_elim_erase {K V : Type} [DecidableEq K] {m : Map K V} {o : Option K} {k : K}
    {v : V} (h : (o.elim m m.erase).lookup k = some v) : m.lookup k = some v ∧ o ≠ some k := by
  cases o with
  | none => exact ⟨h, by simp⟩
  | some =>
    obtain ⟨hne, h⟩ := lookup_erase_eq_some.mp h
    exact ⟨h, by simpa using Ne.symm hne⟩

theorem linked_windowClosed (hb : b.Linked) (h : b.windowClosed id = .ok b') : b'.Linked := by
  obtain ⟨w, t, focused, hw, hsends, rfl⟩ := exists_windowClosed h
  have herase : ∀ {id' w'}, (b.windows.erase id).lookup id' = some w' →
      id' ≠ id ∧ b.windows.lookup id' = some w' := lookup_erase_eq_some.mp
  constructor
  case realm =>
    intro win bid hwin
    obtain ⟨hold, hother⟩ : b.realmIds.lookup win = some bid ∧
        (w.backendId.isSome → w.assigned ≠ some win) := by
      simp only at hwin
      split at hwin
      · exact ⟨(lookup_of_elim_erase hwin).1, fun _ => (lookup_of_elim_erase hwin).2⟩
      · exact ⟨hwin, fun h => absurd h ‹_›⟩
    obtain ⟨id', w', hid, hw', hassigned⟩ := hb.realm win bid hold
    -- The record of the window is not the closed one, which is named and assigned elsewhere.
    have hne : id' ≠ id := by
      rintro rfl
      obtain rfl : w' = w := Option.some.inj (hw'.symm.trans hw)
      exact hother (hb.identified bid id' w' hid hw') hassigned
    exact ⟨id', w', hb.lookup_elim_erase hw hid hne, lookup_erase_eq_some.mpr ⟨hne, hw'⟩, hassigned⟩
  case named =>
    intro id' w' bid hw' hbid
    obtain ⟨hne, hw'⟩ := herase hw'
    exact hb.lookup_elim_erase hw (hb.named id' w' bid hw' hbid) hne
  case identified =>
    intro bid id' w' hbid hw'
    exact hb.identified bid id' w' (lookup_of_elim_erase hbid).1 (herase hw').2
  case reported => exact fun id' w' hw' => hb.reported id' w' (herase hw').2
  case windows_known =>
    exact fun id' w' hw' => hsends.objects (hb.windows_known id' w' (herase hw').2)
  case windowIds_known =>
    exact fun bid id' hbid =>
      hsends.objects (hb.windowIds_known bid id' (lookup_of_elim_erase hbid).1)

/-! ## Every event but the start of a sequence -/

/-- The events that change what ties a window to the session. -/
def Ties : Incoming → Prop
  | .windowCreated _ | .windowIdentifier .. | .windowClosed _ => True
  | _ => False

theorem untied_applyEvent (hmanage : event ≠ .manageStart)
    (hties : ¬ Ties event) (h : b.applyEvent event = .ok b') : Untied b b' (b.factOf event) := by
  cases event with
  | windowCreated | windowIdentifier | windowClosed => exact absurd trivial hties
  | manageStart => exact absurd rfl hmanage
  | windowAppId id appId =>
    refine untied_modifyWindow (f := fun w => { w with appId := appId }) ?_ h
    exact fun _ => rfl
  | windowTitle => exact untied_windowTitle h
  | windowDimensions => exact untied_windowDimensions h
  | outputCreated => exact untied_outputCreated h
  | outputPosition => exact untied_modifyOutput h
  | outputDimensions =>
    simp only [applyEvent] at h
    split at h
    · cases h
    · exact untied_modifyOutput h
  | outputRemoved => exact untied_outputRemoved h
  | seatCreated => exact untied_seatCreated h
  | seatRemoved => exact untied_seatRemoved h
  | windowInteracted => exact untied_windowInteracted h
  | workarea => exact untied_workarea h
  | exclusiveFocus =>
    cases h
    exact untied_of_bindings_eq (.refl _) rfl rfl
  | bindingPressed | bindingReleased | bindingRepeatStopped => exact untied_bindingFact h
  | unboundKeyEaten =>
    cases h
    exact b.untied_retain _
  | modifiersChanged => exact untied_modifiersChanged h
  | managerUnavailable | global | globalRemoved | syncDone | malformed => cases h
  | _ =>
    simp only [applyEvent] at h
    exact untied_applyInputEvent h

theorem applied_applyEvent (hmanage : event ≠ .manageStart)
    (h : b.applyEvent event = .ok b') : Applied b b' (b.factOf event) := by
  by_cases hties : Ties event
  · cases event with
    | windowCreated =>
      obtain ⟨-, node, t, hsends, rfl⟩ := exists_windowCreated h
      exact ⟨rfl, hsends, by simp [factOf], fun _ => .inl⟩
    | windowIdentifier =>
      obtain ⟨bid, w, -, -, -, rfl⟩ := exists_windowIdentifier h
      exact ⟨rfl, .refl _, by simp [factOf], fun _ => .inl⟩
    | windowClosed =>
      obtain ⟨w, t, focused, -, hsends, rfl⟩ := exists_windowClosed h
      exact ⟨rfl, hsends, rfl, fun _ => .inl⟩
    | _ => exact hties.elim
  · exact (untied_applyEvent hmanage hties h).toApplied

/-- What is new of a created window: River has not named its object before. -/
def Fresh (b : RiverBackend) (event : Incoming) : Prop :=
  ∀ id, event = .windowCreated id → b.Unlinked id ∧ id ∈ b.transport.objects

theorem linked_applyEvent (hb : b.Linked) (hfresh : b.Fresh event)
    (hmanage : event ≠ .manageStart) (h : b.applyEvent event = .ok b') : b'.Linked := by
  by_cases hties : Ties event
  · cases event with
    | windowCreated id =>
      exact linked_windowCreated hb (hfresh id rfl).1 (hfresh id rfl).2 h
    | windowIdentifier => exact linked_windowIdentifier hb h
    | windowClosed => exact linked_windowClosed hb h
    | _ => exact hties.elim
  · exact (untied_applyEvent hmanage hties h).linked hb

/-- A record that is not reported takes the place of none, or of one that is not either. -/
theorem openedIds_insert_pending (hb' : b'.windows = b.windows.insert id w')
    (hnew : w'.pendingOpen = true)
    (hold : ∀ w, b.windows.lookup id = some w → w.pendingOpen = true) :
    b'.openedIds = b.openedIds := by
  ext bid
  simp only [mem_openedIds, hb', lookup_insert_eq_some]
  constructor
  · rintro ⟨id', w, ⟨-, rfl⟩ | ⟨-, hw⟩, hopen, hbid⟩
    · simp [hnew] at hopen
    · exact ⟨id', w, hw, hopen, hbid⟩
  · rintro ⟨id', w, hw, hopen, hbid⟩
    refine ⟨id', w, .inr ⟨?_, hw⟩, hopen, hbid⟩
    rintro rfl
    simp [hold w hw] at hopen

theorem openedIds_windowCreated (hfresh : b.Unlinked id)
    (h : b.windowCreated id = .ok b') : b'.openedIds = b.openedIds := by
  obtain ⟨-, node, t, -, rfl⟩ := exists_windowCreated h
  exact openedIds_insert_pending rfl rfl fun w hw => absurd rfl (ne_of_lookup hfresh.windows hw)

theorem openedIds_windowIdentifier
    (hpending : ∀ w, b.windows.lookup id = some w → w.pendingOpen = true)
    (h : b.windowIdentifier id identifier = .ok b') : b'.openedIds = b.openedIds := by
  obtain ⟨bid, w, -, -, hw, rfl⟩ := exists_windowIdentifier h
  exact openedIds_insert_pending rfl (hpending w hw) hpending

theorem openedIds_windowClosed (hb : b.Linked) (h : b.windowClosed id = .ok b') :
    b'.openedIds = (b.factOf (.windowClosed id)).elim b.openedIds (advance b.openedIds) := by
  obtain ⟨w, t, focused, hw, -, rfl⟩ := exists_windowClosed h
  ext bid
  simp only [mem_openedIds, lookup_erase_eq_some]
  have hrest : (∃ id' w', (id' ≠ id ∧ b.windows.lookup id' = some w') ∧
      w'.pendingOpen = false ∧ w'.backendId = some bid) ↔
      bid ∈ b.openedIds ∧ ¬ (w.pendingOpen = false ∧ w.backendId = some bid) := by
    rw [mem_openedIds]
    constructor
    · rintro ⟨id', w', ⟨hne, hw'⟩, hopen, hbid⟩
      refine ⟨⟨id', w', hw', hopen, hbid⟩, fun ⟨_, hname⟩ => hne ?_⟩
      exact Option.some.inj ((hb.named id' w' bid hw' hbid).symm.trans (hb.named id w bid hw hname))
    · rintro ⟨⟨id', w', hw', hopen, hbid⟩, hother⟩
      refine ⟨id', w', ⟨?_, hw'⟩, hopen, hbid⟩
      rintro rfl
      cases hw'.symm.trans hw
      exact hother ⟨hopen, hbid⟩
  rw [hrest]
  cases hpending : w.pendingOpen with
  | true => simp [factOf, hw, hpending]
  | false =>
    obtain ⟨name, hname⟩ := Option.isSome_iff_exists.mp (hb.reported id w hw hpending)
    simp only [factOf, hw, hpending, hname, Option.bind_some, Bool.false_eq_true, if_false,
      Option.map_some, Option.elim_some, advance, Finset.mem_erase, true_and, Option.some.injEq]
    rw [and_comm, eq_comm]

theorem advance_of_not_ties (hties : ¬ Ties event)
    (h : b.factOf event = some fact) (known : Finset BackendWindowId) :
    advance known fact = known := by
  cases event with
  | windowCreated | windowIdentifier | windowClosed => exact absurd trivial hties
  | windowTitle =>
    obtain ⟨w, -, hw⟩ := Option.bind_eq_some_iff.mp h
    split at hw
    · cases hw
    · obtain ⟨bid, -, rfl⟩ := Option.map_eq_some_iff.mp hw
      rfl
  | windowDimensions =>
    obtain ⟨bid, -, rect, rfl⟩ := factOf_windowDimensions h
    rfl
  | windowInteracted =>
    obtain ⟨bid, -, rfl⟩ := Option.map_eq_some_iff.mp h
    rfl
  | workarea =>
    obtain ⟨area, rfl⟩ := factOf_workarea h
    rfl
  | modifiersChanged =>
    obtain ⟨old, -, hnew⟩ := Option.bind_eq_some_iff.mp h
    obtain ⟨new, -, rfl⟩ := Option.map_eq_some_iff.mp hnew
    rfl
  | exclusiveFocus | bindingPressed | bindingReleased | bindingRepeatStopped | unboundKeyEaten =>
    cases h
    rfl
  | _ => cases h

/-- A window is named while it is not reported. -/
def NamesNew (b : RiverBackend) (event : Incoming) : Prop :=
  ∀ id identifier w, event = .windowIdentifier id identifier → b.windows.lookup id = some w →
    w.pendingOpen = true

theorem openedIds_applyEvent (hb : b.Linked) (hfresh : b.Fresh event)
    (hnames : b.NamesNew event) (hmanage : event ≠ .manageStart) (h : b.applyEvent event = .ok b') :
    b'.openedIds = (b.factOf event).elim b.openedIds (advance b.openedIds) := by
  by_cases hties : Ties event
  · cases event with
    | windowCreated id => exact openedIds_windowCreated (hfresh id rfl).1 h
    | windowIdentifier id identifier =>
      exact openedIds_windowIdentifier (fun w => hnames id identifier w rfl) h
    | windowClosed => exact openedIds_windowClosed hb h
    | _ => exact hties.elim
  · rw [(untied_applyEvent hmanage hties h).openedIds]
    cases hfact : b.factOf event with
    | none => rfl
    | some => exact (advance_of_not_ties hties hfact _).symm

end RiverBackend

end Realm

import Realm.River.Retention

/-!
# What a turn can report

The number of windows is bounded, binding objects exist for configured bindings only,
and no output is selected before the first turn.  A manage sequence reports every window
that waits, so the opens of a turn advance the reported identities to all named windows.
-/

namespace Realm

open River Guard Map AList

namespace RiverBackend

variable {b b' : RiverBackend} {configured : BackendBindingId → Prop} {id : ObjectId}
  {event : Incoming} {ready : BackendReady}

/-! ## What every move keeps -/

theorem SameBindings.mem_windows (h : SameBindings b b') (hid : id ∈ b'.windows) :
    id ∈ b.windows := by
  obtain ⟨w', hw'⟩ := mem_iff_lookup.mp hid
  obtain ⟨w, hw, -⟩ := h.lookup hw'
  exact mem_iff_lookup.mpr ⟨w, hw⟩

/-- The windows are few, the bindings are those configured, and no output is selected
while the replay is not over. -/
structure Kept (configured : BackendBindingId → Prop) (b : RiverBackend) : Prop where
  windows_le : b.windows.keys.length ≤ maxManagedWindows
  bindings : ∀ id ∈ b.bindings, configured id
  objects : ∀ id ∈ b.bindingObjects, configured id
  unselected : b.replay = true → b.selectedOutput = none ∧ b.selectedOutputLost = false

namespace Kept

theorem of_windows (hb : Kept configured b) (hwindows : b'.windows.keys.length ≤ maxManagedWindows)
    (hbindings : b'.bindings = b.bindings)
    (hobjects : ∀ id, id ∈ b'.bindingObjects → id ∈ b.bindingObjects ∨ id ∈ b.bindings)
    (hselected : b'.replay = true → b.replay = true ∧
      (b.selectedOutput = none → b.selectedOutputLost = false →
        b'.selectedOutput = none ∧ b'.selectedOutputLost = false)) : Kept configured b' where
  windows_le := hwindows
  bindings id hid := hb.bindings id (hbindings ▸ hid)
  objects id hid := (hobjects id hid).elim (hb.objects id) (hb.bindings id)
  unselected hreplay := by
    obtain ⟨hreplay, hkeep⟩ := hselected hreplay
    obtain ⟨hnone, hlost⟩ := hb.unselected hreplay
    exact hkeep hnone hlost

theorem of_repaints (h : Repaints b b') (hb : Kept configured b) : Kept configured b' := by
  have hsame := h.sameBindings
  have hobjects := h.bindingObjects
  obtain ⟨⟨_, windows, _, _, objects, _, _, rfl⟩, -, -, -⟩ := h
  refine hb.of_windows ((length_keys_le fun id hid => ?_).trans hb.windows_le) rfl
    (fun id hid => .inl ?_) fun hreplay => ⟨hreplay, fun hnone hlost => ⟨hnone, hlost⟩⟩
  · exact hsame.mem_windows hid
  · rw [← lookup_isSome] at hid ⊢
    exact (hobjects id).symm.trans hid

end Kept

theorem selected_ensureSeat (h : b.ensureSeat id = .ok b') :
    b'.selectedOutput = b.selectedOutput ∧ b'.selectedOutputLost = b.selectedOutputLost := by
  unfold ensureSeat at h
  split at h
  · cases h
    exact ⟨rfl, rfl⟩
  unfold selectSeat at h
  simp only [fail, ite_error_eq_ok] at h
  obtain ⟨-, -, h⟩ := h
  obtain ⟨d, hd, h⟩ := bind_eq_ok.mp h
  cases h
  obtain ⟨_, _, -, -, rfl⟩ := exists_createBindings hd
  exact ⟨rfl, rfl⟩

theorem selected_applyEvent (hmanage : event ≠ .manageStart) (h : b.applyEvent event = .ok b')
    (hnone : b.selectedOutput = none) :
    b'.selectedOutput = none ∧ b'.selectedOutputLost = b.selectedOutputLost := by
  cases event with
  | manageStart => exact absurd rfl hmanage
  | windowCreated =>
    obtain ⟨-, _, _, -, rfl⟩ := exists_windowCreated h
    exact ⟨hnone, rfl⟩
  | windowIdentifier =>
    obtain ⟨_, _, -, -, -, rfl⟩ := exists_windowIdentifier h
    exact ⟨hnone, rfl⟩
  | windowClosed =>
    obtain ⟨_, _, _, -, -, rfl⟩ := exists_windowClosed h
    exact ⟨hnone, rfl⟩
  | windowAppId | windowTitle | windowDimensions | outputCreated | outputPosition
    | outputDimensions | outputRemoved | windowInteracted | workarea | modifiersChanged
    | bindingPressed | bindingReleased | bindingRepeatStopped =>
      simp only [applyEvent, modifyWindow, windowTitle, windowDimensions, outputCreated,
        modifyOutput, outputRemoved, windowInteracted, workarea, modifiersChanged, bindingFact,
        retain, destroy, send, fail, bind_eq_ok, ite_error_eq_ok] at h
      grind
  | seatCreated =>
    obtain ⟨_, -, h⟩ := bind_eq_ok.mp (ite_error_eq_ok.mp h).2
    obtain ⟨c, hseat, h⟩ := bind_eq_ok.mp h
    cases h
    obtain ⟨hselected, hlost⟩ := selected_ensureSeat hseat
    exact ⟨hselected.trans hnone, hlost⟩
  | seatRemoved id =>
    obtain ⟨-, h⟩ := ite_error_eq_ok.mp h
    cases h
    simp only [destroy]
    split
    · obtain ⟨t, -, heq⟩ := exists_destroyAll { b with seats := b.seats.erase id }
        (b.layerSeat.toList ++ b.xkbSeat.toList ++
          (b.bindingObjects.entries.insertionSort fun a c => a.1.raw ≤ c.1.raw).map (·.2.proxy))
      simp only [dropSeat, heq]
      exact ⟨hnone, trivial⟩
    · exact ⟨hnone, rfl⟩
  | exclusiveFocus _ | unboundKeyEaten =>
    cases h
    exact ⟨hnone, rfl⟩
  | managerUnavailable | global | globalRemoved | syncDone | malformed => cases h
  | _ =>
    simp only [applyEvent] at h
    rw [(applyInputEvent_eq_ok h).2]
    exact ⟨hnone, rfl⟩

theorem windows_le_applyEvent (hb : b.windows.keys.length ≤ maxManagedWindows)
    (hmanage : event ≠ .manageStart) (h : b.applyEvent event = .ok b') :
    b'.windows.keys.length ≤ maxManagedWindows := by
  by_cases hties : Ties event
  · cases event with
    | windowCreated =>
      obtain ⟨hne, _, _, -, rfl⟩ := exists_windowCreated h
      exact (length_keys_insert_le _ _ _).trans (Nat.lt_of_le_of_ne hb hne)
    | windowIdentifier =>
      obtain ⟨_, w, -, -, hw, rfl⟩ := exists_windowIdentifier h
      refine (length_keys_le fun id' hid' => ?_).trans hb
      rcases (mem_insert _).mp hid' with rfl | hid'
      · exact mem_iff_lookup.mpr ⟨w, hw⟩
      · exact hid'
    | windowClosed =>
      obtain ⟨_, _, _, -, -, rfl⟩ := exists_windowClosed h
      exact (length_keys_le fun id' hid' => (mem_erase.mp hid').2).trans hb
    | _ => exact hties.elim
  · refine (length_keys_le fun id hid => ?_).trans hb
    exact (untied_applyEvent hmanage hties h).toSameBindings.mem_windows hid

namespace Kept

theorem of_rests (hb : Kept configured b) (hwindows : b'.windows = b.windows)
    (hbindings : b'.bindings = b.bindings) (hobjects : b'.bindingObjects = b.bindingObjects)
    (hreplay : b'.replay = b.replay) (hselected : b'.selectedOutput = b.selectedOutput)
    (hlost : b'.selectedOutputLost = b.selectedOutputLost) : Kept configured b' :=
  hb.of_windows (hwindows ▸ hb.windows_le) hbindings (fun _ hid => .inl (hobjects ▸ hid))
    fun h => ⟨hreplay ▸ h, fun hnone hlost' => ⟨hselected.trans hnone, hlost.trans hlost'⟩⟩

theorem of_flushed (hb : Kept configured b) (h : Flushed b b') : Kept configured b' := by
  cases h <;> exact hb.of_rests rfl rfl rfl rfl rfl rfl

theorem of_finishPolicyTurn (hb : Kept configured b) (h : b.finishPolicyTurn = .ok b') :
    Kept configured b' := by
  obtain ⟨_, _, _, _, _, -, -, rfl⟩ := exists_finishPolicyTurn h
  refine hb.of_windows ((length_keys_le fun id hid => ?_).trans hb.windows_le) rfl
    (fun _ hid => .inl hid) fun hreplay => absurd hreplay (by simp)
  obtain ⟨w', hw'⟩ := mem_iff_lookup.mp hid
  rw [lookup_reportedWindows] at hw'
  obtain ⟨w, hw, -⟩ := Option.map_eq_some_iff.mp hw'
  exact mem_iff_lookup.mpr ⟨w, hw⟩

theorem of_applyRuntimeEvent (hb : Kept configured b) (h : b.applyRuntimeEvent event = .ok b') :
    Kept configured b' := by
  rcases applyRuntimeEvent_cases h with ⟨-, h⟩ | ⟨-, h⟩ | ⟨-, hmanage, h, -⟩
  · obtain ⟨_, -, hpaint⟩ := exists_renderStart h
    exact of_repaints hpaint (hb.of_rests rfl rfl rfl rfl rfl rfl)
  · obtain ⟨c, hcompletes, hfinish⟩ := exists_manageStart h
    refine of_finishPolicyTurn ?_ hfinish
    cases hcompletes <;> exact hb.of_rests rfl rfl rfl rfl rfl rfl
  · have happlied := applied_applyEvent hmanage h
    have hexchange := happlied.exchange
    simp only [exchange, Exchange.mk.injEq] at hexchange
    refine hb.of_windows (windows_le_applyEvent hb.windows_le hmanage h) (by simp [hexchange])
      happlied.bindingObjects fun hreplay => ⟨by simpa [hexchange] using hreplay, ?_⟩
    intro hnone hlost
    obtain ⟨hselected, hsame⟩ := selected_applyEvent hmanage h hnone
    exact ⟨hselected, hsame.trans hlost⟩

theorem of_quantum (hb : Kept configured b) {event : Option BackendEvent}
    (h : Quantum b ready event b') : Kept configured b' := by
  cases h with
  | @flush t _ _ _ hflushed =>
    exact of_flushed (b := { b with transport := t }) (hb.of_rests rfl rfl rfl rfl rfl rfl) hflushed
  | @deliver t _ _ _ _ _ happly =>
    exact of_applyRuntimeEvent (b := { b with transport := t })
      (hb.of_rests rfl rfl rfl rfl rfl rfl) happly
  | _ => exact hb.of_rests rfl rfl rfl rfl rfl rfl

theorem of_ask (hb : Kept configured b) (h : Ask b b') : Kept configured b' := by
  cases h with
  | assign h =>
    obtain ⟨id, w, -, hw, ⟨-, rfl⟩ | ⟨-, -, rfl⟩⟩ := exists_assignWindow h
    · exact hb
    refine hb.of_windows ((length_keys_le fun id' hid' => ?_).trans hb.windows_le) rfl
      (fun _ hid => .inl hid) fun hreplay => ⟨hreplay, fun hnone hlost => ⟨hnone, hlost⟩⟩
    rcases (mem_insert _).mp hid' with rfl | hid'
    · exact mem_iff_lookup.mpr ⟨w, hw⟩
    · exact hid'
  | request h =>
    obtain ⟨-, -, _, hpaint⟩ := exists_requestPolicyTurn h
    exact of_repaints hpaint (hb.of_rests rfl rfl rfl rfl rfl rfl)
  | respond h =>
    obtain ⟨-, _, -, hpaint⟩ := exists_respondPolicyTurn h
    exact of_repaints hpaint (hb.of_rests rfl rfl rfl rfl rfl rfl)
  | exit h =>
    obtain ⟨-, -, hpaint⟩ := exists_beginExitSession h
    exact of_repaints hpaint (hb.of_rests rfl rfl rfl rfl rfl rfl)

theorem of_move (hb : Kept configured b) {label : Option Incoming} (h : Move b label b') :
    Kept configured b' := by
  cases h with
  | river => exact hb.of_rests rfl rfl rfl rfl rfl rfl
  | ask h => exact hb.of_ask h
  | service h => exact hb.of_quantum (quantum_of_service h)

theorem of_connected {handshake : Handshake} {specs : List BackendBindingSpec} {c : RiverBackend}
    (hconnect : (fromConnection handshake).connect = .ok c)
    (h : c.configureBindings specs = .ok b) (hspecs : ∀ spec ∈ specs, configured spec.id) :
    Kept configured b := by
  obtain ⟨-, -, d, ⟨⟨_, _, _, _, _, _, _, _, _, _, _, rfl⟩, -⟩, rfl⟩ := exists_connected hconnect h
  refine ⟨by simp [fromConnection], fun id hid => ?_, by simp [fromConnection], fun _ => ⟨rfl, rfl⟩⟩
  obtain ⟨spec, hspec, rfl⟩ | hnone :=
    (mem_foldl_insert (·.id) (fun spec : BackendBindingSpec => spec) specs ∅).mp hid
  · exact hspecs spec hspec
  · exact absurd hnone (notMem_empty _)

end Kept

/-! ## The queue of public events -/

/-- A move that starts no manage sequence queues no turn, and nothing at all while no
response is under way. -/
structure Queues (b b' : RiverBackend) : Prop where
  nextTurn : b'.nextTurn = b.nextTurn
  publicEvents : ∃ extra, b'.publicEvents = b.publicEvents ++ extra ∧
    (∀ turn, .policyTurn turn ∉ extra) ∧
    (b.pendingResponse = none → b.drainTicket = none → extra = [])

namespace Queues

theorem of_eq (hturn : b'.nextTurn = b.nextTurn) (hevents : b'.publicEvents = b.publicEvents) :
    Queues b b' :=
  ⟨hturn, [], by simp [hevents], by simp, fun _ _ => rfl⟩

theorem of_requestPolicyTurn (h : b.requestPolicyTurn = .ok b') : Queues b b' := by
  obtain ⟨-, -, _, hpaint⟩ := exists_requestPolicyTurn h
  obtain ⟨⟨_, _, _, _, _, _, _, rfl⟩, -, -, -⟩ := hpaint
  exact .of_eq rfl rfl

theorem of_flushed (h : Flushed b b') : Queues b b' := by
  cases h with
  | exit | quiet => exact .of_eq rfl rfl
  | failed _ hpending | completed _ hpending =>
    exact ⟨rfl, _, rfl, by simp, fun hnone => absurd (hnone.symm.trans hpending) (by simp)⟩

theorem of_applyRuntimeEvent (hmanage : event ≠ .manageStart)
    (h : b.applyRuntimeEvent event = .ok b') : Queues b b' := by
  rcases applyRuntimeEvent_cases h with ⟨-, h⟩ | ⟨heq, -⟩ | ⟨-, -, h, -⟩
  · obtain ⟨_, -, hpaint⟩ := exists_renderStart h
    obtain ⟨⟨_, _, _, _, _, _, _, rfl⟩, -, -, -⟩ := hpaint
    exact .of_eq rfl rfl
  · exact absurd heq hmanage
  · have hexchange := (applied_applyEvent hmanage h).exchange
    simp only [exchange, Exchange.mk.injEq] at hexchange
    exact .of_eq (by simp [hexchange]) (by simp [hexchange])

theorem of_quantum (h : Quantum b ready none b') (hmanage : b.delivered ready ≠ some .manageStart) :
    Queues b b' := by
  cases h with
  | partialFlush | exitWait | answering | read => exact .of_eq rfl rfl
  | flush _ _ hflushed =>
    obtain ⟨hturn, hevents⟩ := of_flushed hflushed
    exact ⟨hturn, hevents⟩
  | drain hidle _ _ hticket =>
    refine ⟨rfl, [_], by rw [hidle.publicEvents]; rfl, by simp, fun _ hnone => ?_⟩
    exact absurd (hnone.symm.trans hticket) (by simp)
  | deliver _ hdelivered _ happly =>
    obtain ⟨hturn, hevents⟩ := of_applyRuntimeEvent
      (fun heq => hmanage (hdelivered.trans (congrArg some heq))) happly
    exact ⟨hturn, hevents⟩

end Queues

end RiverBackend

end Realm

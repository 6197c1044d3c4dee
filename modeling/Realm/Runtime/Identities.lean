import Realm.Runtime.System

/-!
# Identity maps

River names the object of a window once, and the session numbers the name. Two maps of the
backend lead from the number to the name and from the name to the object, and the record
of the object holds both. They say the same after every run in which no object is named
twice, for any calls of the session and any order of events.
-/

namespace Realm

open River Option Map

namespace RiverBackend

variable {b b' : RiverBackend} {id : ObjectId} {bid : BackendWindowId} {win : WinId}
  {named : List ObjectId} {events : List Incoming}

/-- A run of the backend, with the events of River that it applies. -/
inductive Run (b : RiverBackend) : List Incoming → RiverBackend → Prop
  | refl : Run b [] b
  | tail {events : List Incoming} {c d : RiverBackend} {label : Option Incoming}
      (h : Run b events c) (hmove : Move c label d) : Run b (events ++ label.toList) d

/-- The object that gets an identifier. -/
def identifies : Incoming → Option ObjectId
  | .windowIdentifier id _ => some id
  | _ => none

/-- Each window object gets at most one identifier. -/
def NamedOnce (events : List Incoming) : Prop :=
  (events.filterMap identifies).Nodup

/-- The identity maps are inverse to what the records say. -/
structure Inverse (b : RiverBackend) : Prop where
  windowIds : ∀ bid id, b.windowIds.lookup bid = some id ↔
    ∃ w, b.windows.lookup id = some w ∧ w.backendId = some bid
  realmIds : ∀ win bid, b.realmIds.lookup win = some bid ↔
    ∃ id w, b.windowIds.lookup bid = some id ∧ b.windows.lookup id = some w ∧ w.assigned = some win
  assigned : ∀ win id id' w w', b.windows.lookup id = some w → b.windows.lookup id' = some w' →
    w.assigned = some win → w'.assigned = some win → id = id'
  reported : ∀ id w, b.windows.lookup id = some w → w.pendingOpen = false → w.backendId.isSome

/-- What holds in addition while the objects named so far are `named`. -/
structure Tied (named : List ObjectId) (b : RiverBackend) : Prop where
  live : ∀ bid id, b.windowIds.lookup bid = some id →
    ∃ w, b.windows.lookup id = some w ∧ w.backendId = some bid
  bound : ∀ id w win, b.windows.lookup id = some w → w.assigned = some win →
    ∃ bid, w.backendId = some bid ∧ b.realmIds.lookup win = some bid
  given : ∀ id w, b.windows.lookup id = some w → w.backendId.isSome → id ∈ named

theorem Tied.assigned_inj (hb : b.Linked) (h : Tied named b) {id' : ObjectId} {w w' : Window}
    (hw : b.windows.lookup id = some w) (hw' : b.windows.lookup id' = some w')
    (hwin : w.assigned = some win) (hwin' : w'.assigned = some win) : id = id' := by
  obtain ⟨bid, hbid, hrealm⟩ := h.bound id w win hw hwin
  obtain ⟨bid', hbid', hrealm'⟩ := h.bound id' w' win hw' hwin'
  cases hrealm.symm.trans hrealm'
  exact some.inj ((hb.named id w bid hw hbid).symm.trans (hb.named id' w' bid hw' hbid'))

theorem Tied.inverse (hb : b.Linked) (h : Tied named b) : b.Inverse where
  windowIds bid id := ⟨h.live bid id, fun ⟨w, hw, hbid⟩ => hb.named id w bid hw hbid⟩
  realmIds win bid := by
    refine ⟨hb.realm win bid, ?_⟩
    rintro ⟨id, w, hid, hw, hassigned⟩
    obtain ⟨bid', hbid', hrealm⟩ := h.bound id w win hw hassigned
    obtain ⟨w', hw', hbid⟩ := h.live bid id hid
    cases hw'.symm.trans hw
    cases hbid.symm.trans hbid'
    exact hrealm
  assigned _ _ _ _ _ hw hw' hwin hwin' := h.assigned_inj hb hw hw' hwin hwin'
  reported := hb.reported

/-! ## Steps -/

/-- What the record of a window says about its identity. -/
def tie (w : Window) : Option BackendWindowId × Option WinId :=
  (w.backendId, w.assigned)

def SameTies (b b' : RiverBackend) : Prop :=
  (∀ id, (b'.windows.lookup id).map tie = (b.windows.lookup id).map tie) ∧
    b'.windowIds = b.windowIds ∧ b'.realmIds = b.realmIds

theorem SameBindings.sameTies (h : SameBindings b b') : SameTies b b' := by
  refine ⟨fun id => ?_, h.windowIds, h.realmIds⟩
  have hid := congrArg (Option.map fun t => (t.1, t.2.2)) (h.windows id)
  rw [map_map, map_map] at hid
  exact hid

theorem Tied.of_sameTies (hb : Tied named b) (h : SameTies b b') : Tied named b' := by
  obtain ⟨hwindows, hids, hrealm⟩ := h
  obtain ⟨hlive, hbound, hgiven⟩ := hb
  refine ⟨fun bid id => ?_, fun id => ?_, fun id => ?_⟩
  all_goals
    have hid := hwindows id
    cases hw : b.windows.lookup id <;> cases hw' : b'.windows.lookup id <;>
      simp only [hw, hw', Option.map, tie] at hid <;> grind

theorem tied_windowCreated (hb : Tied named b) (hfresh : b.Unlinked id)
    (h : b.windowCreated id = .ok b') : Tied named b' := by
  obtain ⟨-, node, t, -, rfl⟩ := exists_windowCreated h
  obtain ⟨hlive, hbound, hgiven⟩ := hb
  obtain ⟨hwindows, hids⟩ := hfresh
  -- A new record has neither a name nor a number.
  constructor <;> simp only [lookup_insert_eq] <;> grind [Window.new]

theorem tied_windowIdentifier {identifier : String} (hb : Tied named b) (hid : id ∉ named)
    (h : b.windowIdentifier id identifier = .ok b') : Tied (named ++ [id]) b' := by
  obtain ⟨bid, w, -, -, hw, rfl⟩ := exists_windowIdentifier h
  obtain ⟨hlive, hbound, hgiven⟩ := hb
  -- The object had no name, so no name led to it and it had no number.
  have hnone : w.backendId = none := by
    by_contra hsome
    exact hid (hgiven id w hw (isSome_iff_ne_none.mpr hsome))
  constructor <;> simp only [lookup_insert_eq] <;> grind

theorem tied_windowClosed (hb : Tied named b) (hlinked : b.Linked)
    (h : b.windowClosed id = .ok b') : Tied named b' := by
  obtain ⟨w, t, focused, hw, -, rfl⟩ := exists_windowClosed h
  constructor
  case live =>
    intro bid id' hbid
    obtain ⟨hold, hother⟩ := lookup_of_elim_erase hbid
    obtain ⟨w', hw', hname⟩ := hb.live bid id' hold
    refine ⟨w', ?_, hname⟩
    rw [lookup_erase_eq]
    grind
  case bound =>
    intro id' w' win hw' hwin
    rw [lookup_erase_eq] at hw'
    split at hw'
    · cases hw'
    rename_i hne
    obtain ⟨bid, hname, hrealm⟩ := hb.bound id' w' win hw' hwin
    -- The number of the closed window is another one.
    have hother : w.assigned ≠ some win :=
      fun hassigned => hne (hb.assigned_inj hlinked hw' hw hwin hassigned)
    refine ⟨bid, hname, ?_⟩
    cases hassigned : w.assigned <;> grind [lookup_erase_eq]
  case given =>
    intro id' w'
    rw [lookup_erase_eq]
    grind [hb.given id' w']

theorem tied_assignWindow (hb : Tied named b) (h : b.assignWindow bid win = .ok b') :
    Tied named b' := by
  obtain ⟨id, w, hid, hw, ⟨-, rfl⟩ | ⟨-, hfree, rfl⟩⟩ := exists_assignWindow h
  · exact hb
  obtain ⟨hlive, hbound, hgiven⟩ := hb
  obtain ⟨w', hw', hname⟩ := hlive bid id hid
  constructor <;> simp only [lookup_insert_eq] <;> grind

theorem tied_applyRuntimeEvent {event : Incoming} (hb : Tied named b) (hlinked : b.Linked)
    (hfresh : b.Fresh event) (hnew : ∀ id, identifies event = some id → id ∉ named)
    (h : b.applyRuntimeEvent event = .ok b') : Tied (named ++ (identifies event).toList) b' := by
  have hsame : SameTies b b' → identifies event = none →
      Tied (named ++ (identifies event).toList) b' := fun hsame hnone => by
    simpa [hnone] using hb.of_sameTies hsame
  rcases applyRuntimeEvent_cases h with ⟨rfl, hrender⟩ | ⟨rfl, hmanage⟩ | ⟨-, hmanage, happly, -⟩
  · obtain ⟨_, -, hpaint⟩ := exists_renderStart hrender
    exact hsame hpaint.sameBindings.sameTies rfl
  · obtain ⟨c, hcompletes, hfinish⟩ := exists_manageStart hmanage
    obtain ⟨_, _, _, _, _, -, -, rfl⟩ := exists_finishPolicyTurn hfinish
    have hrests := rests_completes hcompletes
    refine hsame ⟨fun id => ?_, hrests.windowIds, hrests.realmIds⟩ rfl
    rw [lookup_reportedWindows, hrests.windows, map_map]
    rfl
  by_cases hties : Ties event
  · cases event with
    | windowCreated id =>
      simpa [identifies] using tied_windowCreated hb (hfresh id rfl).1 happly
    | windowIdentifier id => exact tied_windowIdentifier hb (hnew id rfl) happly
    | windowClosed => simpa [identifies] using tied_windowClosed hb hlinked happly
    | _ => exact hties.elim
  · refine hsame (untied_applyEvent hmanage hties happly).sameTies ?_
    cases event with
    | windowIdentifier => exact absurd trivial hties
    | _ => rfl

theorem tied_of_move {label : Option Incoming} (hsound : b.Sound) (hb : Tied named b)
    (hnew : ∀ id, label.bind identifies = some id → id ∉ named) (h : Move b label b') :
    Tied (named ++ (label.bind identifies).toList) b' := by
  cases h with
  | river =>
    rw [bind_none, toList_none, List.append_nil]
    exact hb.of_sameTies ⟨fun _ => rfl, rfl, rfl⟩
  | ask h =>
    rw [bind_none, toList_none, List.append_nil]
    cases h with
    | assign h => exact tied_assignWindow hb h
    | request h =>
      obtain ⟨-, -, _, hpaint⟩ := exists_requestPolicyTurn h
      exact hb.of_sameTies hpaint.sameBindings.sameTies
    | respond h =>
      obtain ⟨-, _, -, hpaint⟩ := exists_respondPolicyTurn h
      exact hb.of_sameTies hpaint.sameBindings.sameTies
    | exit h =>
      obtain ⟨-, -, hpaint⟩ := exists_beginExitSession h
      exact hb.of_sameTies hpaint.sameBindings.sameTies
  | @service ready _ _ h =>
    cases hlabel : b.delivered ready with
    | some event =>
      obtain ⟨-, t, ht, hservice⟩ := service_of_delivered hlabel
      rw [hservice] at h
      obtain ⟨c, happly, heq⟩ := Guard.map_eq_ok.mp h
      obtain rfl : c = b' := congrArg Prod.snd heq
      rw [hlabel] at hnew
      have hlinked := (hsound.of_transport ht.reads.objects).linked
      refine tied_applyRuntimeEvent ?_ hlinked (hsound.fresh_of_dispatches ht) hnew happly
      exact hb.of_sameTies ⟨fun _ => rfl, rfl, rfl⟩
    | none =>
      rw [bind_none, toList_none, List.append_nil]
      cases quantum_of_service h with
      | flush _ _ hflushed =>
        have hrests := rests_flushed hflushed
        exact hb.of_sameTies ⟨fun _ => by rw [hrests.windows], hrests.windowIds, hrests.realmIds⟩
      | deliver _ hdelivered => simp [hlabel] at hdelivered
      | _ => exact hb.of_sameTies ⟨fun _ => rfl, rfl, rfl⟩

/-! ## Runs -/

theorem sound_of_run (hb : b.Sound) (h : Run b events b') : b'.Sound := by
  induction h with
  | refl => exact hb
  | tail _ hmove ih => exact ih.of_move hmove

theorem tied_of_run (hsound : b.Sound) (hb : Tied [] b) (h : Run b events b')
    (honce : NamedOnce events) : Tied (events.filterMap identifies) b' := by
  induction h with
  | refl => exact hb
  | @tail events _ _ label hrun hmove ih =>
    have hsplit : (events ++ label.toList).filterMap identifies =
        events.filterMap identifies ++ (label.bind identifies).toList := by
      cases label with
      | none => simp
      | some event => cases hid : identifies event <;> simp [hid]
    rw [NamedOnce, hsplit, List.nodup_append] at honce
    rw [hsplit]
    refine tied_of_move (sound_of_run hsound hrun) (ih honce.1) (fun id hid hmem => ?_) hmove
    exact honce.2.2 id hmem id (by simp [hid]) rfl

/-- From a new connection on, the identity maps stay inverse to each other as long as no
window object gets a second identifier. -/
theorem identities_inverse {handshake : Handshake} {specs : List BackendBindingSpec}
    {c : RiverBackend} (hconnect : (fromConnection handshake).connect = .ok c)
    (hbindings : c.configureBindings specs = .ok b) (h : Run b events b')
    (honce : NamedOnce events) : b'.Inverse := by
  have hsound := sound_of_connected hconnect hbindings
  refine (tied_of_run hsound ?_ h honce).inverse (sound_of_run hsound h).linked
  obtain ⟨-, -, d, ⟨⟨_, _, _, _, _, _, _, _, _, _, _, rfl⟩, -⟩, rfl⟩ :=
    exists_connected hconnect hbindings
  constructor <;> simp [fromConnection]

/-- Quanta of a backend that can read, with the events they apply. -/
def serves : ℕ → List Incoming × RiverBackend → Option (List Incoming × RiverBackend)
  | 0, r => some r
  | n + 1, (events, b) =>
    match b.service ⟨true, false, false⟩ with
    | .ok (_, b') => serves n (events ++ (b.delivered ⟨true, false, false⟩).toList, b')
    | .error _ => none

theorem run_serves {n : ℕ} {r : List Incoming × RiverBackend} (h : Run b events b')
    (hserves : serves n (events, b') = some r) : Run b r.1 r.2 := by
  induction n generalizing events b' with
  | zero =>
    cases hserves
    exact h
  | succ n ih =>
    unfold serves at hserves
    split at hserves
    · exact ih (h.tail (.service ‹_›)) hserves
    · cases hserves

/-- A window is created, named and numbered. -/
theorem identities_inverse_plain : ∃ b events b', Run b events b' ∧ NamedOnce events ∧
    (b'.realmIds.lookup 1).isSome ∧ b'.Inverse := by
  let move := RiverMove.sends [(8, .deliver (.client 4) (.windowCreated (.server 2))),
    (8, .deliver (.server 2) (.windowIdentifier (.server 2) "w"))] 16
  have hplay : ((fromConnection System.plainHandshake).connect.toOption.bind fun c =>
      (c.configureBindings []).toOption.bind fun b =>
      (serves 5 ([], { b with transport := move.apply b.transport })).bind fun r =>
      (r.2.assignWindow ⟨"w", by decide⟩ 1).toOption.map fun b' => (r.1, b')).any fun r =>
        decide (r.1.filterMap identifies).Nodup && (r.2.realmIds.lookup 1).isSome := by
    decide +kernel
  obtain ⟨⟨events, b'⟩, hplay, hend⟩ := (any_eq_true _ _).mp hplay
  simp only [bind_eq_some_iff, map_eq_some_iff, Guard.toOption_eq_some] at hplay
  obtain ⟨c, hconnect, b, hbindings, r, hserves, d, hassign, heq⟩ := hplay
  obtain ⟨rfl, rfl⟩ := Prod.mk.inj heq
  obtain ⟨honce, hnumber⟩ := Bool.and_eq_true_iff.mp hend
  have honce : (r.1.filterMap identifies).Nodup := of_decide_eq_true honce
  have hrun := (run_serves (.tail .refl (.river move)) hserves).tail (.ask (.assign hassign))
  rw [toList_none, List.append_nil] at hrun
  exact ⟨b, r.1, d, hrun, honce, hnumber, identities_inverse hconnect hbindings hrun honce⟩

end RiverBackend

end Realm

import Realm.Session.Effects

/-!
# What an event of a later turn does

An event opens, closes or renames a window, or leaves the identities as they are.  It asks
for the projection when it changes it, and submits nothing.
-/

namespace Realm

/-- The events that change which identities there are. -/
def BackendPolicyEvent.rebinds : BackendPolicyEvent → Bool
  | .windowOpened .. | .windowClosed _ => true
  | _ => false

namespace Session

variable {B : Type} {s : Session B} {active active' c : ActiveTransaction}
  {event : BackendPolicyEvent} {events : List BackendPolicyEvent} {id : BackendBindingId}

/-! ## Asking for the projection -/

theorem requireProjection_eq (active : ActiveTransaction) : requireProjection active = { active with
      projectionRequired := active.working.workarea.isSome || active.projectionRequired } := by
  unfold requireProjection
  cases h : active.working.workarea.isSome <;> simp

/-- A projection that changes is asked for, and only with a workarea. -/
structure Asks (active active' : ActiveTransaction) : Prop where
  workarea : active.working.workarea.isSome = true → active'.working.workarea.isSome = true
  required : active'.projectionRequired = true →
    active.projectionRequired = true ∨ active'.working.workarea.isSome = true
  same : active'.projectionRequired = false → active.projectionRequired = false ∧
    projectAuthority active'.working = projectAuthority active.working

theorem asks_of_same (hrequired : active'.projectionRequired = active.projectionRequired)
    (hworkarea : active'.working.workarea = active.working.workarea)
    (hsame : projectAuthority active'.working = projectAuthority active.working) :
    Asks active active' :=
  ⟨fun h => hworkarea ▸ h, fun h => .inl (hrequired ▸ h), fun h => ⟨hrequired ▸ h, hsame⟩⟩

theorem asks_of_required (hworkarea : active'.working.workarea = active.working.workarea)
    (hrequired : active'.projectionRequired =
      (active'.working.workarea.isSome || active.projectionRequired)) : Asks active active' := by
  refine ⟨fun h => hworkarea ▸ h, fun h => ?_, fun h => ?_⟩
  · exact (Bool.or_eq_true_iff.mp (hrequired ▸ h)).symm
  · obtain ⟨hnone, hasked⟩ := Bool.or_eq_false_iff.mp (hrequired ▸ h)
    have hnone' : active'.working.workarea = none := by simpa using hnone
    refine ⟨hasked, ?_⟩
    rw [projectAuthority_of_workarea_none hnone',
      projectAuthority_of_workarea_none (hworkarea ▸ hnone')]

theorem asks_applyBindingAction (s : Session B) (active : ActiveTransaction)
    (id : BackendBindingId) (binding : Binding) :
    Asks active (s.applyBindingAction active id binding) := by
  have hworkarea := (s.alters_applyBindingAction active id binding).workarea
  have hrequired := s.applyBindingAction_required active id binding
  refine ⟨fun h => hworkarea ▸ h, fun h => ?_, fun h => ?_⟩
  · rw [hrequired, Bool.or_eq_true] at h
    refine h.imp_right fun hchanged => ?_
    by_contra hnone
    have hnone' : (s.applyBindingAction active id binding).working.workarea = none := by
      simpa using hnone
    refine of_decide_eq_true hchanged ?_
    rw [projectAuthority_of_workarea_none hnone',
      projectAuthority_of_workarea_none (hworkarea ▸ hnone')]
  · rw [hrequired, Bool.or_eq_false_iff] at h
    exact ⟨h.1, (of_not_not (of_decide_eq_false h.2)).symm⟩

/-! ## One event -/

/-- What an event does to the working authority. -/
inductive Rewrites (a : AuthorityState) : BackendPolicyEvent → AuthorityState → Prop
  | opened {id : BackendWindowId} {win : WinId} {appId title : String} {c : AuthorityState}
      (h : allocateOpened a id = .ok (win, c)) :
      Rewrites a (.windowOpened id appId title) { c with
        ledger := c.ledger.summon win c.ledger.active
        windows := c.windows.insert win (normalizedMetadata appId title)
        boundBackendIds := insert id c.boundBackendIds }
  | closed {id : BackendWindowId} {win : WinId} (h : a.backendIds.lookup id = some win) :
      Rewrites a (.windowClosed id) { a with
        backendIds := a.backendIds.erase id
        boundBackendIds := a.boundBackendIds.erase id
        windows := a.windows.erase win
        ledger := (a.ledger.banish win).1 }
  | titled {id : BackendWindowId} {win : WinId} {title : String} {metadata : WindowMetadata}
      (h : a.windows.lookup win = some metadata) :
      Rewrites a (.titleChanged id title) { a with
        windows := a.windows.insert win { metadata with
          title := normalizeVisible title maxVisibleTitleJsonBytes } }
  | keeps {event : BackendPolicyEvent} {a' : AuthorityState}
      (hrebinds : event.rebinds = false) (hidentities : a'.identities = a.identities)
      (hledger : a.ledger.WellFormed → Ledger.Desired a.ledger a'.ledger) : Rewrites a event a'

theorem Rewrites.aside {a a' : AuthorityState} (hrebinds : event.rebinds = false)
    (hidentities : a'.identities = a.identities) (hledger : a'.ledger = a.ledger) :
    Rewrites a event a' :=
  .keeps hrebinds hidentities fun h => hledger.symm ▸ Ledger.Desired.refl h

/-- What an event of a later turn does to the transaction. -/
structure Reduced (active : ActiveTransaction) (event : BackendPolicyEvent)
    (active' : ActiveTransaction) : Prop where
  rewrites : Rewrites active.working event active'.working
  asks : Asks active active'
  bootstrap : active'.bootstrap = active.bootstrap
  submitted : active'.projectionSubmitted = active.projectionSubmitted
  response : active'.response.projection = active.response.projection

theorem reduced_reduceClosed {id : BackendWindowId} (h : reduceClosed active id = .ok active') :
    Reduced active (.windowClosed id) active' := by
  unfold reduceClosed at h
  split at h
  · cases h
  rename_i win hwin
  simp only [requireProjection_eq] at h
  cases h
  split <;> exact ⟨.closed hwin, asks_of_required rfl rfl, rfl, rfl, rfl⟩

theorem reduced_reducePressed (h : s.reducePressed active id = .ok active') :
    Reduced active (.bindingPressed id) active' := by
  unfold reducePressed at h
  simp only at h
  split at h
  · cases h
  rename_i binding _
  cases h
  have hasks := s.asks_applyBindingAction { active with working := { active.working with
    heldBindings := insert id active.working.heldBindings } } id binding
  obtain ⟨hidentities, hledger, _, hbootstrap, hsubmitted, hresponse⟩ :=
    s.alters_applyBindingAction { active with working := { active.working with
      heldBindings := insert id active.working.heldBindings } } id binding
  split <;> exact ⟨.keeps rfl hidentities hledger, ⟨hasks.workarea, hasks.required, hasks.same⟩,
    hbootstrap, hsubmitted, hresponse⟩

variable [WmBackend B] {backend backend' : B}

theorem reduced_reduceOpened {id : BackendWindowId} {appId title : String}
    (h : reduceOpened backend active id appId title = (.ok active', backend')) :
    Reduced active (.windowOpened id appId title) active' := by
  unfold reduceOpened at h
  split at h
  · simp at h
  rename_i win a ha
  have hworkarea : a.workarea = active.working.workarea := by
    unfold allocateOpened at ha
    split at ha
    · cases ha
      rfl
    · split at ha <;> cases ha
      rfl
  simp only [requireProjection_eq] at h
  split at h
  · rename_i hmem
    obtain rfl := Except.ok.inj (Prod.mk.inj h).1
    have hrewrites : Rewrites active.working (.windowOpened id appId title) _ := .opened ha
    rw [Finset.insert_eq_of_mem hmem] at hrewrites
    exact ⟨hrewrites, asks_of_required hworkarea rfl, rfl, rfl, rfl⟩
  · split at h
    · simp at h
    · obtain rfl := Except.ok.inj (Prod.mk.inj h).1
      exact ⟨.opened ha, asks_of_required hworkarea rfl, rfl, rfl, rfl⟩

theorem reduced_reduceEvent (h : s.reduceEvent backend active event = (.ok active', backend')) :
    Reduced active event active' := by
  have hfst := congrArg Prod.fst h
  cases event with
  | windowOpened => exact reduced_reduceOpened h
  | windowClosed => exact reduced_reduceClosed hfst
  | titleChanged =>
    simp only [reduceEvent, reduceTitle] at hfst
    split at hfst
    · cases hfst
    split at hfst
    · cases hfst
    · rename_i hmetadata
      cases hfst
      exact ⟨.titled hmetadata, asks_of_same rfl rfl rfl, rfl, rfl, rfl⟩
  | bindingPressed => exact reduced_reducePressed hfst
  | initialReplayComplete => cases hfst
  | focusChanged =>
    cases hfst
    simp only [reduceFocus, requireProjection_eq]
    split
    · exact ⟨.aside rfl rfl rfl, asks_of_required rfl rfl, rfl, rfl, rfl⟩
    · exact ⟨.aside rfl rfl rfl, asks_of_same rfl rfl rfl, rfl, rfl, rfl⟩
  | exclusiveFocusChanged exclusive =>
    cases hfst
    simp only [reduceExclusiveFocus, requireProjection_eq]
    split
    · exact ⟨.aside rfl rfl rfl, asks_of_required rfl rfl, rfl, rfl, rfl⟩
    · rename_i hsame
      refine ⟨.aside rfl rfl rfl, asks_of_same rfl rfl ?_, rfl, rfl, rfl⟩
      rw [← not_not.mp hsame]
  | workareaChanged =>
    cases hfst
    simp only [reduceWorkarea]
    split
    · exact ⟨.aside rfl rfl rfl, ⟨fun _ => rfl, fun _ => .inr rfl, by simp⟩, rfl, rfl, rfl⟩
    · exact ⟨.aside rfl rfl rfl, asks_of_same rfl rfl rfl, rfl, rfl, rfl⟩
  | unboundKeyEaten =>
    cases hfst
    simp only [reduceUnboundKey]
    split <;> exact ⟨.aside rfl rfl rfl, asks_of_same rfl rfl rfl, rfl, rfl, rfl⟩
  | _ =>
    cases hfst
    exact ⟨.aside rfl rfl rfl, asks_of_same rfl rfl rfl, rfl, rfl, rfl⟩

/-! ## The events of a turn -/

omit [WmBackend B] in
theorem openTurn_working (s : Session B) : s.openTurn.working = s.turnBase := by
  unfold openTurn turnBase
  cases s.active <;> rfl

theorem exists_reduceInitialReplay
    (h : reduceInitialReplay backend active events = (.ok active', backend')) :
    ∃ facts a, collectReplay events {} = .ok facts ∧
      bindReplayed backend { (active.working.ledger.orbits.flatMap (·.windows)).foldl
        (dropUnreplayed facts.replayed) active.working with
          windows := ∅, boundBackendIds := ∅ } facts.replayed = (.ok a, backend') ∧
      active' = { active with
        working := { a with
          ledger := a.ledger.discardUndoHistory
          workarea := none
          effectiveFocus := facts.effectiveFocus
          exclusiveFocus := facts.exclusiveFocus }
        bootstrap := true
        response := { active.response with projection := none, closes := [] } } := by
  unfold reduceInitialReplay at h
  split at h
  · simp at h
  rename_i facts hfacts
  simp only at h
  split at h
  · simp at h
  split at h
  · simp at h
  · rename_i a backend hbind
    obtain ⟨hactive, rfl⟩ := Prod.mk.inj h
    exact ⟨facts, a, hfacts, hbind, (Except.ok.inj hactive).symm⟩

/-- Events that are reduced one after the other. -/
inductive Reductions : ActiveTransaction → List BackendPolicyEvent → ActiveTransaction → Prop
  | nil (active : ActiveTransaction) : Reductions active [] active
  | cons {active c active' : ActiveTransaction} {event : BackendPolicyEvent}
      {events : List BackendPolicyEvent} (h : Reduced active event c)
      (rest : Reductions c events active') : Reductions active (event :: events) active'

theorem reductions_reducePolicyEvents
    (h : s.reducePolicyEvents backend active events = (.ok active', backend')) :
    Reductions active events active' := by
  induction events generalizing backend active with
  | nil =>
    obtain rfl := Except.ok.inj (congrArg Prod.fst h)
    exact .nil active
  | cons event events ih =>
    simp only [reducePolicyEvents] at h
    split at h
    · simp at h
    · rename_i hevent
      exact .cons (reduced_reduceEvent hevent) (ih h)

end Session

end Realm

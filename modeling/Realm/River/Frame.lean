import Realm.Lib.Guard
import Realm.River.Backend

/-!
# What sequences leave alone

Answering a manage or a render sequence sends requests and updates what the
backend remembers about sizes, positions and visibility.  Identities, retained
facts, queued events and the response being worked on stay as they are.
-/

namespace Realm

open River Guard

namespace River

/-- Only the outgoing side of the connection changed. -/
structure Transport.Sends (t t' : Transport) : Prop where
  frame : ∃ requests outBytes objects destroyed nextClientId, t' = { t with
    requests := requests
    outBytes := outBytes
    objects := objects
    destroyed := destroyed
    nextClientId := nextClientId }
  objects : t.objects ⊆ t'.objects

namespace Transport.Sends

variable (t : Transport)

theorem refl : t.Sends t := ⟨⟨_, _, _, _, _, rfl⟩, List.Subset.refl _⟩

theorem trans {t t' t'' : Transport} (h : t.Sends t') (h' : t'.Sends t'') : t.Sends t'' := by
  obtain ⟨⟨_, _, _, _, _, rfl⟩, hobjects⟩ := h
  obtain ⟨⟨_, _, _, _, _, rfl⟩, hobjects'⟩ := h'
  exact ⟨⟨_, _, _, _, _, rfl⟩, List.Subset.trans hobjects hobjects'⟩

theorem send (r : Request) : t.Sends (t.send r) :=
  ⟨⟨_, _, _, _, _, rfl⟩, List.Subset.refl _⟩

theorem destroy (id : ObjectId) : t.Sends (t.destroy id) :=
  ⟨⟨_, _, _, _, _, rfl⟩, List.Subset.refl _⟩

theorem construct : t.Sends t.construct.2 :=
  ⟨⟨_, _, _, _, _, rfl⟩, List.subset_cons_self _ _⟩

end Transport.Sends

/-- What is reported to the session about a window, and its binding to it. -/
def Window.identity (w : Window) :
    ℕ × Option BackendWindowId × String × String × Bool × Option WinId :=
  (w.ordinal, w.backendId, w.appId, w.title, w.pendingOpen, w.assigned)

end River

namespace RiverBackend

variable {b b' b'' : RiverBackend} {output : ObjectId} {p : Placement}
  {projection : Option (List Placement)} {response : BackendPolicyResponse} {allowCorrection : Bool}

theorem exists_sendAll (b : RiverBackend) (rs : List Request) :
    ∃ t, b.transport.Sends t ∧ b.sendAll rs = { b with transport := t } := by
  induction rs generalizing b with
  | nil => exact ⟨_, .refl _, rfl⟩
  | cons r rs ih =>
    obtain ⟨t, hsends, heq⟩ := ih (b.send r)
    exact ⟨t, (Transport.Sends.send _ r).trans hsends, heq⟩

/-- The backend only made requests and remembered what it asked for. -/
structure Repaints (b b' : RiverBackend) : Prop where
  frame : ∃ transport windows defaultOutput focusedWindow bindingObjects watchedModifiers
    deferredCorrections, b' = { b with
      transport := transport
      windows := windows
      defaultOutput := defaultOutput
      focusedWindow := focusedWindow
      bindingObjects := bindingObjects
      watchedModifiers := watchedModifiers
      deferredCorrections := deferredCorrections }
  sends : b.transport.Sends b'.transport
  identity : ∀ id, (b'.windows.lookup id).map Window.identity =
    (b.windows.lookup id).map Window.identity
  bindingObjects : ∀ id, (b'.bindingObjects.lookup id).isSome = (b.bindingObjects.lookup id).isSome

namespace Repaints

theorem refl (b : RiverBackend) : Repaints b b :=
  ⟨⟨_, _, _, _, _, _, _, rfl⟩, .refl _, fun _ => rfl, fun _ => rfl⟩

theorem trans (h : Repaints b b') (h' : Repaints b' b'') : Repaints b b'' := by
  obtain ⟨⟨_, _, _, _, _, _, _, rfl⟩, hsends, hident, hbind⟩ := h
  obtain ⟨⟨_, _, _, _, _, _, _, rfl⟩, hsends', hident', hbind'⟩ := h'
  exact ⟨⟨_, _, _, _, _, _, _, rfl⟩, hsends.trans hsends',
    fun id => (hident' id).trans (hident id), fun id => (hbind' id).trans (hbind id)⟩

theorem send (b : RiverBackend) (r : Request) : Repaints b (b.send r) :=
  ⟨⟨_, _, _, _, _, _, _, rfl⟩, .send _ r, fun _ => rfl, fun _ => rfl⟩

theorem sendAll (b : RiverBackend) (rs : List Request) : Repaints b (b.sendAll rs) := by
  obtain ⟨t, hsends, heq⟩ := b.exists_sendAll rs
  rw [heq]
  exact ⟨⟨_, _, _, _, _, _, _, rfl⟩, hsends, fun _ => rfl, fun _ => rfl⟩

theorem insertWindow {id : ObjectId} {w w' : Window} (h : b.windows.lookup id = some w)
    (hident : w'.identity = w.identity) :
    Repaints b { b with windows := b.windows.insert id w' } := by
  refine ⟨⟨_, _, _, _, _, _, _, rfl⟩, .refl _, fun id' => ?_, fun _ => rfl⟩
  by_cases hid : id' = id
  · subst hid
    simp [h, hident]
  · simp [AList.lookup_insert_ne hid]

theorem mapWindows {f : ObjectId → Window → Window}
    (hident : ∀ id w, (f id w).identity = w.identity) :
    Repaints b { b with windows := Map.mapValues f b.windows } := by
  refine ⟨⟨_, _, _, _, _, _, _, rfl⟩, .refl _, fun id => ?_, fun _ => rfl⟩
  simp [Map.lookup_mapValues, Function.comp_def, hident]

end Repaints

/-! ## Manage sequences -/

theorem placed_eq_ok {win : WinId} {found : ObjectId × Window} (h : b.placed win = .ok found) :
    b.objectOf win = some found.1 ∧ b.windows.lookup found.1 = some found.2 := by
  unfold placed at h
  split at h
  · cases h
  · rename_i heq
    cases h
    obtain ⟨id, hid, hmap⟩ := Option.bind_eq_some_iff.mp heq
    obtain ⟨w, hw, rfl⟩ := Option.map_eq_some_iff.mp hmap
    exact ⟨hid, hw⟩

theorem manageWindow_identity (id output : ObjectId) (fullscreen : Bool) (rect : Rect)
    (w : Window) : (manageWindow id output fullscreen rect w).1.identity = w.identity := by
  unfold manageWindow
  simp only
  split
  · split <;> rfl
  · split <;> split <;> rfl

theorem repaints_managePlacement {fullscreen : Bool}
    (h : managePlacement output fullscreen b p = .ok b') : Repaints b b' := by
  obtain ⟨⟨id, w⟩, hplaced, heq⟩ := bind_eq_ok.mp h
  cases heq
  exact (Repaints.insertWindow (placed_eq_ok hplaced).2 (manageWindow_identity _ _ _ _ _)).trans
    (.sendAll _ _)

theorem repaints_manageFocus {projection : List Placement}
    (h : b.manageFocus projection = .ok b') : Repaints b b' := by
  unfold manageFocus at h
  simp only at h
  split at h
  · split at h
    · obtain ⟨_, _, h⟩ := bind_eq_ok.mp h
      obtain ⟨seat, _, heq⟩ := bind_eq_ok.mp h
      cases heq
      exact ⟨⟨_, _, _, _, _, _, _, rfl⟩, .send _ _, fun _ => rfl, fun _ => rfl⟩
    · obtain ⟨seat, _, heq⟩ := bind_eq_ok.mp h
      cases heq
      exact ⟨⟨_, _, _, _, _, _, _, rfl⟩, .send _ _, fun _ => rfl, fun _ => rfl⟩
  · cases h
    exact .refl b

theorem repaints_manageEnabled (b : RiverBackend) (enabled : List BackendBindingId) :
    Repaints b (b.manageEnabled enabled) := by
  unfold manageEnabled
  simp only
  generalize List.filterMap _ _ = changes
  obtain ⟨t, hsends, heq⟩ := b.exists_sendAll changes
  rw [heq]
  refine ⟨⟨_, _, _, _, _, _, _, rfl⟩, hsends, fun _ => rfl, fun id => ?_⟩
  simp [Map.lookup_mapValues]

theorem repaints_watchModifiers {modifiers : List BackendModifier}
    (h : b.watchModifiers modifiers = .ok b') : Repaints b b' := by
  unfold watchModifiers at h
  split at h
  · cases h
    exact .refl b
  split at h
  · cases h
  · cases h
    exact ⟨⟨_, _, _, _, _, _, _, rfl⟩, .send _ _, fun _ => rfl, fun _ => rfl⟩

theorem repaints_manageNextKey {edge : BackendNextKeyEdge} (h : b.manageNextKey edge = .ok b') :
    Repaints b b' := by
  unfold manageNextKey at h
  split at h
  · cases h
    exact .refl b
  · cases h
    exact .send _ _
  · cases h
    exact .send _ _
  · cases h

theorem repaints_manageBindings {bindings : BackendBindingState}
    (h : b.manageBindings bindings = .ok b') : Repaints b b' := by
  obtain ⟨c, hwatch, hedge⟩ := bind_eq_ok.mp h
  exact (b.repaints_manageEnabled _).trans
    ((repaints_watchModifiers hwatch).trans (repaints_manageNextKey hedge))

theorem repaints_makeDefault (b : RiverBackend) (id layer : ObjectId) :
    Repaints b (b.makeDefault id layer) := by
  unfold makeDefault
  split
  · exact .refl b
  · exact ⟨⟨_, _, _, _, _, _, _, rfl⟩, .send _ _, fun _ => rfl, fun _ => rfl⟩

theorem repaints_manageProjection {rect : Rect}
    (h : b.manageProjection output rect projection = .ok b') : Repaints b b' := by
  cases projection with
  | none =>
    cases h
    exact .refl b
  | some =>
    obtain ⟨c, hplace, hfocus⟩ := bind_eq_ok.mp h
    exact (foldlM_rel Repaints.refl Repaints.trans repaints_managePlacement hplace).trans
      (repaints_manageFocus hfocus)

theorem repaints_applyManageResponse (h : b.applyManageResponse response = .ok b') :
    Repaints b b' := by
  unfold applyManageResponse at h
  split at h
  · split at h
    · cases h
      exact .refl b
    · cases h
  split at h
  · cases h
  split at h
  · obtain ⟨c, hprojection, hbindings⟩ := bind_eq_ok.mp h
    exact (b.repaints_makeDefault _ _).trans
      ((repaints_manageProjection hprojection).trans (repaints_manageBindings hbindings))
  · cases h

theorem repaints_closeWindows {closes : List WinId} (h : b.closeWindows closes = .ok b') :
    Repaints b b' := by
  refine foldlM_rel Repaints.refl Repaints.trans (fun {c win c'} hc => ?_) h
  obtain ⟨_, _, heq⟩ := bind_eq_ok.mp hc
  cases heq
  exact .send _ _

theorem repaints_proposeCorrection (response : BackendPolicyResponse)
    (sizes : Map ObjectId (ℤ × ℤ)) (state : RiverBackend × Bool) (id : ObjectId)
    (target corrected : ℤ × ℤ) :
    Repaints state.1 (proposeCorrection response sizes state id target corrected).1 := by
  unfold proposeCorrection
  split
  · exact .refl _
  · rename_i w hw
    split
    · exact .refl _
    · exact (Repaints.send _ _).trans (.insertWindow hw rfl)

theorem repaints_proposeCorrections (response : BackendPolicyResponse)
    (sizes : Map ObjectId (ℤ × ℤ))
    (corrections : List (Sigma fun _ : ObjectId => (ℤ × ℤ) × (ℤ × ℤ)))
    (state : RiverBackend × Bool) : Repaints state.1 (corrections.foldl
      (fun state e => proposeCorrection response sizes state e.1 e.2.1 e.2.2) state).1 := by
  induction corrections generalizing state with
  | nil => exact .refl _
  | cons e corrections ih =>
    exact (repaints_proposeCorrection response sizes state _ _ _).trans (ih _)

theorem repaints_answerManage {result : RiverBackend × Bool}
    (h : b.answerManage response = .ok result) : Repaints b result.1 := by
  obtain ⟨c, hclose, h⟩ := bind_eq_ok.mp h
  obtain ⟨d, hmanage, h⟩ := bind_eq_ok.mp h
  cases h
  have hreset : Repaints d { d with deferredCorrections := ∅ } :=
    ⟨⟨_, _, _, _, _, _, _, rfl⟩, .refl _, fun _ => rfl, fun _ => rfl⟩
  exact (repaints_closeWindows hclose).trans ((repaints_applyManageResponse hmanage).trans
    (hreset.trans (repaints_proposeCorrections response _ _
      ({ d with deferredCorrections := ∅ }, false))))

/-! ## Render sequences -/

theorem renderWindow_identity (id : ObjectId) (allowCorrection raise : Bool) (p : Placement)
    (w : Window) : (renderWindow id allowCorrection raise p w).1.identity = w.identity := by
  unfold renderWindow
  split
  · split <;> rfl
  · rfl

theorem repaints_renderPlacement {raise : Bool} {state state' : RiverBackend × CorrectionMap}
    (h : renderPlacement allowCorrection raise state p = .ok state') :
    Repaints state.1 state'.1 := by
  obtain ⟨⟨id, w⟩, hplaced, heq⟩ := bind_eq_ok.mp h
  cases heq
  exact (Repaints.insertWindow (placed_eq_ok hplaced).2 (renderWindow_identity _ _ _ _ _)).trans
    (.sendAll _ _)

theorem repaints_hideUnplaced (b : RiverBackend) (visible : List WinId) :
    Repaints b (b.hideUnplaced visible) := by
  unfold hideUnplaced
  simp only
  generalize List.filterMap _ _ = hides
  obtain ⟨t, hsends, heq⟩ := b.exists_sendAll hides
  rw [heq]
  have hsent : Repaints b { b with transport := t } :=
    ⟨⟨_, _, _, _, _, _, _, rfl⟩, hsends, fun _ => rfl, fun _ => rfl⟩
  refine hsent.trans (.mapWindows fun _ w => ?_)
  split <;> rfl

theorem repaints_applyRenderResponse {result : RiverBackend × CorrectionMap}
    (h : b.applyRenderResponse projection allowCorrection = .ok result) : Repaints b result.1 := by
  unfold applyRenderResponse at h
  split at h
  · cases h
    exact .refl b
  · exact (b.repaints_hideUnplaced _).trans
      (foldlM_rel (R := fun s s' => Repaints s.1 s'.1) (fun s => .refl s.1)
        Repaints.trans repaints_renderPlacement h)

end RiverBackend

end Realm

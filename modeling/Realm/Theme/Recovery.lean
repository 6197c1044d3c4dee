import Realm.Theme.Pointer
import Realm.Theme.Removal
import Realm.Theme.Staging

/-!
# Recovery after the death of a process

`Settles s c` says that recovery on the store settles on the generation `c`.  Every
operation moves a store that settles through stores that settle, except while the record
of a staged pointer is being written: a partial record is a journal that cannot be read,
and recovery refuses the store.
-/

namespace Realm.Theme

open Text Prog Machine JournalKind List Option Store

/-! ## Stores on which recovery settles -/

section Settling

variable [Sha256] {s s' : Store} {c g : GenerationId} {inventory : PointerJournalInventory}
  {f : File}

/-- Recovery on the store settles on the generation. -/
def Settles (s : Store) (c : GenerationId) : Prop := ∃ inventory, Pending s inventory c

/-- No pointer change is pending and the pointer names a valid generation. -/
structure Clean (s : Store) (c : GenerationId) : Prop where
  quiet : Quiet s.root
  names : Names s.root c
  sound : s.Sound c

theorem Clean.settles (h : Clean s c) : Settles s c := ⟨_, .clean h.quiet h.names h.sound⟩

theorem sound_congr (h : s'.generations.lookup g.text = s.generations.lookup g.text) :
    s'.Sound g ↔ s.Sound g := by
  simp only [Store.Sound, validateGeneration, tree, h]

/-- What recovery reads is still there. -/
structure Kept (s s' : Store) : Prop where
  root : ∀ n, Control n → s'.root.lookup n = s.root.lookup n
  sound : ∀ g, s.Sound g → s'.Sound g

theorem Kept.current (h : Kept s s') : s'.root.lookup currentName = s.root.lookup currentName :=
  h.root currentName (.inl rfl)

theorem Pending.kept (h : Pending s inventory c) (hk : Kept s s') : Pending s' inventory c := by
  cases h with
  | clean quiet names sound =>
    exact .clean (quiet.congr hk.root) (names.congr hk.current) (hk.sound _ sound)
  | discard lone points names ne sound sound' =>
    exact .discard (lone.congr hk.root) points (names.congr hk.current) ne (hk.sound _ sound)
      (hk.sound _ sound')
  | rollback lone points names ne sound sound' =>
    exact .rollback (lone.congr hk.root) points (names.congr hk.current) ne (hk.sound _ sound)
      (hk.sound _ sound')
  | committed lone regular content ne sound' names sound =>
    exact .committed (lone.congr hk.root) regular content ne
      (fun p hp => hk.sound _ (sound' p hp)) (names.congr hk.current) (hk.sound _ sound)

theorem Unpointed.kept (h : Unpointed s inventory) (hk : Kept s s') : Unpointed s' inventory := by
  cases h with
  | cleanAbsent quiet absent =>
    exact .cleanAbsent (quiet.congr hk.root) (hk.current.trans absent)
  | discardAbsent lone points absent sound =>
    exact .discardAbsent (lone.congr hk.root) points (hk.current.trans absent) (hk.sound _ sound)
  | rollbackAbsent lone names sound =>
    exact .rollbackAbsent (lone.congr hk.root) (names.congr hk.current) (hk.sound _ sound)
  | discardPristine journal points marker only absent sound =>
    refine .discardPristine ((hk.root _ (control_name _ _)).trans journal) points
      ((hk.root _ (control_name _ _)).trans marker) ?_ (hk.current.trans absent)
      (hk.sound _ sound)
    intro n f hlookup hne hne'
    by_contra hkind
    rw [hk.root n (.inr hkind)] at hlookup
    exact hkind (only n f hlookup hne hne')

theorem Settles.kept (h : Settles s c) (hk : Kept s s') : Settles s' c :=
  let ⟨inventory, h⟩ := h
  ⟨inventory, h.kept hk⟩

theorem Clean.kept (h : Clean s c) (hk : Kept s s') : Clean s' c :=
  ⟨h.quiet.congr hk.root, h.names.congr hk.current, hk.sound c h.sound⟩

theorem SameOutside.kept (h : SameOutside aside s s') : Kept s s' where
  root n hn := h.root n (not_not_intro hn)
  sound g := (sound_congr (h.trees g.text fun hne => hne g rfl)).mpr

/-- The process may die before this call: recovery settles on the generation that was
current or on the candidate, unless the call writes to the record of a staged pointer. -/
structure MayDie (c : GenerationId) (candidate : Option GenerationId) (s : Store) (call : Call) :
    Prop where
  settles : ¬ call.WritesPointer → ∃ g, Settles s g ∧ (g = c ∨ candidate = some g)
  not_settles : call.WritesPointer → ∀ g, ¬ Settles s g

variable {candidate : Option GenerationId} {call : Call}

theorem MayDie.settled (h : Settles s g) (hg : g = c ∨ candidate = some g)
    (hcall : ¬ call.WritesPointer) : MayDie c candidate s call :=
  ⟨fun _ => ⟨g, h, hg⟩, fun hcall' => absurd hcall' hcall⟩

theorem MayDie.torn (h : ∀ g, ¬ Settles s g) (hcall : call.WritesPointer) :
    MayDie c candidate s call :=
  ⟨fun hnot => absurd hcall hnot, fun _ => h⟩

theorem meets_aside {α : Type} {p : Run α} {scope : Scope} (hs : Settles s c)
    (hp : p.Issues (Call.Within scope)) (hle : scope.Le aside) :
    machine.Meets (fun _ s' => SameOutside scope s s' ∧ Kept s s') (MayDie c candidate) p s := by
  refine (meets_sameOutside faithful_machine hp s).mono ?_ ?_
  · intro _ s' hsame
    exact ⟨hsame, (hsame.mono hle).kept⟩
  · rintro s' call ⟨hsame, hcall⟩
    exact .settled (hs.kept (hsame.mono hle).kept) (.inl rfl) (hcall.mono hle).not_writesPointer

/-! ## Recovery itself -/

theorem Clean.resolveCurrent (h : Clean s c) : s.resolveCurrent = .ok c := by
  obtain ⟨f, hlookup, hpoints⟩ := h.names
  have hread : readOptionalRegularBytes s.root currentName = .ok (some f.bytes) :=
    readOptionalRegularBytes_eq_ok.mpr (.inr ⟨f, hlookup, hpoints.regular, rfl⟩)
  have hparse : parsePointerRecord f.bytes "current" = .ok c :=
    parsePointerRecord_eq_ok.mpr hpoints.bytes
  have hvalid : s.validateGeneration c = .ok () := h.sound
  simp only [Store.resolveCurrent, hread, Guard.ok_bind, okOr, hparse, hvalid]
  rfl

theorem meets_cleanStaging_settled (hs : Settles s c) : machine.Meets (fun r s' => r = .ok () ∧
        SameOutside (.ofTrees fun n => isStagingName n = true) s s' ∧ Kept s s')
      (MayDie c candidate) cleanStaging s := by
  refine ((meets_cleanStaging s).and
    (meets_aside hs issues_cleanStaging staging_le_aside)).mono ?_ fun _ _ h => h.2
  rintro r s' ⟨⟨hok, hsame, _⟩, _, hkept⟩
  exact ⟨hok, hsame, hkept⟩

theorem meets_unlink_clean {n : Bytes} (hlookup : s.root.lookup n = some f)
    (hfile : f.fileType ≠ .directory) (hs : Settles s g) (hg : g = c ∨ candidate = some g)
    (hclean : Clean { s with root := s.root.erase n } g) :
    machine.Meets (fun r s' => r = .ok () ∧ Clean s' g) (MayDie c candidate)
      (issue (.unlink (.root n)) >>= fun _ => issue (.sync .root)) s := by
  refine (meets_issue_bind_of_ok (exec_unlink_root hlookup hfile)).mpr ⟨.settled hs hg id, ?_⟩
  exact (meets_issue_of_ok (exec_sync _ _)).mpr ⟨.settled hclean.settles hg id, rfl, hclean⟩

theorem meets_cleanPointerStaging_clean (h : Pending s inventory c) :
    machine.Meets (fun r s' => r = .ok () ∧ Clean s' c) (MayDie c candidate)
      (cleanPointerStaging inventory) s := by
  have hstart : Settles s c := ⟨inventory, h⟩
  cases h with
  | clean quiet names sound => exact ⟨rfl, quiet, names, sound⟩
  | @discard _ g f lone points names ne sound sound' =>
    exact meets_unlink_clean lone.here points.not_directory hstart (.inl rfl)
      ⟨lone.erase, names.erase_name _ g, sound⟩
  | @rollback _ g f lone points names ne sound sound' =>
    obtain ⟨f', hcurrent, hpoints⟩ := names
    have hclean : Clean { s with
        root := (s.root.erase (current.name g)).insert currentName f } c :=
      ⟨lone.erase.insert_current, names_insert_current points, sound⟩
    have hexec := exec_rename_root lone.here (m := currentName) fun f'' hf'' => by
      rw [hcurrent, mem_some_iff] at hf''
      exact hf'' ▸ hpoints.not_directory
    refine (meets_issue_bind_of_ok hexec).mpr ⟨.settled hstart (.inl rfl) id, ?_⟩
    exact (meets_issue_of_ok (exec_sync _ _)).mpr
      ⟨.settled hclean.settles (.inl rfl) id, rfl, hclean⟩
  | @committed _ f previous lone regular content ne sound' names sound =>
    exact meets_unlink_clean lone.here (by simp [regular]) hstart (.inl rfl)
      ⟨lone.erase, names.erase_name _ c, sound⟩

theorem meets_recover (h : Pending s inventory c) :
    machine.Meets (fun r s' => r = .ok c ∧ Clean s' c) (MayDie c candidate) recover s := by
  rw [recover, meets_view_bind]
  refine (meets_lift_bind h.inspect).mpr ?_
  refine (meets_cleanStaging_settled ⟨inventory, h⟩).bind_ok fun s' ⟨_, hkept⟩ => ?_
  refine (meets_cleanPointerStaging_clean (h.kept hkept)).bind_ok fun s'' hclean => ?_
  rw [meets_view_bind, meets_lift]
  exact ⟨hclean.resolveCurrent, hclean⟩

theorem resolveCurrent_ne_ok (h : s.root.lookup currentName = none) (c : GenerationId) :
    s.resolveCurrent ≠ .ok c := by
  have hread : readOptionalRegularBytes s.root currentName = .ok none :=
    readOptionalRegularBytes_eq_ok.mpr (.inl ⟨h, rfl⟩)
  rw [resolveCurrent, hread]
  rintro ⟨⟩

theorem meets_cleanPointerStaging_absent (h : Unpointed s inventory) :
    machine.Meets (OnOk fun _ s' => s'.root.lookup currentName = none) (fun _ _ => True)
      (cleanPointerStaging inventory) s := by
  have hunlink : ∀ (s : Store) (n : Bytes), s.root.lookup currentName = none →
      machine.Meets (OnOk fun _ s' => s'.root.lookup currentName = none) (fun _ _ => True)
        (issue (.unlink (.root n))) s := by
    intro s n habsent
    refine meets_issue_onOk trivial fun t hexec => ?_
    obtain ⟨root, hroot, rfl⟩ := Guard.map_eq_ok.mp hexec
    by_cases hn : n = currentName
    · rw [hn, Files.unlink, habsent] at hroot
      cases hroot
    · have hname : (n = ·) n := rfl
      exact (lookup_unlink hroot hname hn).trans habsent
  have hsync : ∀ s : Store, s.root.lookup currentName = none →
      machine.Meets (OnOk fun _ s' => s'.root.lookup currentName = none) (fun _ _ => True)
        (issue (.sync .root)) s := fun s habsent =>
    (meets_issue_of_ok (exec_sync .root s)).mpr ⟨trivial, habsent⟩
  cases h with
  | cleanAbsent quiet absent => exact absent
  | discardAbsent lone points absent =>
    exact (hunlink s _ absent).bind_onOk fun _ t ht => hsync t ht
  | @rollbackAbsent g f lone names sound =>
    have hrename : machine.Meets (OnOk fun _ s' => s'.root.lookup currentName = none)
        (fun _ _ => True) (issue (.rename .root currentName (current.start ++
          (absent.name g).drop absent.start.length))) s := by
      refine meets_issue_onOk trivial fun t hexec => ?_
      obtain ⟨root, hroot, rfl⟩ := Guard.map_eq_ok.mp hexec
      obtain ⟨f, _, _, rfl⟩ := renameEntry_eq_ok.mp hroot
      have hdrop : (absent.name g).drop absent.start.length = g.text :=
        drop_left
      have hne : currentName ≠ current.start ++ g.text :=
        currentName_ne_name .current g
      show ((s.root.erase currentName).insert _ f).lookup currentName = none
      rw [hdrop, Map.lookup_insert_eq, if_neg hne, Map.lookup_erase_eq, if_pos rfl]
    exact hrename.bind_onOk fun _ t ht => (hsync t ht).bind_onOk fun _ t ht =>
      (hunlink t _ ht).bind_onOk fun _ t ht => (hunlink t _ ht).bind_onOk fun _ t ht => hsync t ht
  | discardPristine journal points marker only absent =>
    exact (hunlink s _ absent).bind_onOk fun _ t ht =>
      (hunlink t _ ht).bind_onOk fun _ t ht => hsync t ht

theorem meets_recover_none (h : Pending s inventory c) :
    machine.Meets (fun r s' => r = .ok c ∧ Clean s' c) (MayDie c none) recover s :=
  meets_recover h

theorem settles_iff : Settles s c ↔ (recover.run exec s).1 = .ok c := by
  constructor
  · rintro ⟨inventory, h⟩
    exact (meets_recover_none h).run.1
  · intro hrun
    cases hinspect : s.inspectPointerJournals with
    | error =>
      have hmeets : machine.Meets (fun r _ => r ≠ .ok c) (fun _ _ => True) recover s := by
        rw [recover, meets_view_bind, meets_bind, meets_lift]
        show Then _ _ s.inspectPointerJournals s
        rw [hinspect, then_error]
        exact nofun
      exact absurd hrun hmeets.run
    | ok inventory =>
      rcases inventory_of_inspect hinspect with ⟨c', h⟩ | h
      · have hrun' := (meets_recover_none h).run.1
        rw [hrun] at hrun'
        cases hrun'
        exact ⟨inventory, h⟩
      · have hmeets : machine.Meets (fun r _ => r ≠ .ok c) (fun _ _ => True) recover s := by
          rw [recover, meets_view_bind]
          refine (meets_lift_bind hinspect).mpr ?_
          refine (meets_cleanStaging s).bind (fun _ _ _ => trivial) (fun _ _ _ => nofun) ?_
          rintro - s' ⟨-, hsame, _⟩
          have h' := h.kept (hsame.mono staging_le_aside).kept
          exact (meets_cleanPointerStaging_absent h').bind (fun _ _ _ => trivial)
            (fun _ _ _ => nofun) fun _ _ habsent => resolveCurrent_ne_ok habsent c
        exact absurd hrun hmeets.run

/-! ## Changing the pointer -/

theorem not_settles_of_short (hlookup : s.root.lookup (current.name g) = some f)
    (hstart : f.bytes <+: g.pointerRecord) (hshort : f.bytes ≠ g.pointerRecord)
    (c : GenerationId) : ¬ Settles s c := by
  have hrecord : ∀ g' : GenerationId, f.bytes ≠ g'.pointerRecord := by
    intro g' heq
    obtain ⟨e, he⟩ := @parsePointerRecord_of_start _ "" _ hstart hshort
    rw [parsePointerRecord_eq_ok.mpr heq] at he
    cases he
  -- a lone journal of another name leaves no room for the partial one
  have hlone : ∀ {kind g' f'}, Lone s.root kind g' f' →
      kind = .current ∧ f' = f := by
    intro kind g' f' lone
    by_cases hname : current.name g = kind.name g'
    · rw [hname, lone.here, some_inj] at hlookup
      exact ⟨((name_inj.mp hname).1).symm, hlookup⟩
    · rw [lone.lookup_name hname] at hlookup
      cases hlookup
  rintro ⟨inventory, h⟩
  cases h with
  | clean quiet =>
    rw [quiet.lookup_name] at hlookup
    cases hlookup
  | discard lone points | rollback lone points =>
    obtain ⟨_, rfl⟩ := hlone lone
    exact hrecord _ points.bytes
  | committed lone =>
    exact absurd (hlone lone).1 nofun

theorem Staging.discard (h : Staging s g g.pointerRecord s') (hs : Clean s c) (hg : s.Sound g)
    (hne : c ≠ g) :
    ∃ f, Lone s'.root .current g f ∧ f.PointsTo g ∧ Names s'.root c ∧ s'.Sound c ∧ s'.Sound g ∧
      Settles s' c := by
  obtain ⟨root, rfl, hlookup, hother⟩ := h
  have hlone : Lone root .current g (stagedFile s.uid g.pointerRecord) :=
    hs.quiet.lone hlookup hother
  have hnames : Names root c := hs.names.congr (hother _ (currentName_ne_name .current g))
  exact ⟨_, hlone, ⟨rfl, rfl⟩, hnames, hs.sound, hg,
    _, .discard hlone ⟨rfl, rfl⟩ hnames hne hs.sound hg⟩

theorem meets_stagePointer (hs : Clean s c) (hg : s.Sound g) (hne : c ≠ g) :
    machine.Meets (fun r s' => r = .ok () ∧ Staging s g g.pointerRecord s') (MayDie c candidate)
      (stagePointer g true) s := by
  obtain ⟨s1, hcreate, hstart⟩ := exec_create_pointer (hs.quiet.lookup_name .current g)
  rw [stagePointer, meets_bind, writeSyncedFile]
  refine (meets_issue_bind_of_ok hcreate).mpr ⟨.settled hs.settles (.inl rfl) id, ?_⟩
  rw [meets_bind]
  -- while bytes are still to come the record is partial
  refine meets_forM (J := fun rest s' => ∃ written, written ++ rest = g.pointerRecord ∧
    Staging s g written s') ?_ ?_ _ ⟨[], rfl, hstart⟩
  · rintro byte rest s' ⟨written, hwritten, h⟩
    obtain ⟨s'', hexec, h'⟩ := h.append byte
    obtain ⟨root, rfl, hlookup, hother⟩ := h
    refine (meets_issue_of_ok hexec).mpr ⟨.torn ?_ ⟨g, rfl⟩, written ++ [byte], ?_, h'⟩
    · refine not_settles_of_short hlookup ⟨byte :: rest, hwritten⟩ fun heq => ?_
      have hlength := congrArg length hwritten
      rw [← heq] at hlength
      simp [stagedFile] at hlength
    · rw [append_assoc, singleton_append, hwritten]
  · rintro s' ⟨written, hwritten, h⟩
    rw [append_nil] at hwritten
    subst hwritten
    obtain ⟨_, _, _, _, _, _, hsettles⟩ := h.discard hs hg hne
    rw [then_ok]
    refine (meets_issue_of_ok (exec_syncFile _ s')).mpr
      ⟨.settled hsettles (.inl rfl) id, ?_⟩
    rw [then_ok, if_pos rfl]
    exact (meets_issue_of_ok (exec_sync _ s')).mpr
      ⟨.settled hsettles (.inl rfl) id, rfl, h⟩

/-- What the switch leaves: the pointer replaced lies in the journal. -/
structure Switched (s : Store) (c g : GenerationId) (f : File) : Prop where
  lone : Lone s.root .current g f
  points : f.PointsTo c
  names : Names s.root g
  ne : c ≠ g
  sound : s.Sound c
  sound' : s.Sound g

theorem Switched.settles (h : Switched s c g f) : Settles s c :=
  ⟨_, .rollback h.lone h.points h.names h.ne h.sound h.sound'⟩

theorem Staging.exec_switch (h : Staging s g g.pointerRecord s') (hs : Clean s c) (hg : s.Sound g)
    (hne : c ≠ g) :
    ∃ s'' f, exec (.exchange .root (current.name g) currentName) s' = .ok s'' ∧
      Switched s'' c g f := by
  obtain ⟨f, hlone, hpoints, ⟨fc, hcurrent, hpoints'⟩, hsound, hsound', _⟩ := h.discard hs hg hne
  exact ⟨_, fc, exec_exchange_root hlone.here hcurrent,
    hlone.exchange, hpoints', names_insert_current hpoints, hne, hsound, hsound'⟩

/-- The mark of success can be set, and then recovery settles on the new generation. -/
theorem Switched.exec_mark (h : Switched s c g f) :
    ∃ s', exec (.rename .root (current.name g) (committed.name g)) s = .ok s' ∧
      Lone s'.root .committed g f ∧ Names s'.root g ∧ s'.Sound g ∧
      Pending s' ⟨some g, .cleanupCommitted (committed.name g) (some c)⟩ g := by
  have hfree : s.root.lookup (committed.name g) = none :=
    h.lone.lookup_name (by simp)
  have hexec := exec_rename_root h.lone.here (m := committed.name g)
    fun f' hf' => by
      rw [hfree] at hf'
      cases hf'
  have hlone := h.lone.rename .committed g
  have hnames := (h.names.erase_name .current g).insert_name (f := f) .committed g
  have hcontent : journalContent .committed f.bytes = .ok (some c) := by
    have hnil : f.bytes ≠ [] := by
      rw [h.points.bytes]
      exact append_ne_nil_of_left_ne_nil c.text_ne_nil _
    rw [journalContent, if_neg hnil, parsePointerRecord_eq_ok.mpr h.points.bytes]
    rfl
  exact ⟨_, hexec, hlone, hnames, h.sound', .committed hlone h.points.regular hcontent
    (fun heq => h.ne (some_inj.mp heq)) (fun p hp => some_inj.mp hp ▸ h.sound) hnames h.sound'⟩

theorem meets_markCommitted (h : Switched s c g f) (hcandidate : candidate = some g) :
    machine.Meets (fun r s' => r = .ok () ∧ Lone s'.root .committed g f ∧ Names s'.root g ∧
        s'.Sound g ∧ Settles s' g) (MayDie c candidate) (markCommitted g true) s := by
  obtain ⟨s', hexec, hlone, hnames, hsound, hpending⟩ := h.exec_mark
  have hsettles : Settles s' g := ⟨_, hpending⟩
  rw [markCommitted, if_pos rfl]
  refine (meets_issue_bind_of_ok hexec).mpr ⟨.settled h.settles (.inl rfl) id, ?_⟩
  exact (meets_issue_of_ok (exec_sync _ _)).mpr
    ⟨.settled hsettles (.inr hcandidate) id, rfl, hlone, hnames, hsound, hsettles⟩

theorem meets_clearCommitted (hlone : Lone s.root .committed g f)
    (hfile : f.fileType ≠ .directory) (hnames : Names s.root g) (hsound : s.Sound g)
    (hsettles : Settles s g) (hcandidate : candidate = some g) :
    machine.Meets (fun r s' => r = .ok () ∧ Clean s' g) (MayDie c candidate)
      (clearCommitted g) s :=
  meets_unlink_clean hlone.here hfile hsettles (.inr hcandidate)
    ⟨hlone.erase, hnames.erase_name _ g, hsound⟩

theorem meets_concludeSwitch (h : Switched s c g f) (hcandidate : candidate = some g) :
    machine.Meets (fun r s' => r = .ok (.committed g) ∧ Clean s' g) (MayDie c candidate)
      (concludeSwitch g true) s := by
  rw [concludeSwitch, meets_bind, meets_attempt]
  refine (meets_issue_of_ok (exec_sync _ s)).mpr ⟨.settled h.settles (.inl rfl) id, ?_⟩
  refine (meets_markCommitted h hcandidate).attempt_ok
    fun s' ⟨hlone, hnames, hsound, hsettles⟩ => ?_
  exact (meets_clearCommitted hlone h.points.not_directory hnames hsound hsettles
    hcandidate).attempt_ok fun s'' hclean => ⟨rfl, hclean⟩

theorem meets_commitPointer (hs : Clean s c) (hg : s.Sound g) (hne : c ≠ g)
    (hcandidate : candidate = some g) :
    machine.Meets (fun r s' => r = .ok (.committed g) ∧ Clean s' g) (MayDie c candidate)
      (commitPointer g true) s := by
  refine (meets_stagePointer hs hg hne).bind_ok fun s' hstaging => ?_
  obtain ⟨_, _, _, _, _, _, hsettles⟩ := hstaging.discard hs hg hne
  obtain ⟨s'', f, hexec, hswitched⟩ := hstaging.exec_switch hs hg hne
  rw [switchPointer, if_pos rfl]
  refine (meets_issue_bind_of_ok hexec).mpr ⟨.settled hsettles (.inl rfl) id, ?_⟩
  exact meets_concludeSwitch hswitched hcandidate

end Settling

end Realm.Theme

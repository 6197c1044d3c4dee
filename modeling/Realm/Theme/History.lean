import Realm.Theme.Outcome

/-!
# Histories of a store

A store is mounted, operated on and left by processes that end or die, and loses power.
An operation that starts while the pointer and the journals are on disk can only be
followed by the generation from before or its candidate.  One that starts on changes an
earlier process made and did not sync can be followed by neither.
-/

namespace Realm.Theme

open Text Prog Machine Option Disk

variable {n : Bytes} {f : File} {α : Type} {d : Disk} {s : Store} {c : GenerationId}

/-! ## A store just mounted -/

namespace Disk

/-- The disk of a store of which nothing is left to be synced; files are numbered in the
order of the root. -/
def ofStore (s : Store) : Disk where
  store := s
  links :=
    { saved := ⟨s.root.entries.map (.map id fun n _ => s.root.keys.idxOf n),
        s.root.nodupKeys.map₂ _⟩
      pending := [] }
  inodes i := ⟨(s.root.entries[i]?.map Sigma.snd).getD ⟨.regularFile, s.uid, 0o600, []⟩, true⟩
  next := s.root.entries.length

variable {s : Store}

theorem lookup_entries_ofStore (s : Store) (n : Bytes) :
    (ofStore s).entries.lookup n = (s.root.lookup n).map fun _ => s.root.keys.idxOf n :=
  List.dlookup_map₂ n

theorem survives_ofStore {L : Map Bytes ℕ} (h : (ofStore s).Survives L) :
    L = (ofStore s).entries := by
  obtain ⟨kept, hkept, rfl⟩ := h
  rw [List.sublist_nil.mp hkept]
  rfl

theorem lookup_eq_some_ofStore (h : s.root.lookup n = some f) :
    s.root.keys.idxOf n < s.root.entries.length ∧
      ((ofStore s).inodes (s.root.keys.idxOf n)).file = f := by
  have hmem : n ∈ s.root.keys := AList.mem_keys.mp (Map.mem_iff_lookup.mpr ⟨f, h⟩)
  have hkey : (s.root.entries[s.root.keys.idxOf n]?).map Sigma.fst = some n := by
    rw [← List.getElem?_map]
    exact List.getElem?_idxOf hmem
  obtain ⟨⟨m, f'⟩, hentry, rfl⟩ := map_eq_some_iff.mp hkey
  have hf' : s.root.lookup m = some f' :=
    List.mem_dlookup s.root.nodupKeys (List.mem_of_getElem? hentry)
  refine ⟨(List.getElem?_eq_some_iff.mp hentry).1, ?_⟩
  rw [h, some_inj] at hf'
  simp [ofStore, hentry, hf']

theorem valid_ofStore (s : Store) : (ofStore s).Valid where
  shows n := by
    rw [lookup_entries_ofStore, map_map]
    cases h : s.root.lookup n with
    | none => exact h
    | some => exact h.trans (congrArg some (lookup_eq_some_ofStore h).2.symm)
  apart n m i hn hm := by
    rw [lookup_entries_ofStore, map_eq_some_iff] at hn hm
    obtain ⟨f, hf, rfl⟩ := hn
    obtain ⟨f', hf', heq⟩ := hm
    have hmem : m ∈ s.root.keys := AList.mem_keys.mp (Map.mem_iff_lookup.mpr ⟨f', hf'⟩)
    exact ((List.idxOf_inj hmem).mp heq).symm
  old L hL n i hn := by
    rw [survives_ofStore hL, lookup_entries_ofStore, map_eq_some_iff] at hn
    obtain ⟨f, hf, rfl⟩ := hn
    exact (lookup_eq_some_ofStore hf).1

theorem firm_ofStore (s : Store) : (ofStore s).Firm :=
  ⟨fun L hL n _ => by rw [survives_ofStore hL], fun _ _ _ _ => rfl⟩

end Disk

/-! ## Runs on a disk -/

theorem meets_valid {p : Run α} (hd : d.Valid) (log : List Call) :
    recorded.Meets (fun _ t => t.1.Valid) (fun t _ => t.1.Valid) p (d, log) := by
  refine meets_of_step (J := fun t : Disk × List Call => t.1.Valid) ?_ hd
  rintro ⟨t, l⟩ c answer ⟨t', l'⟩ ht ⟨hstep, _⟩
  rcases hstep with ⟨rfl, s, hexec, rfl⟩ | ⟨_, rfl⟩
  · exact ht.perform hexec
  · exact ht

theorem step_recorded {call : Call} (h : Store.exec call d.store = .ok s) (log : List Call) :
    recorded.Step (d, log) call (.ok ()) (d.perform call s, log ++ [call]) :=
  ⟨.inl ⟨rfl, s, h, rfl⟩, rfl⟩

theorem step_recorded_error (d : Disk) (log : List Call) (call : Call) (e : String) :
    recorded.Step (d, log) call (.error e) (d, log ++ [call]) := ⟨.inr ⟨⟨e, rfl⟩, rfl⟩, rfl⟩

/-- The run on the store alone is a run on its disk. -/
theorem exists_returns_recorded (p : Run α) (d : Disk) (log : List Call) :
    ∃ d' log', recorded.Returns p (d, log) (p.run Store.exec d.store).1 (d', log') ∧
      d'.store = (p.run Store.exec d.store).2 := by
  have hstep : ∀ (s : Store) (t : Disk × List Call) c answer s', t.1.store = s →
      machine.Step s c answer s' → ∃ t', recorded.Step t c answer t' ∧ t'.1.store = s' := by
    rintro s ⟨t, l⟩ c answer s' rfl hstep
    cases hexec : Store.exec c t.store with
    | ok =>
      simp only [machine, ofExec, hexec] at hstep
      obtain ⟨rfl, rfl⟩ := hstep
      exact ⟨_, step_recorded hexec l, store_perform _ _ _⟩
    | error e =>
      simp only [machine, ofExec, hexec] at hstep
      obtain ⟨rfl, rfl⟩ := hstep
      exact ⟨_, step_recorded_error t l c e, rfl⟩
  obtain ⟨⟨d', log'⟩, hreturns, hstore⟩ := Returns.simulate (M := machine) (N := recorded)
    (R := fun s t => t.1.store = s) (t := (d, log)) (fun _ _ ht => ht) hstep
    (returns_ofExec_iff.mpr rfl) rfl
  exact ⟨d', log', hreturns, hstore⟩

/-- A change of the root that is not synced may be lost. -/
theorem powerLoss_relink (hd : d.Valid) (u : Relink) (root : Map Bytes File) :
    Disk.PowerLoss { d with store := { d.store with root }, links := d.links.push u } d.store :=
  ⟨rfl, d.entries, Writeback.survives_push.mpr (.inl Writeback.survives_current), hd.shown⟩

theorem exists_unsynced_clear {g : GenerationId} (hd : d.Valid)
    (hlone : Lone d.store.root .committed g f) (hfile : f.fileType ≠ .directory)
    (log : List Call) :
    ∃ d' log', recorded.Returns (clearCommitted g) (d, log) (.error "input/output error")
      (d', log') ∧ d'.PowerLoss d.store := by
  have hclear := exec_unlink_root hlone.here hfile
  exact ⟨_, _, (returns_issue (step_recorded hclear log)).bind
    (returns_issue (step_recorded_error _ _ _ _)), powerLoss_relink hd _ _⟩

/-! ## Runs of which every call fails -/

/-- With every call failing the program leaves the disk as it is, and what it returns
satisfies `P`. -/
def Refused (P : α → Prop) (p : Run α) (d : Disk) (log : List Call) : Prop :=
  ∃ r log', recorded.Returns p (d, log) r (d, log') ∧ ∀ a, r = .ok a → P a

section Refused

variable {β : Type} {P : α → Prop} {Q : β → Prop} {p : Run α} {f : α → Run β} {log : List Call}

theorem refused_true (p : Run α) (d : Disk) (log : List Call) :
    Refused (fun _ => True) p d log := by
  obtain ⟨r, ⟨_, log'⟩, hreturns, rfl⟩ := exists_returns (M := recorded) (s := (d, log))
    (J := fun t => t.1 = d) (fun t c ht => ⟨_, _, step_recorded_error t.1 t.2 c
      "input/output error", ht⟩) p rfl
  exact ⟨r, log', hreturns, fun _ _ => trivial⟩

theorem refused_view : Refused (· = d.store) view d log :=
  ⟨_, log, returns_view, fun _ hs => (Except.ok.inj hs).symm⟩

theorem refused_lift (x : Except String α) : Refused (x = .ok ·) (liftM x : Run α) d log :=
  ⟨x, log, returns_lift rfl, fun _ => id⟩

theorem refused_issue (call : Call) : Refused (fun _ => False) (issue call) d log :=
  ⟨_, _, returns_issue (step_recorded_error d log call "input/output error"), nofun⟩

theorem Refused.bind (hp : Refused P p d log)
    (hf : ∀ a log', P a → Refused Q (f a) d log') : Refused Q (p >>= f) d log := by
  obtain ⟨r | a, log1, hreturns, hP⟩ := hp
  · exact ⟨_, log1, hreturns.bind_error, nofun⟩
  · obtain ⟨r, log2, hreturns', hQ⟩ := hf a log1 (hP a rfl)
    exact ⟨r, log2, hreturns.bind hreturns', hQ⟩

theorem refused_issue_bind {call : Call} {f : Unit → Run β} : Refused Q (issue call >>= f) d log :=
  (refused_issue call).bind fun _ _ => False.elim

theorem refused_cleanStaging : Refused (fun _ => False) cleanStaging d log :=
  refused_view.bind fun _ _ _ => (refused_true _ d _).bind fun _ _ _ => refused_issue _

theorem refused_cleanPointerStaging (inventory : PointerJournalInventory) :
    Refused (fun _ => inventory.state = .clean) (cleanPointerStaging inventory) d log := by
  rw [cleanPointerStaging]
  cases inventory.state with
  | clean => exact ⟨.ok (), log, ⟨rfl, rfl⟩, fun _ _ => rfl⟩
  | _ => exact refused_issue_bind

end Refused

section History

variable [Sha256]

/-- The disks of a store in use: mounted, left by an operation that ended or died, left by
a program that keeps away from the root, or lost power and mounted again. -/
inductive History : Disk → Prop
  | mount (s : Store) : History (.ofStore s)
  | operate {d d' : Disk} {log : List Call} {next : Option Call} (op : Operation)
      (history : History d) (left : recorded.Leaves op.program (d, []) (d', log) next) :
      History d'
  | elsewhere {d d' : Disk} {log : List Call} {next : Option Call} {p : Run Unit}
      (history : History d) (aside : p.Issues (Call.Within Disk.Rootless))
      (left : recorded.Leaves p (d, []) (d', log) next) : History d'
  | powerLoss {d : Disk} {s : Store} (history : History d) (lost : d.PowerLoss s) :
      History (.ofStore s)

theorem History.valid (h : History d) : d.Valid := by
  induction h with
  | mount s => exact valid_ofStore s
  | operate op _ left ih | elsewhere _ _ left ih => exact (meets_valid ih []).leaves left
  | powerLoss _ _ _ => exact valid_ofStore _

theorem Settles.sound (h : Settles s c) : s.Sound c := by
  obtain ⟨inventory, h⟩ := h
  cases h with
  | clean quiet names sound => exact sound
  | discard lone points names ne sound | rollback lone points names ne sound => exact sound
  | committed lone regular content ne sound' names sound => exact sound

theorem Operation.meets_program_disk (op : Operation) {log : List Call} (hd : d.Valid)
    (hfirm : d.Firm) : recorded.Meets (fun _ => Stays (Stands d.store.root) (op.candidate d.store))
      (fun t _ => Stays (Stands d.store.root) (op.candidate d.store) t) op.program (d, log) := by
  cases op with
  | publish => exact ((meets_publish_disk hd hfirm).post fun _ _ h => h.1).map
  | rollback => exact ((meets_rollback_disk hd hfirm).post fun _ _ h => h.1).map
  | recover => exact (meets_recover_disk hd hfirm).map
  | ensureCurrent => exact (meets_ensureCurrent_disk hd hfirm rfl).map

/-! ## A mark that is not on disk -/

variable {d : Disk} {c g : GenerationId}

/-- The pointer of a clean store can be switched. -/
theorem exists_switched (hd : d.Valid) (hs : Clean d.store c) (hg : d.store.Sound g)
    (hne : c ≠ g) (log : List Call) :
    ∃ t d' log' f, recorded.Returns (stagePointer g true) (d, log) (.ok ()) t ∧
      recorded.Returns (switchPointer g true) t (.ok ()) (d', log') ∧
      d'.Valid ∧ Switched d'.store c g f := by
  have hmeets : machine.Meets _ (MayDie c none) (stagePointer g true) d.store :=
    meets_stagePointer hs hg hne
  obtain ⟨hok, hstaging⟩ := hmeets.run
  obtain ⟨d1, log1, hstage, hstore⟩ := exists_returns_recorded (stagePointer g true) d log
  rw [hok] at hstage
  rw [← hstore] at hstaging
  obtain ⟨s, f, hswitch, hswitched⟩ := hstaging.exec_switch hs hg hne
  have hd1 : d1.Valid := (meets_valid hd log).returns hstage
  refine ⟨_, _, _, f, hstage, returns_issue (step_recorded hswitch log1), hd1.perform hswitch, ?_⟩
  rw [store_perform]
  exact hswitched

def Marked (s : Store) (c g : GenerationId) : Prop :=
  Pending s ⟨some g, .cleanupCommitted (JournalKind.committed.name g) (some c)⟩ g

/-- The mark of its success can be set and not be synced: the process dies, or the sync
fails. -/
theorem exists_unsynced_mark (hd : d.Valid) (h : Switched d.store c g f) (log : List Call) :
    ∃ d' log' s, Marked d'.store c g ∧ d'.PowerLoss s ∧ Settles s c ∧
      recorded.Stops (concludeSwitch g true) (d, log) (d', log') (.sync .root) ∧
      ∃ cause, recorded.Returns (concludeSwitch g true) (d, log) (.ok (.outcomeAmbiguous g cause))
        (d', log' ++ [.sync .root]) := by
  have hsync := Store.exec_sync .root d.store
  have hd1 : (d.perform (.sync .root) d.store).Valid := hd.perform hsync
  have h1 : Switched (d.perform (.sync .root) d.store).store c g f := h
  obtain ⟨s, hmark, _, _, _, hpending⟩ := h1.exec_mark
  generalize hd2 : (d.perform (.sync .root) d.store).perform _ s = d2
  have hsynced := (returns_issue (step_recorded hsync log)).attempt
  have hmarked := returns_issue (step_recorded hmark (log ++ [.sync .root]))
  rw [hd2] at hmarked
  have hlost : d2.PowerLoss d.store := by
    obtain ⟨root, _, rfl⟩ := Guard.map_eq_ok.mp hmark
    exact hd2 ▸ powerLoss_relink hd1 _ root
  refine ⟨d2, log ++ [.sync .root] ++ [_], d.store, ?_, hlost,
    h.settles, hsynced.stops (Stops.bind (Stops.attempt (hmarked.stops stops_issue))), ?_⟩
  · rw [← hd2, store_perform]
    exact hpending
  · exact ⟨_, hsynced.bind (Returns.bind (Returns.attempt (hmarked.bind
      (returns_issue (step_recorded_error _ _ _ "input/output error")))) ⟨rfl, rfl⟩)⟩

/-- Or the mark is on disk, and that it was taken away is not. -/
theorem exists_cleanup_pending (hd : d.Valid) (h : Switched d.store c g f) (log : List Call) :
    ∃ d' log' s cause, recorded.Returns (concludeSwitch g true) (d, log)
        (.ok (.committedWithCleanupPending g cause)) (d', log') ∧
      d'.PowerLoss s ∧ Settles s g := by
  have hsync := Store.exec_sync .root d.store
  have hd1 : (d.perform (.sync .root) d.store).Valid := hd.perform hsync
  have h1 : Switched (d.perform (.sync .root) d.store).store c g f := h
  have hsynced := (returns_issue (step_recorded hsync log)).attempt
  have hmeets : machine.Meets _ (MayDie c (some g)) _ _ := meets_markCommitted h1 rfl
  obtain ⟨hok, hlone, _, _, hsettles⟩ := hmeets.run
  obtain ⟨d2, log2, hmarks, hstore⟩ := exists_returns_recorded (markCommitted g true)
    (d.perform (.sync .root) d.store) (log ++ [.sync .root])
  rw [hok] at hmarks
  rw [← hstore] at hlone hsettles
  obtain ⟨d', log', hclears, hlost⟩ := exists_unsynced_clear ((meets_valid hd1 _).returns hmarks)
    hlone h.points.not_directory log2
  exact ⟨d', log', d2.store, _,
    hsynced.bind (hmarks.attempt.bind (hclears.attempt.bind ⟨rfl, rfl⟩)), hlost, hsettles⟩

/-- So a rollback can leave a store from which recovery returns the generation it selected
now, and the one before it after a power loss. -/
theorem exists_unsynced_rollback (hd : d.Valid) (hs : Clean d.store c) (hg : d.store.Sound g)
    (hne : c ≠ g) (log : List Call) :
    ∃ d' log' s, Marked d'.store c g ∧ d'.PowerLoss s ∧ Settles s c ∧
      recorded.Leaves (Operation.rollback g).program (d, log) (d', log') (some (.sync .root)) ∧
      ∃ cause, recorded.Returns (rollback g) (d, log) (.ok (.outcomeAmbiguous g cause))
        (d', log' ++ [.sync .root]) := by
  obtain ⟨t, d1, log1, f, hstage, hswitch, hd1, hswitched⟩ := exists_switched hd hs hg hne log
  obtain ⟨d', log', s, hmarked, hlost, hbefore, hstops, cause, hreturns⟩ :=
    exists_unsynced_mark hd1 hswitched log1
  exact ⟨d', log', s, hmarked, hlost, hbefore,
    (stops_rollback_of hs hg hne (hstage.stops (hswitch.stops hstops))).map, cause,
    returns_rollback_of hs hg hne (hstage.bind (hswitch.bind hreturns))⟩

theorem exists_rollback_pending (hd : d.Valid) (hs : Clean d.store c) (hg : d.store.Sound g)
    (hne : c ≠ g) (log : List Call) :
    ∃ d' log' s cause, recorded.Returns (rollback g) (d, log)
        (.ok (.committedWithCleanupPending g cause)) (d', log') ∧
      d'.PowerLoss s ∧ Settles s g := by
  obtain ⟨t, d1, log1, f, hstage, hswitch, hd1, hswitched⟩ := exists_switched hd hs hg hne log
  obtain ⟨d', log', s, cause, hreturns, hlost, hsettles⟩ :=
    exists_cleanup_pending hd1 hswitched log1
  exact ⟨d', log', s, cause, returns_rollback_of hs hg hne (hstage.bind (hswitch.bind hreturns)),
    hlost, hsettles⟩

/-- A recovery that is cut short on such a store can bring the old generation back. -/
theorem exists_recovers_neither (hs : Clean s c) (hg : s.Sound g) (hne : c ≠ g) :
    ∃ d d' : Disk, ∃ log next s', History d ∧ Recovers d.store g ∧
      recorded.Leaves Operation.recover.program (d, []) (d', log) next ∧ d'.PowerLoss s' ∧
      Recovers s' c := by
  obtain ⟨d, log, s', hmarked, hlost, hbefore, hleft, _⟩ :=
    exists_unsynced_rollback (valid_ofStore s) hs hg hne []
  obtain ⟨next, hleaves⟩ := exists_leaves_self recorded Operation.recover.program (d, [])
  exact ⟨d, d, [], next, s', .operate _ (.mount s) hleft, settles_iff.mp ⟨_, hmarked⟩, hleaves,
    hlost, settles_iff.mp hbefore⟩

/-- So can another rollback that reports an error. -/
theorem exists_misreported (hs : Clean s c) (hg : s.Sound g) (hne : c ≠ g) :
    ∃ d d' : Disk, ∃ log e s', History d ∧ Recovers d.store g ∧
      recorded.Returns (rollback g) (d, []) (.error e) (d', log) ∧ d'.PowerLoss s' ∧
      Recovers s' c := by
  obtain ⟨d, log, s', hmarked, hlost, hbefore, _, cause, hreturns⟩ :=
    exists_unsynced_rollback (valid_ofStore s) hs hg hne []
  have hleft : recorded.Leaves (Operation.rollback g).program (ofStore s, [])
      (d, log ++ [.sync .root]) none := ⟨_, hreturns.bind ⟨rfl, rfl⟩⟩
  have hpending : Pending d.store _ g := hmarked
  have hsound : d.store.Sound g := Settles.sound ⟨_, hpending⟩
  have herror : recorded.Returns (rollback g) (d, []) (.error "input/output error")
      (d, [.unlink (.root (JournalKind.committed.name g))]) := by
    refine returns_view.bind ((returns_lift hpending.inspect).bind ((returns_lift hsound).bind ?_))
    exact Returns.bind_error (Returns.bind_error (returns_issue (step_recorded_error _ _ _ _)))
  exact ⟨d, d, _, _, s', .operate _ (.mount s) hleft, settles_iff.mp ⟨_, hpending⟩, herror, hlost,
    settles_iff.mp hbefore⟩

end History

/-! ## Interrupted operations -/

/-- Whatever an interrupted operation leaves of a store, its pointer and journals on disk
before, a later recovery or selection that succeeds returns a valid generation: the one the
store stood for, or the candidate if the call that puts its pointer in place was issued. -/
theorem selects_after_power_loss [Sha256] (op : Operation) {d d' : Disk} {log : List Call}
    {next : Option Call} {s : Store} {x : GenerationId} (hd : History d) (hfirm : d.Firm)
    (hleft : recorded.Leaves op.program (d, []) (d', log) next) (hs : d'.Later s)
    (hx : Recovers s x ∨ s.selectCurrent = .ok x) :
    s.Sound x ∧
      (Stands d.store.root x ∨ op.candidate d.store = some x ∧ PointerSwitched x log) := by
  have hsettles : Settles s x := hx.elim settles_iff.mpr settles_of_selectCurrent
  exact ⟨hsettles.sound, (op.meets_program_disk hd.valid hfirm).leaves hleft s x hs hsettles⟩

/-- A rollback dies before the mark of its success is synced.  Recovery would return the new
generation, but a power loss while it starts brings the old one back. -/
theorem selects_after_power_loss_fails :
    letI := blankSha256
    ∃ d d' : Disk, ∃ log next s, History d ∧ Recovers d.store secondId ∧
      recorded.Leaves Operation.recover.program (d, []) (d', log) next ∧ d'.PowerLoss s ∧
      Recovers s firstId :=
  letI := blankSha256
  exists_recovers_neither clean_twoGenerations sound_twoGenerations firstId_ne_secondId

/-- A rollback dies before the mark of its success is synced, on a store just mounted.  Before
the power is lost recovery returns the new generation, and after that the old one. -/
theorem selects_after_power_loss_marked :
    letI := blankSha256
    ∃ d' log s, recorded.Leaves (Operation.rollback secondId).program
        (ofStore twoGenerations, []) (d', log) (some (.sync .root)) ∧ d'.PowerLoss s ∧
      Recovers d'.store secondId ∧ (Stands twoGenerations.root secondId ∨
        (Operation.rollback secondId).candidate twoGenerations = some secondId ∧
          PointerSwitched secondId log) ∧
      Recovers s firstId ∧ (Stands twoGenerations.root firstId ∨
        (Operation.rollback secondId).candidate twoGenerations = some firstId ∧
          PointerSwitched firstId log) := by
  generalize blankSha256 = sha
  have hs : Clean twoGenerations firstId := clean_twoGenerations
  have hg : twoGenerations.Sound secondId := sound_twoGenerations
  -- nothing below looks into the store
  generalize twoGenerations = store at hs hg
  obtain ⟨d', log, s, hmarked, hlost, hbefore, hleft, _⟩ :=
    exists_unsynced_rollback (valid_ofStore store) hs hg firstId_ne_secondId []
  have hselects := fun s x => selects_after_power_loss (s := s) (x := x) (.rollback secondId)
    (.mount store) (firm_ofStore store) hleft
  have hnew : Recovers d'.store secondId := settles_iff.mp ⟨_, hmarked⟩
  have hold : Recovers s firstId := settles_iff.mp hbefore
  exact ⟨d', log, s, hleft, hlost, hnew, (hselects _ _ (.inl rfl) (.inl hnew)).2, hold,
    (hselects _ _ (.inr hlost) (.inl hold)).2⟩

/-! ## Failing calls -/

/-- The operations that report the outcome of a pointer change. -/
inductive PointerChange where
  | publish (capture : Except String GenerationPublication)
      (nextId : ℕ → Except String GenerationId)
  | rollback (generation : GenerationId)

namespace PointerChange

def program [Sha256] : PointerChange → Run GenerationPublicationOutcome
  | publish capture nextId => Theme.publish capture nextId
  | rollback generation => Theme.rollback generation

def candidate : PointerChange → Store → Option GenerationId
  | publish _ nextId, store => publishCandidate nextId store
  | rollback generation, _ => some generation

end PointerChange

/-- The generation an outcome reports as committed. -/
def GenerationPublicationOutcome.committed? : GenerationPublicationOutcome → Option GenerationId
  | committed generation => some generation
  | committedWithCleanupPending generation _ => some generation
  | outcomeAmbiguous _ _ => none

/-- Whichever calls fail, a later recovery that succeeds returns the candidate after it was
reported as committed, and the generation the store stood for after an error. -/
def PointerChange.Reported [Sha256] (change : PointerChange) (d : Disk) : Prop :=
  ∀ d' log r s x, recorded.Returns change.program (d, []) r (d', log) → d'.Later s →
    Recovers s x →
    (∀ outcome g, r = .ok outcome → outcome.committed? = some g →
      change.candidate d.store = some g ∧ x = g) ∧
    ∀ e, r = .error e → Stands d.store.root x

section Reporting

variable [Sha256] {inventory : PointerJournalInventory}

theorem PointerChange.reported_of_firm (change : PointerChange) (hd : d.Valid) (hfirm : d.Firm) :
    change.Reported d := by
  intro d' log r s x hreturns hs hx
  have hfinished : Finished (Stands d.store.root) (change.candidate d.store) r (d', log) := by
    cases change with
    | publish => exact (meets_publish_disk hd hfirm).returns hreturns
    | rollback => exact (meets_rollback_disk hd hfirm).returns hreturns
  have hsettles : Settles s x := settles_iff.mpr hx
  constructor
  · rintro outcome g rfl hg
    cases outcome with
    | committed | committedWithCleanupPending =>
      cases hg
      exact ⟨hfinished.2.1, hfinished.2.2 s x hs hsettles⟩
    | outcomeAmbiguous => cases hg
  · rintro e rfl
    exact hfinished.2 s x hs hsettles

theorem stands_of_clean (hinspect : s.inspectPointerJournals = .ok inventory)
    (hclean : inventory.state = .clean) {g : GenerationId} (hg : s.resolveCurrent = .ok g) :
    Stands s.root g := by
  rcases inventory_of_inspect hinspect with ⟨c, h⟩ | h
  · have hstands : Stands s.root c := Settles.stands ⟨inventory, h⟩
    cases h with
    | clean quiet names sound =>
      have hc : Clean s c := ⟨quiet, names, sound⟩
      rw [hc.resolveCurrent] at hg
      cases hg
      exact hstands
    | _ => cases hclean
  · cases h with
    | cleanAbsent quiet absent => exact absurd hg (resolveCurrent_ne_ok absent g)
    | _ => cases hclean

/-- With every call failing a change can report nothing but that its generation is current. -/
theorem PointerChange.refused_program (change : PointerChange) (d : Disk) :
    Refused (fun outcome => ∃ g, outcome.committed? = some g ∧ Stands d.store.root g)
      change.program d [] := by
  cases change with
  | publish =>
    refine refused_view.bind fun _ _ _ => (refused_lift _).bind fun inventory _ _ => ?_
    exact refused_cleanStaging.bind fun _ _ => False.elim
  | rollback g =>
    refine refused_view.bind ?_
    rintro _ _ rfl
    refine (refused_lift _).bind fun inventory _ hinspect => (refused_lift _).bind fun _ _ _ => ?_
    refine (refused_cleanPointerStaging inventory).bind fun _ _ hclean => refused_view.bind ?_
    rintro _ _ rfl
    refine (refused_lift _).bind fun c log hresolve => ?_
    split_ifs with hcg
    · refine ⟨.ok (.committed g), log, ⟨rfl, rfl⟩, ?_⟩
      rintro _ ⟨⟩
      exact ⟨g, rfl, hcg ▸ stands_of_clean hinspect hclean hresolve⟩
    · exact Refused.bind (Refused.bind refused_issue_bind fun _ _ => False.elim)
        fun _ _ => False.elim

theorem PointerChange.Reported.yields {change : PointerChange} (h : change.Reported d) :
    Yields d (Stands d.store.root) := by
  intro s x hs hx
  obtain ⟨r, log, hreturns, hr⟩ := change.refused_program d
  obtain ⟨hcommitted, herror⟩ := h d log r s x hreturns hs (settles_iff.mp hx)
  cases r with
  | error e => exact herror e rfl
  | ok outcome =>
    obtain ⟨g, hg, hstands⟩ := hr outcome rfl
    exact (hcommitted outcome g rfl hg).2 ▸ hstands

end Reporting

/-- A pointer change keeps what it reports if the entries that say what the store stands for
are on disk, and only if no power loss before it starts can make recovery return anything
else. -/
theorem recovers_as_reported [Sha256] (change : PointerChange) {d : Disk} (hd : History d) :
    (d.Firm → change.Reported d) ∧ (change.Reported d → Yields d (Stands d.store.root)) :=
  ⟨change.reported_of_firm hd.valid, PointerChange.Reported.yields⟩

/-- A rollback reports an ambiguous outcome because its mark could not be synced, another one
an error because it could not take the mark away.  The generation that was current before the
second is lost with the power. -/
theorem recovers_as_reported_fails :
    letI := blankSha256
    ∃ d d' : Disk, ∃ log e s, History d ∧ Recovers d.store secondId ∧
      recorded.Returns (PointerChange.rollback secondId).program (d, []) (.error e) (d', log) ∧
      d'.PowerLoss s ∧ Recovers s firstId :=
  letI := blankSha256
  exists_misreported clean_twoGenerations sound_twoGenerations firstId_ne_secondId

/-- The sync after the mark of its success was taken away fails in a rollback on a store just
mounted, and the power is lost. -/
theorem recovers_as_reported_pending :
    letI := blankSha256
    ∃ d' log cause s x, recorded.Returns (PointerChange.rollback secondId).program
        (ofStore twoGenerations, []) (.ok (.committedWithCleanupPending secondId cause))
        (d', log) ∧ d'.PowerLoss s ∧ Recovers s x ∧ x = secondId := by
  generalize blankSha256 = sha
  have hs : Clean twoGenerations firstId := clean_twoGenerations
  have hg : twoGenerations.Sound secondId := sound_twoGenerations
  -- nothing below looks into the store
  generalize twoGenerations = store at hs hg
  obtain ⟨d', log, s, cause, hreturns, hlost, hsettles⟩ :=
    exists_rollback_pending (valid_ofStore store) hs hg firstId_ne_secondId []
  have hrecovers := settles_iff.mp hsettles
  have hreported := (recovers_as_reported (.rollback secondId) (.mount store)).1
    (firm_ofStore store) _ _ _ _ _ hreturns (.inr hlost) hrecovers
  exact ⟨d', log, cause, s, _, hreturns, hlost, hrecovers, (hreported.1 _ _ rfl rfl).2⟩

end Realm.Theme

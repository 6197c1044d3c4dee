import Realm.Theme.PowerLoss

/-!
# What an operation leaves for later processes

Every operation, started while the pointer and the journals are on disk, leaves a disk on
which a later recovery or selection returns the generation the store stood for before or
the candidate, whichever calls fail and wherever the power is lost.
-/

namespace Realm.Theme

open Text Prog Machine JournalKind Option Disk

variable {s : Store} {α : Type} {p : Run α} {order : PublicationOrder}

/-! ## Pointer and journals on disk -/

/-- No change of an entry that says what the store stands for is still on its way to the
disk. -/
structure Disk.Firm (d : Disk) : Prop where
  entries : ∀ L, d.Survives L → ∀ n, Pivotal d.store.root n → L.lookup n = d.entries.lookup n
  synced : ∀ n i, Pivotal d.store.root n → d.entries.lookup n = some i →
    (d.inodes i).synced = true

section Firm

variable {d d' : Disk} {c g : GenerationId} {n : Bytes} {f : File}

theorem Disk.Firm.keeps (h : d.Firm) (hd : d.Valid) (hk : Keeps (fun _ => False) d d') :
    d'.Firm := by
  have hroot : ∀ n, Pivotal d.store.root n → d.store.root.lookup n = d'.store.root.lookup n := by
    intro n hn
    rw [hd.shows, hk.valid.shows, hk.harmless.entries n id]
    cases hlookup : d.entries.lookup n with
    | none => rfl
    | some i =>
      have hsaved := hk.harmless.saved i (hd.old_entries hlookup) (h.synced n i hn hlookup)
      rw [map_some, map_some, hsaved]
  have hpivotal : ∀ n, Pivotal d'.store.root n → Pivotal d.store.root n := by
    intro n hn
    cases hn with
    | pointer => exact .pointer
    | journal standing =>
      exact .journal (standing.imp (·.congr (hroot _ .pointer)) (·.congr hroot))
    | marker x => exact .marker x
  refine ⟨fun L' hL' n hn => ?_, fun n i hn hlookup => ?_⟩
  · obtain ⟨L, hL, heq⟩ := hk.harmless.survives L' hL'
    rw [heq n id, h.entries L hL n (hpivotal n hn), hk.harmless.entries n id]
  · rw [hk.harmless.entries n id] at hlookup
    have hsynced := h.synced n i (hpivotal n hn) hlookup
    rw [hk.harmless.saved i (hd.old_entries hlookup) hsynced]
    exact hsynced

theorem Disk.Firm.points (h : d.Firm) (hd : d.Valid) (hn : Pivotal d.store.root n)
    (hlookup : d.store.root.lookup n = some f) (hf : f.PointsTo g) :
    ∃ i, d.entries.lookup n = some i ∧ d.Points i g := by
  obtain ⟨hentry, hfile⟩ := hd.lookup_eq_some hlookup
  exact ⟨_, hentry, hd.old_entries hentry, h.synced n _ hn hentry, hfile ▸ hf⟩

theorem Disk.Firm.later (h : d.Firm) (hd : d.Valid) (hs : d.Later s)
    (hn : Pivotal d.store.root n) : s.root.lookup n = d.store.root.lookup n := by
  obtain ⟨L, hL, hshown⟩ : ∃ L, d.Survives L ∧ d.Shown L s.root := hs.exists_shown hd
  have hentry := h.entries L hL n hn
  cases hlookup : d.entries.lookup n with
  | none =>
    rw [hlookup] at hentry
    rw [hshown.lookup_none hentry, hd.lookup_eq_none.mpr hlookup]
  | some i =>
    rw [hlookup] at hentry
    obtain ⟨f, hf, hsynced⟩ := hshown.lookup_some hentry
    rw [hf, hd.shows, hlookup, hsynced (h.synced n i hn hlookup), map_some]

theorem Disk.Firm.ready (h : d.Firm) (hd : d.Valid) (hnames : Names d.store.root c)
    (hfree : d.store.root.lookup (current.name c) = none) : Ready (some c) d := by
  have hjournal : Pivotal d.store.root (current.name c) := .journal (.inl hnames)
  obtain ⟨f, hlookup, hf⟩ := hnames
  obtain ⟨i, hentry, hi⟩ := h.points hd .pointer hlookup hf
  refine ⟨hd, fun L hL => ⟨i, (h.entries L hL _ .pointer).trans hentry, hi, ?_⟩⟩
  exact (h.entries L hL _ hjournal).trans (hd.lookup_eq_none.mp hfree)

theorem Disk.Firm.ready_none (h : d.Firm) (hd : d.Valid)
    (habsent : d.store.root.lookup currentName = none) : Ready none d :=
  ⟨hd, fun L hL => (h.entries L hL _ .pointer).trans (hd.lookup_eq_none.mp habsent)⟩

end Firm

/-! ## Steps around a pointer change -/

section Around

variable {d d' : Disk} {log : List Call} {prev : Option GenerationId} {names : Bytes → Prop}

theorem Ready.keeps (h : Ready prev d) (hk : Keeps names d d') (hcurrent : ¬ names currentName)
    (hjournal : ∀ c, prev = some c → ¬ names (current.name c)) : Ready prev d' :=
  ⟨hk.valid, hk.harmless.settled hcurrent hjournal h.settled⟩

theorem Ready.rootless (h : Ready prev d) (hk : Keeps (fun _ => False) d d') : Ready prev d' :=
  h.keeps hk id fun _ _ => id

theorem Ready.meets_rootless {scope : Scope} (h : Ready prev d) (hp : p.Issues (Call.Within scope))
    (hscope : ∀ n, ¬ scope.root n) :
    recorded.Meets (fun _ t => Ready prev t.1) (fun t _ => Ready prev t.1) p (d, log) :=
  (Theme.meets_rootless hp hscope h.valid).mono (fun _ _ hk => h.rootless hk)
    fun _ _ hk => h.rootless hk

theorem Ready.meets_issue (h : Ready prev d) (call : Call) (hcall : call.Within Disk.Rootless) :
    recorded.Meets (fun _ t => Ready prev t.1) (fun t _ => Ready prev t.1) (issue call) (d, log) :=
  h.meets_rootless (issues_issue hcall) fun _ => id

theorem Ready.absent (h : Ready none d) : d.store.root.lookup currentName = none :=
  h.valid.lookup_eq_none.mpr h.settled.entries

theorem Keeps.sync (h : d.Valid) (hexec : Store.exec (.sync .root) d.store = .ok s) :
    Keeps names d (d.perform (.sync .root) s) :=
  ⟨h.perform hexec, (harmless_rootless (c := .sync .root) trivial).mono nofun⟩

/-- Taking away an entry that is not the pointer and does not undo it. -/
theorem meets_unlink_sync {n : Bytes} (h : Ready prev d) (hn : n ≠ currentName)
    (hn' : ∀ c, prev = some c → n ≠ current.name c) : recorded.Meets (fun r t => Ready prev t.1 ∧
        (r = .ok () → Store.exec (.unlink (.root n)) d.store = .ok t.1.store))
      (fun t _ => Ready prev t.1)
      (issue (.unlink (.root n)) >>= fun _ => issue (.sync .root)) (d, log) := by
  rw [meets_bind]
  refine meets_recorded h (fun s hexec => ?_) fun e => ⟨h, nofun⟩
  have hk : Keeps (· = n) d (d.perform (.unlink (.root n)) s) :=
    ⟨h.valid.unlink hexec, harmless_unlink⟩
  have h' : Ready prev (d.perform (.unlink (.root n)) s) :=
    h.keeps hk hn.symm fun c hc => (hn' c hc).symm
  rw [then_ok]
  refine meets_recorded h' (fun s' hexec' => ?_) fun e => ⟨h', nofun⟩
  refine ⟨h'.rootless (.sync h'.valid hexec'), fun _ => ?_⟩
  rw [store_perform, Store.exec_sync] at hexec'
  cases hexec'
  rw [hexec, store_perform]

theorem meets_cleanStaging_disk (hd : d.Valid) (hfirm : d.Firm) : recorded.Meets
      (fun _ t => t.1.Valid ∧ t.1.Firm ∧
        SameOutside (.ofTrees fun n => isStagingName n = true) d.store t.1.store)
      (fun t _ => t.1.Valid ∧ t.1.Firm ∧
        SameOutside (.ofTrees fun n => isStagingName n = true) d.store t.1.store)
      cleanStaging (d, log) := by
  refine ((meets_rootless issues_cleanStaging (fun _ => id) hd).and
    (meets_sameOutside faithful_recorded issues_cleanStaging (d, log))).mono ?_ ?_
  · rintro r t ⟨hk, hsame⟩
    exact ⟨hk.valid, hfirm.keeps hd hk, hsame⟩
  · rintro t call ⟨hk, hsame, _⟩
    exact ⟨hk.valid, hfirm.keeps hd hk, hsame⟩

theorem meets_cleanPublicationOrderStaging_disk (h : Ready prev d) :
    recorded.Meets (fun _ t => Ready prev t.1) (fun t _ => Ready prev t.1)
      cleanPublicationOrderStaging (d, log) := by
  rw [cleanPublicationOrderStaging, meets_view_bind]
  refine meets_lift_bind_cases (fun _ _ => h) fun present _ => ?_
  cases present with
  | false => exact h
  | true =>
    refine (meets_unlink_sync h ?_ fun c _ => ?_).mono (fun _ _ h => h.1) fun _ _ h => h
    · exact fun heq => not_control_orderStagingName (.inl heq)
    · exact fun heq => not_control_orderStagingName (heq ▸ control_name _ c)

theorem meets_replacePublicationOrder_disk (h : Ready prev d) :
    recorded.Meets (fun _ t => Ready prev t.1) (fun t _ => Ready prev t.1)
      (replacePublicationOrder order) (d, log) := by
  have hready : ∀ {d d' : Disk} {names : Bytes → Prop}, Ready prev d → Keeps names d d' →
      (∀ n, names n → ¬ Control n) → Ready prev d' := fun h hk hnames =>
    h.keeps hk (fun hn => hnames _ hn (.inl rfl)) fun c _ hn => hnames _ hn (control_name _ c)
  have hstaging : ∀ n, n = orderStagingName → ¬ Control n := by
    rintro n rfl
    exact not_control_orderStagingName
  rw [replacePublicationOrder, meets_bind]
  refine (meets_writeSyncedFile_root h.valid).mono ?_ fun t _ hk => hready h hk hstaging
  rintro r ⟨d1, log1⟩ ⟨hk1, _⟩
  have h1 := hready h hk1 hstaging
  cases r with
  | error => exact h1
  | ok =>
    rw [then_ok, meets_bind]
    refine meets_recorded h1 (fun s hexec => ?_) fun e => h1
    have h2 := hready h1 ⟨h1.valid.rename hexec, harmless_rename⟩ (by
      rintro n (rfl | rfl)
      · exact not_control_orderStagingName
      · exact not_control_publicationOrderName)
    rw [then_ok]
    exact meets_recorded h2 (fun s' hexec' => h2.rootless (.sync h2.valid hexec')) fun e => h2

end Around

/-! ## Cleaning up -/

section Cleaning

variable [Sha256] {d : Disk} {log : List Call} {inventory : PointerJournalInventory}
  {c : GenerationId}

/-- What cleaning up leaves: what the store stood for and, unless it fails, no change under
way. -/
def Cleaned (prev : Option GenerationId) (r : Except String Unit) (t : Disk × List Call) : Prop :=
  Base prev t.1 ∧ (r = .ok () → Ready prev t.1 ∧ ∀ c, prev = some c → Clean t.1.store c)

theorem Ready.cleaned (h : Ready (some c) d) (hclean : Clean d.store c) (r : Except String Unit) :
    Cleaned (some c) r (d, log) :=
  ⟨h.base, fun _ => ⟨h, fun _ hc => some_inj.mp hc ▸ hclean⟩⟩

theorem Ready.cleaned_none (h : Ready none d) (r : Except String Unit) :
    Cleaned none r (d, log) :=
  ⟨h.base, fun _ => ⟨h, nofun⟩⟩

theorem Base.uncleaned {prev : Option GenerationId} (h : Base prev d) (e : String) :
    Cleaned prev (.error e) (d, log) :=
  ⟨h, nofun⟩

theorem Ready.meets_unlink_cleaned {n : Bytes} (h : Ready (some c) d) (hn : n ≠ currentName)
    (hn' : n ≠ current.name c) (hlookup : d.store.root.lookup n = some f)
    (hfile : f.fileType ≠ .directory)
    (hclean : Clean { d.store with root := d.store.root.erase n } c) :
    recorded.Meets (Cleaned (some c)) (fun t _ => Base (some c) t.1)
      (issue (.unlink (.root n)) >>= fun _ => issue (.sync .root)) (d, log) := by
  refine (meets_unlink_sync h hn fun c' hc' => some_inj.mp hc' ▸ hn').mono ?_ fun _ _ h => h.base
  rintro r t ⟨ht, hstore⟩
  refine ⟨ht.base, fun hr => (ht.cleaned ?_ r).2 hr⟩
  have hexec := hstore hr
  rw [exec_unlink_root hlookup hfile] at hexec
  rw [← Except.ok.inj hexec]
  exact hclean

/-- The pointer is taken back: its journal is renamed over it, which is synced. -/
theorem meets_takeBack (hd : d.Valid) (hfirm : d.Firm) (hstands : Stands d.store.root c)
    (lone : Lone d.store.root .current g f) (points : f.PointsTo c) (names : Names d.store.root g)
    (ne : c ≠ g) (sound : d.store.Sound c) :
    recorded.Meets (Cleaned (some c)) (fun t _ => Base (some c) t.1)
      (issue (.rename .root (current.name g) currentName) >>= fun _ => issue (.sync .root))
      (d, log) := by
  have hjournal : Pivotal d.store.root (current.name g) := .journal (.inl names)
  obtain ⟨f', hcurrent, hpoints⟩ := names
  obtain ⟨k, hk, hkg⟩ := hfirm.points hd .pointer hcurrent hpoints
  obtain ⟨i, hi, hic⟩ := hfirm.points hd hjournal lone.here points
  have hfree : d.entries.lookup (current.name c) = none :=
    hd.lookup_eq_none.mp (lone.lookup_name (by simpa using ne))
  have hall : d.All (ExchangedAt c g i k) := fun L hL =>
    ⟨(hfirm.entries L hL _ .pointer).trans hk,
      (hfirm.entries L hL _ (.journal (.inr hstands))).trans hfree,
      (hfirm.entries L hL _ hjournal).trans hi⟩
  have hbase : Base (some c) d := ⟨hd, hall.mono fun L h => h.rests hic hkg ne⟩
  have hclean : Clean { d.store with
      root := (d.store.root.erase (current.name g)).insert currentName f } c :=
    ⟨lone.erase.insert_current, names_insert_current points, sound⟩
  have hrename := exec_rename_root lone.here (m := currentName) fun f'' hf'' => by
    rw [hcurrent, mem_some_iff] at hf''
    exact hf'' ▸ hpoints.not_directory
  rw [meets_bind]
  refine meets_relink (R := MarkedAt c i) (fun _ => rfl) hd hall (fun L hL => ?_) hbase
    (fun e => hbase.uncleaned e) fun d' hexec h' _ hentries => ?_
  · rw [inode_eq hi]
    simp [MarkedAt, lookup_move, ne, hL.2.1]
  have hi' := h'.points hic
  have hbase' : Base (some c) d' := ⟨h'.valid, h'.all.mono fun L h =>
    h.elim (fun h => h.rests hi' (h'.points hkg) ne) fun h => h.rests hi'⟩
  rw [then_ok]
  refine meets_sync h'.valid hentries hbase' (fun e => hbase'.uncleaned e)
    fun d'' hstore h'' => ?_
  have hready : Ready (some c) d'' :=
    ⟨h''.valid, h''.all.mono fun L hL => ⟨i, hL.1, h''.points hi', hL.2⟩⟩
  refine hready.cleaned ?_ _
  rw [hstore, ← Except.ok.inj (hrename.symm.trans hexec)]
  exact hclean

theorem meets_cleanPointerStaging_pending (hd : d.Valid) (hfirm : d.Firm)
    (h : Pending d.store inventory c) :
    recorded.Meets (Cleaned (some c)) (fun t _ => Base (some c) t.1)
      (cleanPointerStaging inventory) (d, log) := by
  have hstands : Stands d.store.root c := Settles.stands ⟨inventory, h⟩
  cases h with
  | clean quiet names sound =>
    exact (hfirm.ready hd names (quiet.lookup_name .current c)).cleaned ⟨quiet, names, sound⟩ _
  | @discard _ g f lone points names ne sound sound' =>
    have hready := hfirm.ready hd names (lone.lookup_name (by simpa using ne))
    exact hready.meets_unlink_cleaned (by simp) (by simpa using ne.symm) lone.here
      points.not_directory ⟨lone.erase, names.erase_name _ g, sound⟩
  | @committed _ f previous lone regular content ne sound' names sound =>
    have hready := hfirm.ready hd names (lone.lookup_name (by simp))
    exact hready.meets_unlink_cleaned (by simp) (by simp) lone.here (by simp [regular])
      ⟨lone.erase, names.erase_name _ c, sound⟩
  | rollback lone points names ne sound =>
    exact meets_takeBack hd hfirm hstands lone points names ne sound

theorem meets_cleanPointerStaging_unpointed (hd : d.Valid) (hfirm : d.Firm)
    (h : Unpointed d.store inventory) :
    recorded.Meets (Cleaned none) (fun t _ => Base none t.1) (cleanPointerStaging inventory)
      (d, log) := by
  have hsync : ∀ d log, Ready none d →
      recorded.Meets (Cleaned none) (fun t _ => Base none t.1) (issue (.sync .root)) (d, log) := by
    intro d log hready
    refine meets_recorded hready.base (fun s hexec => ?_) fun e => hready.base.uncleaned e
    exact (hready.rootless (.sync hready.valid hexec)).cleaned_none _
  have hthen : ∀ {d : Disk} {log : List Call} {n : Bytes} {p : Run Unit}, Ready none d →
      n ≠ currentName →
      (∀ d log, Ready none d →
        recorded.Meets (Cleaned none) (fun t _ => Base none t.1) p (d, log)) →
      recorded.Meets (Cleaned none) (fun t _ => Base none t.1)
        (issue (.unlink (.root n)) >>= fun _ => p) (d, log) := by
    intro d log n p hready hn hp
    rw [meets_bind]
    refine meets_recorded hready.base (fun s hexec => ?_) fun e => hready.base.uncleaned e
    exact hp _ _ (hready.keeps ⟨hready.valid.unlink hexec, harmless_unlink⟩ hn.symm nofun)
  cases h with
  | cleanAbsent quiet absent => exact (hfirm.ready_none hd absent).cleaned_none _
  | discardAbsent lone points absent => exact hthen (hfirm.ready_none hd absent) (by simp) hsync
  | discardPristine journal points marker only absent =>
    exact hthen (hfirm.ready_none hd absent) (by simp) fun d log hready =>
      hthen hready (by simp) hsync
  | @rollbackAbsent g f lone names sound =>
    have hstaging : current.start ++ (absent.name g).drop absent.start.length =
        current.name g := congrArg _ List.drop_left
    obtain ⟨hmarker, _⟩ := hd.lookup_eq_some lone.here
    have hall : d.All fun L => ∃ i, L.lookup (absent.name g) = some i := fun L hL =>
      ⟨_, (hfirm.entries L hL _ (.marker g)).trans hmarker⟩
    have hbase : Base none d := ⟨hd, hall.mono fun L h => .inr ⟨g, h⟩⟩
    rw [cleanPointerStaging]
    dsimp only
    rw [hstaging, meets_bind]
    refine meets_relink (R := fun L => L.lookup currentName = none) (fun _ => rfl) hd hall
      (fun L _ => by simp [lookup_move]) hbase (fun e => hbase.uncleaned e)
      fun d' _ h' _ hentries => ?_
    have hbase' : Base none d' :=
      ⟨h'.valid, h'.all.mono fun L h => h.elim (fun h => .inr ⟨g, h⟩) .inl⟩
    rw [then_ok, meets_bind]
    refine meets_sync (P := fun L => L.lookup currentName = none) h'.valid hentries hbase'
      (fun e => hbase'.uncleaned e) fun d'' _ h'' => ?_
    rw [then_ok]
    exact hthen ⟨h''.valid, h''.all⟩ (by simp) fun d log hready => hthen hready (by simp) hsync

end Cleaning

/-! ## What later processes find -/

section Later

variable [Sha256] {t : Disk × List Call}

/-- Every later recovery or selection on the disk returns such a generation. -/
def Yields (d : Disk) (P : GenerationId → Prop) : Prop :=
  ∀ s x, d.Later s → Settles s x → P x

/-- Nothing but a generation from before or, once its pointer was switched, the candidate
can be returned later. -/
def Stays (before : GenerationId → Prop) (candidate : Option GenerationId)
    (t : Disk × List Call) : Prop :=
  Yields t.1 fun x => before x ∨ candidate = some x ∧ PointerSwitched x t.2

/-- What a reported outcome promises: the candidate once it is committed, and a generation
from before if there was an error. -/
def Promised (before : GenerationId → Prop) (candidate : Option GenerationId) :
    Except String GenerationPublicationOutcome → Disk → Prop
  | .ok (.committed g), d => candidate = some g ∧ Yields d (· = g)
  | .ok (.committedWithCleanupPending g _), d => candidate = some g ∧ Yields d (· = g)
  | .ok (.outcomeAmbiguous _ _), _ => True
  | .error _, d => Yields d before

/-- The end of an operation that selects a generation. -/
def Finished (before : GenerationId → Prop) (candidate : Option GenerationId)
    (r : Except String GenerationPublicationOutcome) (t : Disk × List Call) : Prop :=
  Stays before candidate t ∧ Promised before candidate r t.1

variable {d : Disk} {log : List Call} {prev candidate : Option GenerationId} {g : GenerationId}
  {before : GenerationId → Prop} {publication : GenerationPublication}

theorem Yields.mono {P R : GenerationId → Prop} (h : Yields d P) (hP : ∀ x, P x → R x) :
    Yields d R := fun s x hs hx => hP x (h s x hs hx)

theorem Base.yields (h : Base prev d) : Yields d fun x => prev = some x := by
  intro s x hs hx
  obtain ⟨L, hL, hshown⟩ : ∃ L, d.Survives L ∧ d.Shown L s.root := hs.exists_shown h.valid
  exact (h.rests L hL).eq_some hshown hx.stands

theorem Midway.yields (h : Midway prev g t) :
    Yields t.1 fun x => prev = some x ∨ g = x ∧ PointerSwitched g t.2 := by
  intro s x hs hx
  obtain ⟨L, hL, hshown⟩ : ∃ L, t.1.Survives L ∧ t.1.Shown L s.root := hs.exists_shown h.valid
  rcases h.rests L hL with hrests | ⟨hlog, hrests⟩
  · exact .inl (hrests.eq_some hshown hx.stands)
  · exact .inr ⟨some_inj.mp (hrests.eq_some hshown hx.stands), hlog⟩

theorem Disk.Firm.yields (h : d.Firm) (hd : d.Valid) : Yields d (Stands d.store.root) :=
  fun _ _ hs hx => hx.stands.congr fun _ hn => (h.later hd hs hn).symm

theorem Base.stays (h : Base prev d) (hprev : ∀ x, prev = some x → before x) :
    Stays before candidate (d, log) :=
  h.yields.mono fun x hx => .inl (hprev x hx)

theorem Base.failed (h : Base prev d) (hprev : ∀ x, prev = some x → before x) (e : String) :
    Finished before candidate (.error e) (d, log) :=
  ⟨h.stays hprev, h.yields.mono hprev⟩

theorem Midway.stays (h : Midway prev g t)
    (hprev : ∀ x, prev = some x → before x) (hcandidate : candidate = some g) :
    Stays before candidate t := by
  refine h.yields.mono fun x hx => hx.imp (hprev x) ?_
  rintro ⟨rfl, hlog⟩
  exact ⟨hcandidate, hlog⟩

theorem Concluded.finished {r : Except String GenerationPublicationOutcome}
    (h : Concluded prev g r t) (hprev : ∀ x, prev = some x → before x)
    (hcandidate : candidate = some g) : Finished before candidate r t := by
  have hcommitted : PointerSwitched g t.2 → Base (some g) t.1 → Stays before candidate t ∧
      candidate = some g ∧ Yields t.1 (· = g) := by
    intro hlog hbase
    have hyields : Yields t.1 (· = g) := hbase.yields.mono fun x hx => (some_inj.mp hx).symm
    refine ⟨hyields.mono ?_, hcandidate, hyields⟩
    rintro x rfl
    exact .inr ⟨hcandidate, hlog⟩
  match r, h with
  | .ok (.committed g'), ⟨hg, hlog, hbase⟩ => exact hg ▸ hcommitted hlog hbase
  | .ok (.committedWithCleanupPending g' _), ⟨hg, hlog, hbase⟩ => exact hg ▸ hcommitted hlog hbase
  | .ok (.outcomeAmbiguous _ _), h => exact ⟨Midway.stays h hprev hcandidate, trivial⟩
  | .error e, h => exact Base.failed h hprev e

/-! ## The operations -/

theorem meets_publishGenerationLocked_disk (h : Ready prev d) (hne : ∀ c, prev = some c → c ≠ g)
    (hprev : ∀ x, prev = some x → before x) (hcandidate : candidate = some g) :
    recorded.Meets (Finished before candidate) (fun t _ => Stays before candidate t)
      (publishGenerationLocked publication g order prev.isSome) (d, log) := by
  have hnext {d : Disk} {log : List Call} {p : Run Unit}
      {f : Unit → Run GenerationPublicationOutcome}
      (hp : recorded.Meets (fun _ t => Ready prev t.1) (fun t _ => Ready prev t.1) p (d, log))
      (hf : ∀ d log, Ready prev d → recorded.Meets (Finished before candidate)
        (fun t _ => Stays before candidate t) (f ()) (d, log)) :
      recorded.Meets (Finished before candidate) (fun t _ => Stays before candidate t) (p >>= f)
        (d, log) :=
    hp.bind (fun _ _ ht => ht.base.stays hprev) (fun e _ ht => ht.base.failed hprev e)
      fun _ t ht => hf t.1 t.2 ht
  refine hnext (h.meets_rootless (issues_stageTree publication g) fun _ => id) fun d log h => ?_
  refine hnext (meets_replacePublicationOrder_disk h) fun d log h => ?_
  refine hnext (h.meets_issue (.rename .generations _ _) ⟨trivial, trivial⟩) fun d log h => ?_
  refine hnext (h.meets_issue (.sync .generations) trivial) fun d log h => ?_
  cases prev with
  | some c =>
    exact (meets_commitPointer_disk h (hne c rfl)).mono
      (fun _ _ h => h.finished hprev hcandidate) fun _ _ h => h.stays hprev hcandidate
  | none =>
    exact (meets_commitPointer_first h).mono
      (fun _ _ h => h.finished hprev hcandidate) fun _ _ h => h.stays hprev hcandidate

theorem meets_publishAllocatedLocked_disk {nextId : ℕ → Except String GenerationId}
    (h : Ready prev d) (hmem : ∀ c, prev = some c → c.text ∈ d.store.generations)
    (hprev : ∀ x, prev = some x → before x)
    (hcandidate : ∀ g, allocate nextId order d.store.generations 64 0 = .ok (some g) →
      candidate = some g) :
    recorded.Meets (Finished before candidate) (fun t _ => Stays before candidate t)
      (publishAllocatedLocked publication prev.isSome order nextId) (d, log) := by
  rw [publishAllocatedLocked]
  refine meets_lift_bind_cases (fun e _ => h.base.failed hprev e) ?_
  rintro ⟨sequence, order'⟩ hreserve
  dsimp only
  refine ((meets_replacePublicationOrder_disk h).and (meets_sameOutside faithful_recorded
    (issues_replacePublicationOrder order') _)).bind (fun t _ ht => ht.1.base.stays hprev)
    (fun e _ ht => ht.1.base.failed hprev e) ?_
  rintro - ⟨d1, log1⟩ ⟨h1, hsame⟩
  rw [meets_view_bind]
  refine meets_lift_bind_cases (fun e _ => h1.base.failed hprev e) fun drawn hdrawn => ?_
  refine meets_lift_bind_cases (fun e _ => h1.base.failed hprev e) fun g hg => ?_
  rw [okOr_eq_ok] at hg
  subst hg
  have hgenerations : ∀ g : GenerationId, g.text ∈ d1.store.generations ↔
      g.text ∈ d.store.generations := fun g => mem_text_congr (hsame.trees _ id)
  have hdrawn' : allocate nextId order d.store.generations 64 0 = .ok (some g) := by
    rw [← hdrawn]
    exact (allocate_congr (PublicationOrder.sequences_reserve hreserve) hgenerations _ _).symm
  refine meets_lift_bind_cases (fun e _ => h1.base.failed hprev e) fun _ _ => ?_
  refine meets_publishGenerationLocked_disk h1 (fun c hc heq => ?_) hprev (hcandidate g hdrawn')
  subst heq
  exact allocate_fresh hdrawn ((hgenerations c).mpr (hmem c hc))

end Later

/-! ## The operations -/

/-- What the inspection of a store found: a generation to settle on, or none. -/
def Inspected [Sha256] (s : Store) (inventory : PointerJournalInventory) :
    Option GenerationId → Prop
  | some c => Pending s inventory c
  | none => Unpointed s inventory

section Operations

variable [Sha256] {d : Disk} {log : List Call} {inventory : PointerJournalInventory}
  {prev candidate : Option GenerationId} {s s' : Store}
  {capture : Except String GenerationPublication} {nextId : ℕ → Except String GenerationId}
  {before : GenerationId → Prop}

theorem exists_inspected (h : s.inspectPointerJournals = .ok inventory) :
    ∃ prev, Inspected s inventory prev :=
  (inventory_of_inspect h).elim (fun ⟨c, h⟩ => ⟨some c, h⟩) fun h => ⟨none, h⟩

theorem Inspected.kept (h : Inspected s inventory prev) (hk : Kept s s') :
    Inspected s' inventory prev := by
  cases prev with
  | some => exact Pending.kept h hk
  | none => exact Unpointed.kept h hk

theorem Inspected.stands (h : Inspected s inventory prev) :
    ∀ x, prev = some x → Stands s.root x := by
  rintro x rfl
  exact Settles.stands ⟨inventory, h⟩

theorem Inspected.issues_cleanPointerStaging (h : Inspected s inventory prev) :
    (cleanPointerStaging inventory).Issues (Call.Within (.ofRoot Control)) := by
  cases prev with
  | some => exact issues_cleanPointerStaging h
  | none =>
    cases h with
    | cleanAbsent => trivial
    | discardAbsent =>
      exact (issues_issue (by exact control_name _ _)).bind fun _ => issues_issue trivial
    | @rollbackAbsent g f lone names sound =>
      have hstaging : current.start ++
          (absent.name g).drop absent.start.length =
          current.name g := congrArg _ List.drop_left
      rw [cleanPointerStaging]
      dsimp only
      rw [hstaging]
      exact (issues_issue ⟨.inl rfl, control_name _ _⟩).bind fun _ =>
        (issues_issue trivial).bind fun _ =>
          (issues_issue (by exact control_name _ _)).bind fun _ =>
            (issues_issue (by exact control_name _ _)).bind fun _ => issues_issue trivial
    | discardPristine =>
      exact (issues_issue (by exact control_name _ _)).bind fun _ =>
        (issues_issue (by exact control_name _ _)).bind fun _ => issues_issue trivial

theorem Inspected.meets_cleanPointerStaging (h : Inspected d.store inventory prev)
    (hd : d.Valid) (hfirm : d.Firm) : recorded.Meets (Cleaned prev) (fun t _ => Base prev t.1)
      (cleanPointerStaging inventory) (d, log) := by
  cases prev with
  | some => exact meets_cleanPointerStaging_pending hd hfirm h
  | none => exact meets_cleanPointerStaging_unpointed hd hfirm h

theorem Yields.stays (h : Yields d before) : Stays before candidate (d, log) := h.mono fun _ => .inl

theorem Yields.failed (h : Yields d before) (e : String) :
    Finished before candidate (.error e) (d, log) := ⟨h.stays, h⟩

theorem Base.yields_stands (h : Base prev d) (hprev : ∀ x, prev = some x → Stands s.root x) :
    Yields d (Stands s.root) := h.yields.mono hprev

/-- What publication and recovery start with: the leftovers of an earlier operation are
taken away, and then the rest runs on a store with no change under way. -/
theorem Inspected.meets_cleaning {Q : Except String α → Disk × List Call → Prop}
    {C : Disk × List Call → Call → Prop} (h : Inspected d.store inventory prev) (hd : d.Valid)
    (hfirm : d.Firm) (hstopped : ∀ t call, Yields t.1 (Stands d.store.root) → C t call)
    (hfailed : ∀ e t, Yields t.1 (Stands d.store.root) → Q (.error e) t)
    (hcleaned : ∀ d' log', Ready prev d' → (∀ c, prev = some c → Clean d'.store c) →
      SameOutside tidied d.store d'.store → recorded.Meets Q C p (d', log')) :
    recorded.Meets Q C (cleanStaging >>= fun _ => cleanPointerStaging inventory >>= fun _ => p)
      (d, log) := by
  have hcongr : ∀ {t : Disk × List Call}, t.1.Valid ∧ t.1.Firm ∧
      SameOutside (.ofTrees fun n => isStagingName n = true) d.store t.1.store →
      Yields t.1 (Stands d.store.root) := by
    rintro t ⟨hvalid, hfirm', hsame⟩
    exact (hfirm'.yields hvalid).mono fun x hx => hx.congr fun n hn => (hsame.root n id).symm
  have hprev := h.stands
  refine (meets_cleanStaging_disk hd hfirm).bind (fun t call ht => hstopped t call (hcongr ht))
    (fun e t ht => hfailed e t (hcongr ht)) ?_
  rintro - ⟨d1, log1⟩ ⟨hd1, hfirm1, hsame1⟩
  have hinspected := h.kept (hsame1.mono staging_le_aside).kept
  refine ((hinspected.meets_cleanPointerStaging hd1 hfirm1).and (meets_sameOutside
    faithful_recorded hinspected.issues_cleanPointerStaging _)).bind
    (fun t call ht => hstopped t call (ht.1.yields_stands hprev))
    (fun e t ht => hfailed e t (ht.1.1.yields_stands hprev)) ?_
  rintro _ ⟨d2, log2⟩ ⟨⟨_, hok2⟩, hsame2⟩
  obtain ⟨hready2, hclean2⟩ := hok2 rfl
  exact hcleaned d2 log2 hready2 hclean2 (sameOutside_tidied hsame1 hsame2)

theorem validateCurrentOrPristine_eq (hready : Ready prev d)
    (hclean : ∀ c, prev = some c → Clean d.store c) {hadCurrent : Bool}
    (h : d.store.validateCurrentOrPristine = .ok hadCurrent) : hadCurrent = prev.isSome := by
  cases prev with
  | some c =>
    rw [(hclean c rfl).validateCurrentOrPristine] at h
    exact (Except.ok.inj h).symm
  | none =>
    cases hresolve : d.store.resolveCurrent with
    | ok c => exact absurd hresolve (resolveCurrent_ne_ok hready.absent c)
    | error =>
      rw [Store.validateCurrentOrPristine, hresolve] at h
      dsimp only at h
      split_ifs at h
      simp only [Guard.bind_eq_ok, Guard.pure_eq_ok] at h
      obtain ⟨_, _, rfl⟩ := h
      rfl

theorem meets_publish_disk (hd : d.Valid) (hfirm : d.Firm) :
    recorded.Meets (Finished (Stands d.store.root) (publishCandidate nextId d.store))
      (fun t _ => Stays (Stands d.store.root) (publishCandidate nextId d.store) t)
      (publish capture nextId) (d, log) := by
  rw [publish, meets_view_bind]
  refine meets_lift_bind_cases (fun e _ => (hfirm.yields hd).failed e) fun inventory hinspect => ?_
  obtain ⟨prev, h⟩ := exists_inspected hinspect
  have hprev := h.stands
  refine Inspected.meets_cleaning h hd hfirm (fun _ _ ht => ht.stays) (fun e _ ht => ht.failed e)
    fun d1 log1 hready1 hclean1 hsame1 => ?_
  refine ((meets_cleanPublicationOrderStaging_disk hready1).and (meets_sameOutside
    faithful_recorded issues_cleanPublicationOrderStaging _)).bind
    (fun _ _ ht => ht.1.base.stays hprev) (fun e _ ht => ht.1.base.failed hprev e) ?_
  rintro - ⟨d2, log2⟩ ⟨hready2, hsame2⟩
  have hclean2 : ∀ c, prev = some c → Clean d2.store c := fun c hc =>
    (hclean1 c hc).kept (hsame2.mono orderStaging_le_aside).kept
  have htidied2 : SameOutside tidied d1.store d2.store := SameOutside.tidy hsame2
  rw [meets_view_bind]
  refine meets_lift_bind_cases (fun e _ => hready2.base.failed hprev e) fun b hb => ?_
  obtain rfl := validateCurrentOrPristine_eq hready2 hclean2 hb
  refine meets_lift_bind_cases (fun e _ => hready2.base.failed hprev e) fun order hload => ?_
  refine meets_lift_bind_cases (fun e _ => hready2.base.failed hprev e) fun _ _ => ?_
  refine meets_lift_bind_cases (fun e _ => hready2.base.failed hprev e) fun publication _ => ?_
  exact meets_publishAllocatedLocked_disk hready2
    (fun c hc => mem_of_sound (hclean2 c hc).sound) hprev
    fun g hg => publishCandidate_of_tidied (hsame1.trans htidied2) hload hg

theorem meets_rollback_disk {g : GenerationId} (hd : d.Valid) (hfirm : d.Firm) :
    recorded.Meets (Finished (Stands d.store.root) (some g))
      (fun t _ => Stays (Stands d.store.root) (some g) t) (rollback g) (d, log) := by
  rw [rollback, meets_view_bind]
  refine meets_lift_bind_cases (fun e _ => (hfirm.yields hd).failed e) fun inventory hinspect => ?_
  obtain ⟨prev, h⟩ := exists_inspected hinspect
  have hprev := h.stands
  refine meets_lift_bind_cases (fun e _ => (hfirm.yields hd).failed e) fun _ _ => ?_
  refine (h.meets_cleanPointerStaging hd hfirm).bind (fun _ _ ht => ht.stays hprev)
    (fun e _ ht => ht.1.failed hprev e) ?_
  rintro _ ⟨d1, log1⟩ ⟨_, hok⟩
  obtain ⟨hready, hclean⟩ := hok rfl
  rw [meets_view_bind]
  refine meets_lift_bind_cases (fun e _ => hready.base.failed hprev e) fun c hc => ?_
  cases prev with
  | none => exact absurd hc (resolveCurrent_ne_ok hready.absent c)
  | some c' =>
    obtain rfl : c' = c := Except.ok.inj ((hclean c' rfl).resolveCurrent.symm.trans hc)
    split_ifs with hcg
    · subst hcg
      have hyields : Yields d1 (· = c') :=
        hready.base.yields.mono fun x hx => (some_inj.mp hx).symm
      refine ⟨hyields.mono ?_, rfl, hyields⟩
      rintro x rfl
      exact .inl (hprev x rfl)
    · exact (meets_commitPointer_disk hready hcg).mono (fun _ _ h => h.finished hprev rfl)
        fun _ _ h => h.stays hprev rfl

theorem meets_recover_disk (hd : d.Valid) (hfirm : d.Firm) :
    recorded.Meets (fun _ t => Stays (Stands d.store.root) candidate t)
      (fun t _ => Stays (Stands d.store.root) candidate t) recover (d, log) := by
  rw [recover, meets_view_bind]
  refine meets_lift_bind_cases (fun e _ => (hfirm.yields hd).stays) fun inventory hinspect => ?_
  obtain ⟨prev, h⟩ := exists_inspected hinspect
  refine Inspected.meets_cleaning h hd hfirm (fun _ _ ht => ht.stays) (fun e _ ht => ht.stays)
    fun d1 log1 hready _ _ => ?_
  rw [meets_view_bind]
  exact hready.base.stays h.stands

theorem meets_ensureCurrent_disk (hd : d.Valid) (hfirm : d.Firm)
    (hcandidate : candidate = (Operation.ensureCurrent capture nextId).candidate d.store) :
    recorded.Meets (fun _ t => Stays (Stands d.store.root) candidate t)
      (fun t _ => Stays (Stands d.store.root) candidate t) (ensureCurrent capture nextId)
      (d, log) := by
  have hstays : Stays (Stands d.store.root) candidate (d, log) := (hfirm.yields hd).stays
  rw [ensureCurrent, meets_view_bind]
  refine meets_lift_bind_cases (fun e _ => hstays) fun inventory hinspect => ?_
  rcases inventory_of_inspect hinspect with ⟨c, h⟩ | h
  · cases h with
    | clean | committed => exact meets_lift_bind_cases (fun _ _ => hstays) fun _ _ => hstays
    | discard | rollback => exact hstays
  · cases h with
    | cleanAbsent quiet absent =>
      have hready : Ready none d := hfirm.ready_none hd absent
      refine meets_lift_bind_cases (fun _ _ => hstays) fun _ _ => ?_
      refine meets_lift_bind_cases (fun _ _ => hstays) fun order hload => ?_
      refine meets_lift_bind_cases (fun _ _ => hstays) fun publication _ => ?_
      refine (meets_publishAllocatedLocked_disk hready (by simp) (by simp) fun g hg => ?_).mono
        (fun _ _ h => h.1) fun _ _ h => h
      rw [hcandidate, ← publishCandidate_eq hload hg, Operation.candidate]
      rw [show d.store.root.lookup currentName = none from absent]
      rfl
    | discardAbsent | rollbackAbsent | discardPristine => exact hstays

/-- Wherever publication, rollback or recovery stops and whichever calls fail, every lease
stays as it was. -/
theorem Operation.keeps_leases (op : Operation) (d : Disk) :
    diskMachine.Meets (fun _ d' => ∀ n, d'.store.leases.lookup n = d.store.leases.lookup n)
      (fun d' _ => ∀ n, d'.store.leases.lookup n = d.store.leases.lookup n) op.program d :=
  (meets_sameOutside faithful_diskMachine op.begins_program.issues d).mono
    (fun _ _ h n => h.leases n id) fun _ _ h n => h.1.leases n id

end Operations

end Realm.Theme

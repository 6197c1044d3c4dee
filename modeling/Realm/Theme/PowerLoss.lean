import Realm.Theme.Durability

/-!
# Operations on a disk that can lose power

The entries that may survive at each point of a pointer change, and with them what every
later recovery or selection can return.
-/

namespace Realm.Theme

open Text Prog Machine JournalKind List Disk

variable {g : GenerationId} {prev : Option GenerationId} {d : Disk}

/-! ## Where a pointer change stands -/

/-- The call that puts the pointer to the generation in place has been issued. -/
def PointerSwitched (g : GenerationId) (log : List Call) : Prop :=
  Call.exchange .root (current.name g) currentName ∈ log ∨
    Call.rename .root (current.name g) currentName ∈ log

theorem PointerSwitched.append {log : List Call} (h : PointerSwitched g log) (calls : List Call) :
    PointerSwitched g (log ++ calls) :=
  h.imp (mem_append_left calls) (mem_append_left calls)

namespace Disk

def All (d : Disk) (P : Map Bytes ℕ → Prop) : Prop := ∀ L, d.Survives L → P L

variable {d : Disk} {P R : Map Bytes ℕ → Prop} {s : Store} {u : Relink}

theorem All.mono (h : d.All P) (hP : ∀ L, P L → R L) : d.All R := fun L hL => hP L (h L hL)

theorem All.entries (h : d.All P) : P d.entries := h _ Writeback.survives_current

theorem All.relink (h : d.All P) (hu : ∀ L, P L → R (u.act L)) :
    All { d with store := s, links := d.links.push u } fun L => P L ∨ R L := by
  intro L hL
  rcases Writeback.survives_push.mp hL with hL | ⟨L', hL', rfl⟩
  · exact .inl (h L hL)
  · exact .inr (hu L' (h L' hL'))

theorem entries_relink :
    ({ d with store := s, links := d.links.push u } : Disk).entries = u.act d.entries :=
  Writeback.current_push

end Disk

/-- Every power loss leaves what the store stood for before. -/
structure Base (prev : Option GenerationId) (d : Disk) : Prop where
  valid : d.Valid
  rests : d.All (d.Rests · prev)

/-- The same, with no change under way. -/
structure Ready (prev : Option GenerationId) (d : Disk) : Prop where
  valid : d.Valid
  settled : d.All (d.Settled · prev)

theorem Ready.base (h : Ready prev d) : Base prev d :=
  ⟨h.valid, h.settled.mono fun _ => Settled.rests⟩

/-- Every power loss leaves what the store stood for before or, once the pointer has been
switched, the new generation. -/
structure Midway (prev : Option GenerationId) (g : GenerationId) (t : Disk × List Call) : Prop where
  valid : t.1.Valid
  rests : t.1.All fun L =>
    t.1.Rests L prev ∨ PointerSwitched g t.2 ∧ t.1.Rests L (some g)

theorem Base.midway (h : Base prev d) (g : GenerationId) (log : List Call) :
    Midway prev g (d, log) :=
  ⟨h.valid, h.rests.mono fun _ => .inl⟩

/-- What the outcome of a pointer change says about every later power loss. -/
def Concluded (prev : Option GenerationId) (g : GenerationId) :
    Except String GenerationPublicationOutcome → Disk × List Call → Prop
  | .ok (.committed g'), t =>
    g' = g ∧ PointerSwitched g t.2 ∧ Base (some g) t.1
  | .ok (.committedWithCleanupPending g' _), t =>
    g' = g ∧ PointerSwitched g t.2 ∧ Base (some g) t.1
  | .ok (.outcomeAmbiguous _ _), t => Midway prev g t
  | .error _, t => Base prev t.1

/-! ## Calls on the root -/

section Calls

variable {d : Disk} {log : List Call} {P R : Map Bytes ℕ → Prop} {call : Call}
  {Q : Except String Unit → Disk × List Call → Prop} {I : Disk × List Call → Call → Prop}

/-- A call was carried out: the entries that may survive now, with the pointers in the files
as before. -/
structure Advanced (P : Map Bytes ℕ → Prop) (d d' : Disk) : Prop where
  valid : d'.Valid
  all : d'.All P
  points : ∀ {i g}, d.Points i g → d'.Points i g

/-- The rule for a call that changes the entries of the root. -/
theorem meets_relink {u : Relink}
    (hperform : ∀ s, d.perform call s = { d with store := s, links := d.links.push u })
    (hd : d.Valid) (hall : d.All P) (hu : ∀ L, P L → R (u.act L)) (hI : I (d, log) call)
    (herror : ∀ e, Q (.error e) (d, log ++ [call]))
    (hok : ∀ d', Store.exec call d.store = .ok d'.store →
      Advanced (fun L => P L ∨ R L) d d' → d'.entries = u.act d.entries → R d'.entries →
      Q (.ok ()) (d', log ++ [call])) : recorded.Meets Q I (issue call) (d, log) := by
  refine meets_recorded hI (fun s hexec => ?_) herror
  have hd' := hd.perform hexec
  rw [hperform] at hd' ⊢
  refine hok _ hexec ⟨hd', hall.relink hu, fun h => ⟨h.old, h.synced, h.points⟩⟩
    entries_relink ?_
  rw [entries_relink]
  exact hu _ hall.entries

/-- The rule for a call that brings the entries of the root to the disk. -/
theorem meets_sync (hd : d.Valid) (hentries : P d.entries) (hI : I (d, log) (.sync .root))
    (herror : ∀ e, Q (.error e) (d, log ++ [.sync .root]))
    (hok : ∀ d', d'.store = d.store → Advanced P d d' → Q (.ok ()) (d', log ++ [.sync .root])) :
    recorded.Meets Q I (issue (.sync .root)) (d, log) := by
  refine meets_recorded hI (fun s hexec => ?_) herror
  refine hok _ (Except.ok.inj hexec).symm ⟨hd.perform hexec, fun L hL => ?_,
    fun h => ⟨h.old, h.synced, h.points⟩⟩
  rw [Writeback.survives_flush.mp hL]
  exact hentries

end Calls

/-! ## The change -/

section Change

variable {d : Disk} {log : List Call} {c g : GenerationId} {i k : ℕ}
  {prev : Option GenerationId} {L : Map Bytes ℕ} {hadCurrent : Bool} {j : Bytes}
  {P : Map Bytes ℕ → Prop}

theorem Base.switched (h : Base (some g) d) (hlog : PointerSwitched g log) :
    Midway prev g (d, log) :=
  ⟨h.valid, h.rests.mono fun _ h => .inr ⟨hlog, h⟩⟩

/-- The pointer is in place, and its mark of success at most is still there. -/
def MarkedAt (g : GenerationId) (k : ℕ) (L : Map Bytes ℕ) : Prop :=
  L.lookup currentName = some k ∧ L.lookup (current.name g) = none

theorem MarkedAt.rests (h : MarkedAt g k L) (hk : d.Points k g) :
    d.Rests L (some g) := .inl ⟨k, h.1, hk, h.2⟩

theorem meets_clearCommitted_disk (hd : d.Valid) (hall : d.All (MarkedAt g k))
    (hk : d.Points k g) (hlog : PointerSwitched g log) :
    recorded.Meets (fun _ t => PointerSwitched g t.2 ∧ Base (some g) t.1)
      (fun t _ => Midway prev g t) (clearCommitted g) (d, log) := by
  have hbase {d : Disk} (hd : d.Valid) (hall : d.All (MarkedAt g k)) (hk : d.Points k g) :
      Base (some g) d := ⟨hd, hall.mono fun _ h => h.rests hk⟩
  rw [clearCommitted, meets_bind]
  refine meets_relink (R := MarkedAt g k) (fun _ => rfl) hd hall (fun L hL => ?_)
    ((hbase hd hall hk).switched hlog) (fun e => ⟨hlog.append _, hbase hd hall hk⟩)
    fun d' _ h' _ hentries => ?_
  · simpa [MarkedAt, lookup_drop] using hL
  have hbase' := hbase h'.valid (h'.all.mono fun L => (or_self_iff).mp) (h'.points hk)
  rw [then_ok]
  refine meets_sync h'.valid hentries (hbase'.switched (hlog.append _))
    (fun e => ⟨(hlog.append _).append _, hbase'⟩) fun d'' _ h'' => ?_
  exact ⟨(hlog.append _).append _, hbase h''.valid h''.all (h''.points (h'.points hk))⟩

theorem meets_markCommitted_disk
    (hj : (if hadCurrent then current.name g else absent.name g) = j) (hd : d.Valid)
    (hall : d.All P) (hrests : ∀ (L : Map Bytes ℕ) (d' : Disk),
      (∀ i g, d.Points i g → d'.Points i g) → P L → d'.Rests L prev)
    (hmark : ∀ L, P L → MarkedAt g k (Relink.act (.move j (committed.name g) (d.inode j)) L))
    (hk : d.Points k g) (hlog : PointerSwitched g log) :
    recorded.Meets (fun r t => Midway prev g t ∧ PointerSwitched g t.2 ∧
        (r = .ok () → t.1.All (MarkedAt g k) ∧ t.1.Points k g))
      (fun t _ => Midway prev g t) (markCommitted g hadCurrent) (d, log) := by
  have hbase : Base prev d := ⟨hd, hall.mono fun L => hrests L d fun _ _ => id⟩
  rw [markCommitted, hj, meets_bind]
  refine meets_relink (fun _ => rfl) hd hall hmark (hbase.midway g log)
    (fun e => ⟨hbase.midway g _, hlog.append _, by simp⟩) fun d' _ h' _ hentries => ?_
  have hk' := h'.points hk
  have hmidway : ∀ log', PointerSwitched g log' → Midway prev g (d', log') :=
    fun log' hlog' => ⟨h'.valid, h'.all.mono fun L h => h.imp
      (hrests L d' fun _ _ => h'.points) fun h => ⟨hlog', h.rests hk'⟩⟩
  rw [then_ok]
  refine meets_sync h'.valid hentries (hmidway _ (hlog.append _))
    (fun e => ⟨hmidway _ ((hlog.append _).append _), (hlog.append _).append _, by simp⟩)
    fun d'' _ h'' => ?_
  have hbase'' : Base (some g) d'' := ⟨h''.valid, h''.all.mono fun _ h => h.rests (h''.points hk')⟩
  exact ⟨hbase''.switched ((hlog.append _).append _), (hlog.append _).append _,
    fun _ => ⟨h''.all, h''.points hk'⟩⟩

/-- Undoing the switch restores what the store stood for, or leaves the change midway. -/
def Restored (prev : Option GenerationId) (g : GenerationId) :
    Except String Unit → Disk × List Call → Prop
  | .ok _, t => Base prev t.1
  | .error _, t => Midway prev g t

theorem meets_concludeSwitch_disk
    (hj : (if hadCurrent then current.name g else absent.name g) = j) (hbase : Base prev d)
    (hentries : P d.entries) (hrests : ∀ (L : Map Bytes ℕ) (d' : Disk),
      (∀ i g, d.Points i g → d'.Points i g) → P L → d'.Rests L prev)
    (hmark : ∀ L i, P L → MarkedAt g k (Relink.act (.move j (committed.name g) i) L))
    (hk : d.Points k g) (hlog : PointerSwitched g log)
    (hback : recorded.Meets (Restored prev g) (fun t _ => Midway prev g t)
      (switchBack g hadCurrent) (d, log ++ [.sync .root])) :
    recorded.Meets (Concluded prev g) (fun t _ => Midway prev g t)
      (concludeSwitch g hadCurrent) (d, log) := by
  rw [concludeSwitch, meets_bind, meets_attempt]
  refine meets_sync hbase.valid hentries (hbase.midway g log) (fun e => ?_) fun d₁ _ h₁ => ?_
  · rw [then_ok]
    dsimp only
    rw [meets_bind, meets_attempt]
    refine hback.post ?_
    rintro r ⟨d', log'⟩ hr
    rw [then_ok]
    cases r with
    | error | ok => exact hr
  · rw [then_ok, meets_bind, meets_attempt]
    refine (meets_markCommitted_disk hj h₁.valid h₁.all
      (fun L d' hpoints => hrests L d' fun i g hi => hpoints i g (h₁.points hi))
      (fun L => hmark L _) (h₁.points hk) (hlog.append _)).post ?_
    rintro r ⟨d', log'⟩ ⟨hmidway, hlog', hok⟩
    rw [then_ok]
    cases r with
    | error => exact hmidway
    | ok =>
      obtain ⟨hall', hk'⟩ := hok rfl
      dsimp only
      rw [meets_bind, meets_attempt]
      refine (meets_clearCommitted_disk hmidway.valid hall' hk' hlog').post ?_
      rintro r ⟨d'', log''⟩ ⟨hlog'', hbase''⟩
      rw [then_ok]
      cases r with
      | error | ok => exact ⟨rfl, hlog'', hbase''⟩

/-! ### Replacing a pointer -/

/-- The new pointer is staged beside the one in place. -/
def StagedAt (c g : GenerationId) (i k : ℕ) (L : Map Bytes ℕ) : Prop :=
  L.lookup currentName = some i ∧ L.lookup (current.name c) = none ∧
    L.lookup (current.name g) = some k

/-- The two pointers have changed places. -/
def ExchangedAt (c g : GenerationId) (i k : ℕ) (L : Map Bytes ℕ) : Prop :=
  L.lookup currentName = some k ∧ L.lookup (current.name c) = none ∧
    L.lookup (current.name g) = some i

theorem ExchangedAt.rests (h : ExchangedAt c g i k L) (hi : d.Points i c)
    (hk : d.Points k g) (hne : c ≠ g) : d.Rests L (some c) :=
  .inr ⟨g, k, i, hne.symm, h.1, hk, h.2.2, hi⟩

/-- Before the switch and after it the store stands for the pointer that was there. -/
theorem rests_of_staged (h : StagedAt c g i k L ∨ ExchangedAt c g i k L) (hi : d.Points i c)
    (hk : d.Points k g) (hne : c ≠ g) : d.Rests L (some c) :=
  h.elim (fun h => .inl ⟨i, h.1, hi, h.2.1⟩) fun h => h.rests hi hk hne

theorem exchangedAt_swap (h : L.lookup (current.name c) = none) (hne : c ≠ g) (i k : ℕ) :
    ExchangedAt c g i k (Relink.act (.swap (current.name g) currentName k i) L) := by
  simp [ExchangedAt, lookup_swap, hne, h]

theorem inode_eq {n : Bytes} (h : d.entries.lookup n = some i) : d.inode n = i := by
  rw [inode, h, Option.getD_some]

theorem meets_switchBack_exchange (hd : d.Valid) (hne : c ≠ g)
    (hall : d.All fun L => StagedAt c g i k L ∨ ExchangedAt c g i k L)
    (hentries : ExchangedAt c g i k d.entries) (hi : d.Points i c) (hk : d.Points k g) :
    recorded.Meets (Restored (some c) g) (fun t _ => Midway (some c) g t) (switchBack g true)
      (d, log) := by
  have hbase : Base (some c) d := ⟨hd, hall.mono fun L h => rests_of_staged h hi hk hne⟩
  rw [switchBack, if_pos rfl, meets_bind]
  refine meets_relink (R := StagedAt c g i k) (fun _ => rfl) hd hall (fun L h => ?_)
    (hbase.midway g log) (fun e => hbase.midway g _) fun d' _ h' _ hentries' => ?_
  · rw [inode_eq hentries.2.2, inode_eq hentries.1]
    exact exchangedAt_swap (h.elim (fun h => h.2.1) fun h => h.2.1) hne k i
  have hi' := h'.points hi
  have hbase' : Base (some c) d' :=
    ⟨h'.valid, h'.all.mono fun L h => rests_of_staged (h.elim id .inl) hi' (h'.points hk) hne⟩
  rw [then_ok]
  refine meets_sync h'.valid hentries' (hbase'.midway g _) (fun e => hbase'.midway g _)
    fun d'' _ h'' => ?_
  exact ⟨h''.valid, h''.all.mono fun L h =>
    rests_of_staged (.inl h) (h''.points hi') (h''.points (h'.points hk)) hne⟩

theorem meets_commitPointer_disk (h : Ready (some c) d) (hne : c ≠ g) :
    recorded.Meets (Concluded (some c) g) (fun t _ => Midway (some c) g t) (commitPointer g true)
      (d, log) := by
  have hready : ∀ {d'}, Keeps (· = current.name g) d d' → Ready (some c) d' := by
    intro d' hkeeps
    refine ⟨hkeeps.valid, hkeeps.harmless.settled (currentName_ne_name _ g) ?_ h.settled⟩
    rintro c' hc'
    cases hc'
    simpa using hne
  rw [commitPointer, meets_bind, stagePointer, meets_bind]
  refine (meets_writeSyncedFile_root h.valid).mono ?_ fun t _ hkeeps =>
    (hready hkeeps).base.midway g t.2
  rintro r ⟨d1, log1⟩ ⟨hkeeps, hwritten⟩
  have hready1 := hready hkeeps
  cases r with
  | error => exact hready1.base
  | ok =>
    obtain ⟨k, hentry, hk⟩ := (hwritten rfl).points
    obtain ⟨i, hcurrent, hi, hfree⟩ := hready1.settled.entries
    rw [then_ok, if_pos rfl]
    refine meets_sync (P := StagedAt c g i k) hready1.valid ⟨hcurrent, hfree, hentry⟩
      (hready1.base.midway g _) (fun e => hready1.base) fun d2 _ h2 => ?_
    have hbase2 : Base (some c) d2 := ⟨h2.valid, h2.all.mono fun L h =>
      rests_of_staged (.inl h) (h2.points hi) (h2.points hk) hne⟩
    rw [then_ok, switchPointer, if_pos rfl, meets_bind]
    refine meets_relink (R := ExchangedAt c g i k) (fun _ => rfl) h2.valid h2.all (fun L hL => ?_)
      (hbase2.midway g _) (fun e => hbase2) fun d3 _ h3 _ hentries => ?_
    · rw [inode_eq h2.all.entries.2.2, inode_eq h2.all.entries.1]
      exact exchangedAt_swap hL.2.1 hne i k
    have hi3 := h3.points (h2.points hi)
    have hk3 := h3.points (h2.points hk)
    have hlog3 : PointerSwitched g (log1 ++ [.sync .root] ++
        [.exchange .root (current.name g) currentName]) :=
      .inl (mem_append_right _ (mem_singleton_self _))
    rw [then_ok]
    refine meets_concludeSwitch_disk (P := ExchangedAt c g i k) (if_pos rfl)
      ⟨h3.valid, h3.all.mono fun L h => rests_of_staged h hi3 hk3 hne⟩ hentries
      (fun L d' hpoints hL => hL.rests (hpoints i c hi3) (hpoints k g hk3) hne) ?_ hk3
      hlog3 (meets_switchBack_exchange h3.valid hne h3.all hentries hi3 hk3)
    exact fun L _ hL => by simp [MarkedAt, lookup_move, hL.1]

/-! ### The first pointer -/

/-- The first pointer is staged, with the marker of the absent one. -/
def FirstStagedAt (g : GenerationId) (L : Map Bytes ℕ) : Prop :=
  L.lookup currentName = none ∧ ∃ m, L.lookup (absent.name g) = some m

/-- The first pointer is in place beside the marker. -/
def FirstPlacedAt (g : GenerationId) (k : ℕ) (L : Map Bytes ℕ) : Prop :=
  L.lookup currentName = some k ∧ L.lookup (current.name g) = none ∧
    ∃ m, L.lookup (absent.name g) = some m

theorem rests_of_first (h : FirstStagedAt g L ∨ FirstPlacedAt g k L) : d.Rests L none :=
  h.elim (fun h => .inl h.1) fun h => .inr ⟨g, h.2.2⟩

/-- Taking the first pointer back and then its marker: should the first of the two be lost
and the second kept, the new generation stays in place. -/
theorem meets_switchBack_rename (hd : d.Valid)
    (hall : d.All fun L => FirstStagedAt g L ∨ FirstPlacedAt g k L)
    (hk : d.Points k g) (hlog : PointerSwitched g log) :
    recorded.Meets (Restored none g) (fun t _ => Midway none g t) (switchBack g false)
      (d, log) := by
  have hbase : Base none d := ⟨hd, hall.mono fun L => rests_of_first⟩
  rw [switchBack, if_neg Bool.false_ne_true, meets_bind]
  refine meets_relink (R := FirstStagedAt g) (fun _ => rfl) hd hall (fun L h => ?_)
    (hbase.midway g log) (fun e => hbase.midway g _) fun d1 _ h1 _ hentries1 => ?_
  · simpa [FirstStagedAt, lookup_move] using h.elim (fun h => h.2) fun h => h.2.2
  have hall1 := h1.all.mono fun L h => h.elim id .inl
  have hbase1 : Base none d1 := ⟨h1.valid, hall1.mono fun L => rests_of_first⟩
  rw [then_ok, meets_bind]
  refine meets_relink (fun _ => rfl)
    (P := fun L => FirstStagedAt g L ∨ FirstPlacedAt g k L)
    (R := fun L => L.lookup currentName = none ∨ MarkedAt g k L) h1.valid hall1 (fun L h => ?_)
    (hbase1.midway g _) (fun e => hbase1.midway g _) fun d2 _ h2 hentries2 _ => ?_
  · simpa [MarkedAt, lookup_drop] using h.imp (fun h => h.1) fun h => ⟨h.1, h.2.1⟩
  have hmidway2 : ∀ log', PointerSwitched g log' → Midway none g (d2, log') := by
    refine fun log' hlog' => ⟨h2.valid, h2.all.mono fun L h => ?_⟩
    rcases h with h | h | h
    · exact .inl (rests_of_first h)
    · exact .inl (.inl h)
    · exact .inr ⟨hlog', h.rests (h2.points (h1.points hk))⟩
  have hlog2 := (hlog.append [.rename .root currentName (current.name g)]).append
    [.unlink (.root (absent.name g))]
  rw [then_ok]
  refine meets_sync (P := fun L => L.lookup currentName = none) h2.valid ?_ (hmidway2 _ hlog2)
    (fun e => hmidway2 _ (hlog2.append _)) fun d3 _ h3 => ⟨h3.valid, h3.all.mono fun _ h => .inl h⟩
  rw [hentries2]
  simpa [lookup_drop] using hentries1.1

theorem meets_commitPointer_first (h : Ready none d) :
    recorded.Meets (Concluded none g) (fun t _ => Midway none g t) (commitPointer g false)
      (d, log) := by
  have hready : ∀ {d d' : Disk} {kind : JournalKind}, Ready none d →
      Keeps (· = kind.name g) d d' → Ready none d' := fun h hkeeps =>
    ⟨hkeeps.valid, hkeeps.harmless.settled (currentName_ne_name _ g) nofun h.settled⟩
  rw [commitPointer, meets_bind, stagePointer, meets_bind]
  refine (meets_writeSyncedFile_root h.valid).mono ?_ fun t _ hkeeps =>
    (hready h hkeeps).base.midway g t.2
  rintro r ⟨d1, log1⟩ ⟨hkeeps1, hwritten⟩
  have hready1 := hready h hkeeps1
  cases r with
  | error => exact hready1.base
  | ok =>
    obtain ⟨k, hentry, hk⟩ := (hwritten rfl).points
    rw [then_ok, if_neg Bool.false_ne_true, meets_bind]
    refine (meets_writeSyncedFile_root hready1.valid).mono ?_ fun t _ hkeeps =>
      (hready hready1 hkeeps).base.midway g t.2
    rintro r ⟨d2, log2⟩ ⟨hkeeps2, hwritten2⟩
    have hready2 := hready hready1 hkeeps2
    cases r with
    | error => exact hready2.base
    | ok =>
      obtain ⟨m, hmarker, _, _⟩ := hwritten2 rfl
      have hentry2 : d2.entries.lookup (current.name g) = some k :=
        (hkeeps2.harmless.entries _ (by simp)).trans hentry
      have hk2 := hkeeps2.harmless.points k g hk
      rw [then_ok]
      refine meets_sync (P := fun L => FirstStagedAt g L ∧ L.lookup (current.name g) = some k)
        hready2.valid ⟨⟨hready2.settled.entries, m, hmarker⟩, hentry2⟩ (hready2.base.midway g _)
        (fun e => hready2.base) fun d3 _ h3 => ?_
      have hbase3 : Base none d3 := ⟨h3.valid, h3.all.mono fun L h => .inl h.1.1⟩
      rw [then_ok, switchPointer, if_neg Bool.false_ne_true, meets_bind]
      refine meets_relink (R := FirstPlacedAt g k) (fun _ => rfl) h3.valid h3.all (fun L hL => ?_)
        (hbase3.midway g _) (fun e => hbase3) fun d4 _ h4 _ hentries4 => ?_
      · rw [inode_eq h3.all.entries.2]
        simpa [FirstPlacedAt, lookup_move] using hL.1.2
      have hall4 := h4.all.mono fun L h => h.imp_left And.left
      have hk4 := h4.points (h3.points hk2)
      have hlog4 : PointerSwitched g (log2 ++ [.sync .root] ++
          [.rename .root (current.name g) currentName]) :=
        .inr (mem_append_right _ (mem_singleton_self _))
      rw [then_ok]
      refine meets_concludeSwitch_disk (P := FirstPlacedAt g k)
        (if_neg Bool.false_ne_true) ⟨h4.valid, hall4.mono fun L => rests_of_first⟩ hentries4
        (fun L d' _ hL => rests_of_first (.inr hL)) ?_ hk4 hlog4
        (meets_switchBack_rename h4.valid hall4 hk4 (hlog4.append _))
      exact fun L _ hL => by simp [MarkedAt, lookup_move, hL.1, hL.2.1]

end Change

end Realm.Theme

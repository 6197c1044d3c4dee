import Realm.Theme.Disk
import Realm.Theme.Interruption
import Realm.Theme.Collection

/-!
# What the pointer stands for after a power loss

The generation a store stands for is read off the pointer and its journals alone: the
one `current` names or, while a change is not committed, the one it replaced.  Whenever
recovery or selection succeeds it returns that generation.  This module follows the
pointer through every operation on a disk that can lose power and whose calls can fail.
-/

namespace Realm.Theme

open Text Prog Machine JournalKind Writeback Disk

variable {names : Bytes → Prop} {d : Disk} {log : List Call} {n : Bytes}

/-! ## What a store stands for -/

/-- The root stands for the generation: the pointer names it and no change to it is under
way, or the pointer replaced it and the change is not committed. -/
def Stands (root : Map Bytes File) (c : GenerationId) : Prop :=
  (∀ h, root.lookup (absent.name h) = none) ∧
    (Names root c ∧ root.lookup (current.name c) = none ∨
      ∃ g f, g ≠ c ∧ Names root g ∧ root.lookup (current.name g) = some f ∧
        f.PointsTo c)

section Standing

variable {root root' : Map Bytes File} {s : Store} {c c' : GenerationId}

theorem File.PointsTo.unique {f : File} (h : f.PointsTo c) (h' : f.PointsTo c') : c = c' :=
  pointerRecord_injective (h.bytes.symm.trans h'.bytes)

theorem Stands.unique (h : Stands root c) (h' : Stands root c') : c = c' := by
  rcases h.2 with ⟨hnames, hfree⟩ | ⟨g, f, _, hnames, hlookup, hf⟩ <;>
    rcases h'.2 with ⟨hnames', hfree'⟩ | ⟨g', f', _, hnames', hlookup', hf'⟩
  · exact hnames.unique hnames'
  · rw [hnames.unique hnames', hlookup'] at hfree
    cases hfree
  · rw [hnames'.unique hnames, hlookup] at hfree'
    cases hfree'
  · rw [hnames.unique hnames', hlookup', Option.some_inj] at hlookup
    subst hlookup
    exact hf.unique hf'

/-- The entries of a root that say what it stands for: the pointer, the journal of the
generation it names or the root stands for, and the markers of an absent pointer. -/
inductive Pivotal (root : Map Bytes File) : Bytes → Prop
  | pointer : Pivotal root currentName
  | journal {x : GenerationId} (standing : Names root x ∨ Stands root x) :
      Pivotal root (current.name x)
  | marker (x : GenerationId) : Pivotal root (absent.name x)

theorem Stands.congr (h : Stands root c)
    (hroot : ∀ n, Pivotal root' n → root'.lookup n = root.lookup n) : Stands root' c := by
  have hjournal : ∀ {x}, Names root x → Names root' x ∧
      root'.lookup (current.name x) = root.lookup (current.name x) := fun hx =>
    have hx' := hx.congr (hroot _ .pointer)
    ⟨hx', hroot _ (.journal (.inl hx'))⟩
  refine ⟨fun g => (hroot _ (.marker g)).trans (h.1 g), ?_⟩
  rcases h.2 with ⟨hnames, hfree⟩ | ⟨g, f, hne, hnames, hlookup, hf⟩
  · exact .inl ⟨(hjournal hnames).1, (hjournal hnames).2.trans hfree⟩
  · exact .inr ⟨g, f, hne, (hjournal hnames).1, (hjournal hnames).2.trans hlookup, hf⟩

variable [Sha256]

theorem Settles.stands (h : Settles s c) : Stands s.root c := by
  obtain ⟨inventory, h⟩ := h
  cases h with
  | clean quiet names =>
    exact ⟨quiet.lookup_name .absent, .inl ⟨names, quiet.lookup_name .current c⟩⟩
  | discard lone points names ne =>
    refine ⟨fun h => lone.lookup_name (by simp), .inl ⟨names, lone.lookup_name fun heq => ?_⟩⟩
    exact ne (name_inj.mp heq).2
  | @rollback _ g f lone points names ne sound sound' =>
    exact ⟨fun h => lone.lookup_name (by simp), .inr ⟨g, f, ne.symm, names, lone.here, points⟩⟩
  | committed lone regular content ne sound' names =>
    exact ⟨fun h => lone.lookup_name (by simp), .inl ⟨names, lone.lookup_name (by simp)⟩⟩

theorem settles_of_selectCurrent (h : s.selectCurrent = .ok c) : Settles s c := by
  simp only [Store.selectCurrent, Guard.bind_eq_ok] at h
  obtain ⟨inventory, hinspect, generation, hgeneration, _, hvalid, hc⟩ := h
  cases hc
  rcases inventory_of_inspect hinspect with ⟨c', hpending⟩ | hunpointed
  · refine ⟨inventory, ?_⟩
    cases hpending with
    | clean quiet names sound =>
      cases hgeneration
      exact .clean quiet names sound
    | discard | rollback => cases hgeneration
    | committed lone regular content ne sound' names sound =>
      cases hgeneration
      exact .committed lone regular content ne sound' names sound
  · cases hunpointed with
    | cleanAbsent | discardAbsent | rollbackAbsent | discardPristine => cases hgeneration

end Standing

/-! ## Entries that may survive -/

namespace Disk

variable {d d' d'' : Disk} {L : Map Bytes ℕ} {c g : GenerationId} {i : ℕ}
  {prev : Option GenerationId}

/-- The file points at the generation and its content is on disk. -/
structure Points (d : Disk) (i : ℕ) (g : GenerationId) : Prop where
  old : i < d.next
  synced : (d.inodes i).synced = true
  points : (d.inodes i).file.PointsTo g

/-- Entries whose pointer names the generation, with no change to it under way. -/
def Pins (d : Disk) (L : Map Bytes ℕ) (c : GenerationId) : Prop :=
  ∃ i, L.lookup currentName = some i ∧ d.Points i c ∧
    L.lookup (current.name c) = none

/-- Entries that stand for the generation, or for none. -/
def Rests (d : Disk) (L : Map Bytes ℕ) : Option GenerationId → Prop
  | some c => d.Pins L c ∨ ∃ g i j, g ≠ c ∧ L.lookup currentName = some i ∧ d.Points i g ∧
      L.lookup (current.name g) = some j ∧ d.Points j c
  | none => L.lookup currentName = none ∨ ∃ h i, L.lookup (absent.name h) = some i

/-- Entries from which a pointer change can start. -/
def Settled (d : Disk) (L : Map Bytes ℕ) : Option GenerationId → Prop
  | some c => d.Pins L c
  | none => L.lookup currentName = none

theorem Settled.rests (h : d.Settled L prev) : d.Rests L prev := by
  cases prev with
  | some | none => exact .inl h

section Shown

variable {root : Map Bytes File} {n : Bytes}

theorem Shown.lookup_none (h : d.Shown L root) (hn : L.lookup n = none) : root.lookup n = none := by
  have hshown := h n
  rw [hn] at hshown
  exact hshown

theorem Shown.lookup_some (h : d.Shown L root) (hn : L.lookup n = some i) :
    ∃ f, root.lookup n = some f ∧ ((d.inodes i).synced = true → f = (d.inodes i).file) := by
  have hshown := h n
  rw [hn] at hshown
  exact hshown

theorem Shown.pointsTo (h : d.Shown L root) (hn : L.lookup n = some i) (hi : d.Points i g) :
    ∃ f, root.lookup n = some f ∧ f.PointsTo g := by
  obtain ⟨f, hf, hsynced⟩ := h.lookup_some hn
  rw [hsynced hi.synced] at hf
  exact ⟨_, hf, hi.points⟩

theorem Rests.eq_some {x : GenerationId} (h : d.Rests L prev) (hshown : d.Shown L root)
    (hx : Stands root x) : prev = some x := by
  cases prev with
  | some c =>
    suffices hstands : Stands root c from congrArg some (hstands.unique hx)
    refine ⟨hx.1, ?_⟩
    rcases h with ⟨i, hcurrent, hi, hfree⟩ | ⟨g, i, j, hne, hcurrent, hi, hjournal, hj⟩
    · obtain ⟨f, hf, hpoints⟩ := hshown.pointsTo hcurrent hi
      exact .inl ⟨⟨f, hf, hpoints⟩, hshown.lookup_none hfree⟩
    · obtain ⟨f, hf, hpoints⟩ := hshown.pointsTo hcurrent hi
      obtain ⟨f', hf', hpoints'⟩ := hshown.pointsTo hjournal hj
      exact .inr ⟨g, f', hne, ⟨f, hf, hpoints⟩, hf', hpoints'⟩
  | none =>
    rcases h with hcurrent | ⟨g, i, hmarker⟩
    · have hnone := hshown.lookup_none hcurrent
      rcases hx.2 with ⟨⟨f, hf, _⟩, _⟩ | ⟨_, _, _, ⟨f, hf, _⟩, _⟩
      · rw [hnone] at hf
        cases hf
      · rw [hnone] at hf
        cases hf
    · obtain ⟨f, hf, _⟩ := hshown.lookup_some hmarker
      rw [hx.1 g] at hf
      cases hf

end Shown

/-! ## Steps that keep to some names -/

/-- The step changes the entries that may survive under these names only, and no file
whose content is on disk. -/
structure Harmless (names : Bytes → Prop) (d d' : Disk) : Prop where
  next : d.next ≤ d'.next
  saved : ∀ i, i < d.next → (d.inodes i).synced = true → d'.inodes i = d.inodes i
  survives : ∀ L', d'.Survives L' → ∃ L, d.Survives L ∧ ∀ n, ¬ names n → L'.lookup n = L.lookup n
  entries : ∀ n, ¬ names n → d'.entries.lookup n = d.entries.lookup n

namespace Harmless

variable {names names' : Bytes → Prop}

theorem points (h : Harmless names d d') (i : ℕ) (g : GenerationId) (hi : d.Points i g) :
    d'.Points i g := by
  have hinode := h.saved i hi.old hi.synced
  exact ⟨hi.old.trans_le h.next, hinode ▸ hi.synced, hinode ▸ hi.points⟩

theorem refl (names : Bytes → Prop) (d : Disk) : Harmless names d d :=
  ⟨le_rfl, fun _ _ _ => rfl, fun L hL => ⟨L, hL, fun _ _ => rfl⟩, fun _ _ => rfl⟩

theorem trans (h : Harmless names d d') (h' : Harmless names d' d'') : Harmless names d d'' := by
  refine ⟨h.next.trans h'.next, fun i hi hsynced => ?_, fun L'' hL'' => ?_,
    fun n hn => (h'.entries n hn).trans (h.entries n hn)⟩
  · have hinode := h.saved i hi hsynced
    exact (h'.saved i (hi.trans_le h.next) (hinode ▸ hsynced)).trans hinode
  obtain ⟨L', hL', heq'⟩ := h'.survives L'' hL''
  obtain ⟨L, hL, heq⟩ := h.survives L' hL'
  exact ⟨L, hL, fun n hn => (heq' n hn).trans (heq n hn)⟩

theorem mono (h : Harmless names d d') (hle : ∀ n, names n → names' n) : Harmless names' d d' := by
  refine ⟨h.next, h.saved, fun L' hL' => ?_, fun n hn => h.entries n fun hn' => hn (hle n hn')⟩
  obtain ⟨L, hL, heq⟩ := h.survives L' hL'
  exact ⟨L, hL, fun n hn => heq n fun hn' => hn (hle n hn')⟩

theorem settled (h : Harmless names d d') (hcurrent : ¬ names currentName)
    (hjournal : ∀ c, prev = some c → ¬ names (current.name c))
    (hd : ∀ L, d.Survives L → d.Settled L prev) : ∀ L, d'.Survives L → d'.Settled L prev := by
  intro L' hL'
  obtain ⟨L, hL, heq⟩ := h.survives L' hL'
  have hL := hd L hL
  cases prev with
  | none => exact (heq _ hcurrent).trans hL
  | some c =>
    obtain ⟨i, hlookup, hi, hfree⟩ := hL
    exact ⟨i, (heq _ hcurrent).trans hlookup, h.points i c hi, (heq _ (hjournal c rfl)).trans hfree⟩

end Harmless

section Calls

variable {s : Store} {n n' : Bytes}

theorem harmless_rootless {c : Call} (hc : c.Within Rootless) :
    Harmless (fun _ => False) d (d.perform c s) := by
  obtain ⟨hlinks, hnext, hinodes⟩ := perform_rootless (d := d) (s := s) hc
  refine ⟨hnext.ge, fun i _ hsynced => ?_, fun L hL => ⟨L, ?_, fun _ _ => rfl⟩, fun n _ => ?_⟩
  · rcases hinodes i with heq | heq
    · exact heq
    · rw [heq, ← hsynced]
  · rcases hlinks with hlinks | hlinks
    · rw [Survives, hlinks] at hL
      exact hL
    · rw [Survives, hlinks, survives_flush] at hL
      rw [hL]
      exact survives_current
  · rcases hlinks with hlinks | hlinks <;> rw [entries, hlinks]
    · rfl
    · rw [current_flush]
      rfl

theorem harmless_relink {u : Relink}
    (hu : ∀ (L : Map Bytes ℕ) m, ¬ names m → (u.act L).lookup m = L.lookup m) :
    Harmless names d { d with store := s, links := d.links.push u } := by
  refine ⟨le_rfl, fun _ _ _ => rfl, fun L' hL' => ?_, fun n hn => ?_⟩
  · rcases survives_push.mp hL' with hL' | ⟨L, hL, rfl⟩
    · exact ⟨L', hL', fun _ _ => rfl⟩
    · exact ⟨L, hL, hu L⟩
  · rw [entries, current_push]
    exact hu _ n hn

theorem harmless_unlink : Harmless (· = n) d (d.perform (.unlink (.root n)) s) := by
  refine harmless_relink fun L m hm => ?_
  rw [lookup_drop, if_neg hm]

theorem harmless_rename :
    Harmless (fun m => m = n ∨ m = n') d (d.perform (.rename .root n n') s) := by
  refine harmless_relink fun L m hm => ?_
  rw [lookup_move, if_neg fun h => hm (.inr h), if_neg fun h => hm (.inl h)]

theorem harmless_create : Harmless (· = n) d (d.perform (.create (.root n)) s) := by
  refine ⟨Nat.le_succ _, fun i hi _ => Function.update_of_ne hi.ne _ _, fun L' hL' => ?_,
    fun m hm => ?_⟩
  · rcases survives_push.mp hL' with hL' | ⟨L, hL, rfl⟩
    · exact ⟨L', hL', fun _ _ => rfl⟩
    · refine ⟨L, hL, fun m hm => ?_⟩
      rw [lookup_put, if_neg hm]
  · rw [entries, perform, current_push, lookup_put, if_neg hm]
    rfl

theorem harmless_append {byte : Byte} (h : (d.inodes (d.inode n)).synced = false) :
    Harmless (fun _ => False) d (d.perform (.append (.root n) byte) s) := by
  refine ⟨le_rfl, fun i _ hsynced => Function.update_of_ne ?_ _ _,
    fun L hL => ⟨L, hL, fun _ _ => rfl⟩, fun _ _ => rfl⟩
  rintro rfl
  rw [hsynced] at h
  cases h

end Calls

end Disk

/-! ## Programs on the disk -/

/-- The disk with a record of the calls issued. -/
abbrev recorded : Machine (Disk × List Call) Store Call String := diskMachine.logged

theorem faithful_recorded : Faithful recorded := faithful_diskMachine.logged

theorem meets_recorded {c : Call} {Q : Except String Unit → Disk × List Call → Prop}
    {I : Disk × List Call → Call → Prop} (hI : I (d, log) c)
    (hok : ∀ s, Store.exec c d.store = .ok s → Q (.ok ()) (d.perform c s, log ++ [c]))
    (herror : ∀ e, Q (.error e) (d, log ++ [c])) : recorded.Meets Q I (issue c) (d, log) := by
  rw [meets_issue]
  refine ⟨hI, ?_⟩
  rintro answer ⟨d', log'⟩ ⟨hstep, hlog⟩
  dsimp only at hstep hlog
  subst hlog
  rcases hstep with ⟨rfl, s, hexec, rfl⟩ | ⟨⟨e, rfl⟩, rfl⟩
  · exact hok s hexec
  · exact herror e

/-- A run got from one disk to the other and changed root entries of these names only. -/
structure Keeps (names : Bytes → Prop) (d d' : Disk) : Prop where
  valid : d'.Valid
  harmless : Disk.Harmless names d d'

theorem Keeps.refl (names : Bytes → Prop) (h : d.Valid) : Keeps names d d :=
  ⟨h, .refl names d⟩

theorem Keeps.trans {d' d'' : Disk} (h : Keeps names d d') (h' : Keeps names d' d'') :
    Keeps names d d'' :=
  ⟨h'.valid, h.harmless.trans h'.harmless⟩

theorem meets_rootless {α : Type} {p : Run α} {scope : Scope} (hp : p.Issues (Call.Within scope))
    (hscope : ∀ n, ¬ scope.root n) (hd : d.Valid) :
    recorded.Meets (fun _ t => Keeps (fun _ => False) d t.1)
      (fun t _ => Keeps (fun _ => False) d t.1) p (d, log) := by
  have hle : scope.Le Disk.Rootless :=
    ⟨fun n hn => hscope n hn, fun _ _ => trivial, fun _ _ => trivial⟩
  refine (meets_of_issues (J := fun t => Keeps (fun _ => False) d t.1) hp ?_
    (.refl _ hd)).mono (fun _ _ h => h) fun _ _ h => h.1
  rintro ⟨t, l⟩ c answer ⟨t', l'⟩ hc ht ⟨hstep, _⟩
  rcases hstep with ⟨rfl, s, hexec, rfl⟩ | ⟨_, rfl⟩
  · exact ht.trans ⟨ht.valid.perform hexec, harmless_rootless (hc.mono hle)⟩
  · exact ht

/-- The file under a name is new, its content on disk. -/
def Written (n : Bytes) (uid : ℕ) (bytes : Bytes) (d : Disk) : Prop :=
  ∃ i, d.entries.lookup n = some i ∧ i < d.next ∧
    d.inodes i = ⟨⟨.regularFile, uid, 0o600, bytes⟩, true⟩

theorem meets_writeSyncedFile_root {bytes : Bytes} (hd : d.Valid) : recorded.Meets
      (fun r t => Keeps (· = n) d t.1 ∧ (r = .ok () → Written n d.store.uid bytes t.1))
      (fun t _ => Keeps (· = n) d t.1) (writeSyncedFile (.root n) bytes) (d, log) := by
  rw [writeSyncedFile, meets_bind]
  refine meets_recorded (.refl _ hd) (fun s hexec => ?_) fun e => ⟨.refl _ hd, fun h => by cases h⟩
  have hcreate : Keeps (· = n) d (d.perform (.create (.root n)) s) :=
    ⟨hd.create hexec, harmless_create⟩
  rw [then_ok, meets_bind]
  -- the file is not on disk until its last byte is written
  refine meets_forM (J := fun rest t => Keeps (· = n) d t.1 ∧ ∃ i written, written ++ rest = bytes ∧
    t.1.entries.lookup n = some i ∧ i < t.1.next ∧
    t.1.inodes i = ⟨⟨.regularFile, d.store.uid, 0o600, written⟩, false⟩) ?_ ?_ _ ⟨hcreate, ?_⟩
  · rintro byte rest ⟨t, l⟩ ⟨ht, i, written, hwritten, hi, hold, hinode⟩
    refine meets_recorded ht (fun s' hexec' => ?_) fun e => ⟨ht, fun h => by cases h⟩
    dsimp only at hi hold hinode
    have hin : t.inode n = i := by rw [inode, hi, Option.getD_some]
    have hdirty : (t.inodes (t.inode n)).synced = false := by rw [hin, hinode]
    refine ⟨ht.trans ⟨ht.valid.append hexec', (harmless_append hdirty).mono fun _ h => h.elim⟩, ?_⟩
    refine ⟨i, written ++ [byte], ?_, hi, hold, ?_⟩
    · rw [List.append_assoc, List.singleton_append, hwritten]
    · simp [perform, hin, hinode]
  · rintro ⟨t, l⟩ ⟨ht, i, written, hwritten, hi, hold, hinode⟩
    dsimp only at hi hold hinode
    rw [List.append_nil] at hwritten
    subst hwritten
    rw [then_ok]
    refine meets_recorded ht (fun s' hexec' => ?_) fun e => ⟨ht, fun h => by cases h⟩
    have hin : t.inode n = i := by rw [inode, hi, Option.getD_some]
    have hsync : Disk.Harmless (fun _ => False) t (t.perform (.syncFile (.root n)) s') :=
      harmless_rootless trivial
    refine ⟨ht.trans ⟨ht.valid.perform hexec', hsync.mono fun _ h => h.elim⟩, fun _ => ?_⟩
    refine ⟨i, hi, hold, ?_⟩
    simp [perform, hin, hinode]
  · refine ⟨d.next, [], rfl, ?_, Nat.lt_succ_self _, Function.update_self _ _ _⟩
    show ((d.links.push (.put n d.next)).current Relink.act).lookup n = _
    rw [current_push, lookup_put, if_pos rfl]

theorem Written.points {uid : ℕ} {g : GenerationId} (h : Written n uid g.pointerRecord d) :
    ∃ i, d.entries.lookup n = some i ∧ d.Points i g := by
  obtain ⟨i, hi, hold, hinode⟩ := h
  exact ⟨i, hi, hold, by rw [hinode], by rw [hinode]; exact ⟨rfl, rfl⟩⟩

end Realm.Theme

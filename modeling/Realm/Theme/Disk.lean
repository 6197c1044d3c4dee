import Mathlib.Logic.Equiv.Basic
import Realm.Lib.Writeback
import Realm.Theme.Pointer

/-!
# The store on a disk that can lose power

A process sees every change it makes at once.  The entries of the root directory reach
the disk when the directory is synced, the content of a file when the file is; until
then a power loss keeps any part of them.  A rename or an exchange is kept or lost as a
whole.  Nothing is assumed about what a power loss leaves of the trees and the leases.

A call may also fail, with no effect: a sync that fails leaves what was pending pending.
-/

namespace Realm.Theme

open Text Prog Guard Option Map Writeback

/-! ## Root entries and files -/

/-- A change of root entries that is kept or lost as a whole. -/
inductive Relink where
  | put (name : Bytes) (inode : ℕ)
  | drop (name : Bytes)
  | move (source target : Bytes) (inode : ℕ)
  | swap (left right : Bytes) (leftInode rightInode : ℕ)

/-- What the change does to the entries. -/
def Relink.act : Relink → Map Bytes ℕ → Map Bytes ℕ
  | put name inode, entries => entries.insert name inode
  | drop name, entries => entries.erase name
  | move source target inode, entries => (entries.erase source).insert target inode
  | swap left right leftInode rightInode, entries =>
    (entries.insert left rightInode).insert right leftInode

/-- A file and whether its content is on disk. -/
structure Inode where
  file : File
  synced : Bool

/-- The store a process sees, with the root entries and the files below it.  Files are
numbered in the order of their creation. -/
structure Disk where
  store : Store
  links : Writeback (Map Bytes ℕ) Relink
  inodes : ℕ → Inode
  next : ℕ

namespace Disk

def entries (d : Disk) : Map Bytes ℕ := d.links.current Relink.act

/-- Root entries that a power loss may leave. -/
def Survives (d : Disk) (entries : Map Bytes ℕ) : Prop := d.links.Survives Relink.act entries

def inode (d : Disk) (name : Bytes) : ℕ := (d.entries.lookup name).getD d.next

/-- What a call that succeeds does to the disk; `store` is what a process sees then. -/
def perform (d : Disk) (call : Call) (store : Store) : Disk :=
  match call with
  | .create (.root name) =>
    { store
      links := d.links.push (.put name d.next)
      inodes := Function.update d.inodes d.next ⟨⟨.regularFile, d.store.uid, 0o600, []⟩, false⟩
      next := d.next + 1 }
  | .append (.root name) byte =>
    let file := (d.inodes (d.inode name)).file
    { d with
      store
      inodes := Function.update d.inodes (d.inode name)
        ⟨{ file with bytes := file.bytes ++ [byte] }, false⟩ }
  | .unlink (.root name) => { d with store, links := d.links.push (.drop name) }
  | .rename .root source target =>
    { d with store, links := d.links.push (.move source target (d.inode source)) }
  | .exchange .root left right =>
    { d with store, links := d.links.push (.swap left right (d.inode left) (d.inode right)) }
  | .syncFile (.root name) =>
    { d with
      store
      inodes := Function.update d.inodes (d.inode name)
        { d.inodes (d.inode name) with synced := true } }
  | .sync .root => { d with store, links := d.links.flush Relink.act }
  | _ => { d with store }

/-- The root holds the content of these entries; what is not synced may be anything. -/
def Shown (d : Disk) (entries : Map Bytes ℕ) (root : Map Bytes File) : Prop :=
  ∀ name, match entries.lookup name with
    | none => root.lookup name = none
    | some i => ∃ file, root.lookup name = some file ∧
        ((d.inodes i).synced = true → file = (d.inodes i).file)

def PowerLoss (d : Disk) (store : Store) : Prop :=
  store.uid = d.store.uid ∧ ∃ entries, d.Survives entries ∧ d.Shown entries store.root

/-- What a later process may find: the store as it was left, or what a power loss made
of it. -/
def Later (d : Disk) (store : Store) : Prop := store = d.store ∨ d.PowerLoss store

end Disk

def diskMachine : Machine Disk Store Call String where
  view := Disk.store
  Step d call answer d' :=
    answer = .ok () ∧ (∃ store, Store.exec call d.store = .ok store ∧ d' = d.perform call store) ∨
      (∃ e, answer = .error e) ∧ d' = d

theorem store_perform (d : Disk) (call : Call) (store : Store) :
    (d.perform call store).store = store := by
  cases call with
  | create place | append place | unlink place => cases place <;> rfl
  | mkdir | rmdir => rfl
  | rename shelf | exchange shelf => cases shelf <;> rfl
  | syncFile place => cases place <;> rfl
  | syncTree => rfl
  | sync shelf => cases shelf <;> rfl

theorem faithful_diskMachine : Faithful diskMachine := by
  rintro d c answer d' (⟨rfl, store, hexec, rfl⟩ | ⟨he, rfl⟩)
  · refine .inl ⟨rfl, ?_⟩
    show Store.exec c d.store = .ok (d.perform c store).store
    rw [hexec, store_perform]
  · exact .inr ⟨he, rfl⟩

theorem Faithful.logged {σ : Type} {M : Machine σ Store Call String} (h : Faithful M) :
    Faithful M.logged := fun s c answer t hstep => h s.1 c answer t.1 hstep.1

/-! ## Disks that can arise -/

namespace Disk

variable {s : Store}

/-- What a process sees is what the entries and files say, no file has two names, and
every file named has been created. -/
structure Valid (d : Disk) : Prop where
  shows : ∀ n, d.store.root.lookup n = (d.entries.lookup n).map fun i => (d.inodes i).file
  apart : ∀ n m i, d.entries.lookup n = some i → d.entries.lookup m = some i → n = m
  old : ∀ entries, d.Survives entries → ∀ n i, entries.lookup n = some i → i < d.next

variable {d : Disk} {n : Bytes} {i : ℕ} {c : Call} {n' : Bytes}

theorem Valid.old_entries (h : d.Valid) (hn : d.entries.lookup n = some i) : i < d.next :=
  h.old d.entries survives_current n i hn

theorem Valid.lookup_eq_some (h : d.Valid) {f : File} (hn : d.store.root.lookup n = some f) :
    d.entries.lookup n = some (d.inode n) ∧ (d.inodes (d.inode n)).file = f := by
  rw [h.shows, map_eq_some_iff] at hn
  obtain ⟨i, hi, hf⟩ := hn
  rw [inode, hi]
  exact ⟨rfl, hf⟩

theorem Valid.lookup_eq_none (h : d.Valid) :
    d.store.root.lookup n = none ↔ d.entries.lookup n = none := by
  rw [h.shows, map_eq_none_iff]

theorem Valid.shown (h : d.Valid) : d.Shown d.entries d.store.root := by
  intro n
  rw [h.shows]
  cases d.entries.lookup n with
  | none => rfl
  | some => exact ⟨_, rfl, fun _ => rfl⟩

theorem Later.exists_shown (h : d.Later s) (hd : d.Valid) :
    ∃ entries, d.Survives entries ∧ d.Shown entries s.root := by
  rcases h with rfl | ⟨_, hsurvives⟩
  · exact ⟨d.entries, survives_current, hd.shown⟩
  · exact hsurvives

/-- Calls on trees and leases leave the root alone. -/
def Rootless : Scope := ⟨fun _ => False, fun _ => True, fun _ => True⟩

theorem perform_rootless (hc : c.Within Rootless) : ((d.perform c s).links = d.links ∨
      (d.perform c s).links = d.links.flush Relink.act) ∧ (d.perform c s).next = d.next ∧
    ∀ i, (d.perform c s).inodes i = d.inodes i ∨
      (d.perform c s).inodes i = { d.inodes i with synced := true } := by
  have hsame : d.links = d.links ∨ d.links = d.links.flush Relink.act := .inl rfl
  have hinodes : ∀ i, d.inodes i = d.inodes i ∨ d.inodes i = { d.inodes i with synced := true } :=
    fun i => .inl rfl
  cases c with
  | create place | append place | unlink place =>
    cases place with
    | root => exact hc.elim
    | lease | tree => exact ⟨hsame, rfl, hinodes⟩
  | mkdir | rmdir => exact ⟨hsame, rfl, hinodes⟩
  | rename shelf | exchange shelf =>
    cases shelf with
    | root => exact hc.1.elim
    | generations | leases => exact ⟨hsame, rfl, hinodes⟩
  | syncFile place =>
    cases place with
    | root name =>
      refine ⟨hsame, rfl, fun i => ?_⟩
      by_cases hi : i = d.inode name
      · subst hi
        exact .inr (Function.update_self _ _ _)
      · exact .inl (Function.update_of_ne hi _ _)
    | lease | tree => exact ⟨hsame, rfl, hinodes⟩
  | syncTree => exact ⟨hsame, rfl, hinodes⟩
  | sync shelf =>
    cases shelf with
    | root => exact ⟨.inr rfl, rfl, hinodes⟩
    | generations | leases => exact ⟨hsame, rfl, hinodes⟩

theorem Valid.rootless (h : d.Valid) (hc : c.Within Rootless)
    (hexec : Store.exec c d.store = .ok s) : (d.perform c s).Valid := by
  obtain ⟨hlinks, hnext, hinodes⟩ := perform_rootless (d := d) (s := s) hc
  have hentries : (d.perform c s).entries = d.entries := by
    rcases hlinks with hlinks | hlinks <;> rw [entries, hlinks]
    · rfl
    · exact current_flush
  have hfile : ∀ i, ((d.perform c s).inodes i).file = (d.inodes i).file := by
    intro i
    rcases hinodes i with hi | hi <;> rw [hi]
  have hroot : ∀ n, s.root.lookup n = d.store.root.lookup n := fun n =>
    (sameOutside_exec hc hexec).root n id
  refine ⟨fun n => ?_, ?_, fun L hL n i hn => ?_⟩
  · rw [store_perform, hroot, h.shows, hentries]
    exact map_congr fun i _ => (hfile i).symm
  · rw [hentries]
    exact h.apart
  · rw [hnext]
    rcases hlinks with hlinks | hlinks
    · rw [Survives, hlinks] at hL
      exact h.old L hL n i hn
    · rw [Survives, hlinks, survives_flush] at hL
      rw [hL] at hn
      exact h.old_entries hn

/-! ### Calls on the root -/

theorem lookup_put (L : Map Bytes ℕ) (n m : Bytes) (i : ℕ) :
    (Relink.act (.put n i) L).lookup m = if m = n then some i else L.lookup m :=
  lookup_insert_eq L n m i

theorem lookup_drop (L : Map Bytes ℕ) (n m : Bytes) :
    (Relink.act (.drop n) L).lookup m = if m = n then none else L.lookup m :=
  lookup_erase_eq L n m

theorem lookup_move (L : Map Bytes ℕ) (n n' m : Bytes) (i : ℕ) :
    (Relink.act (.move n n' i) L).lookup m =
      if m = n' then some i else if m = n then none else L.lookup m := by
  rw [Relink.act, lookup_insert_eq, lookup_erase_eq]

theorem lookup_swap (L : Map Bytes ℕ) (n n' m : Bytes) (i j : ℕ) :
    (Relink.act (.swap n n' i j) L).lookup m =
      if m = n' then some i else if m = n then some j else L.lookup m := by
  rw [Relink.act, lookup_insert_eq, lookup_insert_eq]

/-- A relinking keeps a disk valid if it agrees with what a process sees and names files
that have been created. -/
theorem Valid.relink {u : Relink} (h : d.Valid) (hshows : ∀ m, s.root.lookup m =
      ((u.act d.entries).lookup m).map fun i => (d.inodes i).file)
    (hapart : ∀ m m' i, (u.act d.entries).lookup m = some i →
      (u.act d.entries).lookup m' = some i → m = m')
    (hold : ∀ L m i, d.Survives L → (u.act L).lookup m = some i → i < d.next) :
    Valid { d with store := s, links := d.links.push u } where
  shows m := by
    rw [entries, current_push]
    exact hshows m
  apart := by
    rw [entries, current_push]
    exact hapart
  old L hL m i hm := by
    rcases survives_push.mp hL with hL | ⟨L', hL', rfl⟩
    · exact h.old L hL m i hm
    · exact hold L' m i hL' hm

theorem Valid.create (h : d.Valid) (hexec : Store.exec (.create (.root n)) d.store = .ok s) :
    (d.perform (.create (.root n)) s).Valid := by
  obtain ⟨root, hroot, rfl⟩ := map_eq_ok.mp hexec
  rw [Files.create, ite_error_eq_ok] at hroot
  obtain ⟨_, hroot⟩ := hroot
  cases hroot
  have hold : ∀ {m i}, d.entries.lookup m = some i → i ≠ d.next := fun hm =>
    (h.old_entries hm).ne
  have hentries : ∀ m, (d.perform (.create (.root n)) { d.store with
      root := d.store.root.insert n ⟨.regularFile, d.store.uid, 0o600, []⟩ }).entries.lookup m =
      if m = n then some d.next else d.entries.lookup m := by
    intro m
    rw [entries, perform, current_push]
    exact lookup_put _ _ _ _
  refine ⟨fun m => ?_, fun m m' i hm hm' => ?_, fun L hL m i hm => ?_⟩
  · rw [hentries, store_perform, lookup_insert_eq]
    split_ifs with hmn
    · simp [perform]
    · rw [h.shows]
      refine map_congr fun i hi => ?_
      simp [perform, Function.update_of_ne (hold hi)]
  · rw [hentries] at hm hm'
    split_ifs at hm hm' with hmn hmn' hmn'
    · rw [hmn, hmn']
    · exact absurd (some_inj.mp hm).symm (hold hm')
    · exact absurd (some_inj.mp hm').symm (hold hm)
    · exact h.apart m m' i hm hm'
  · show i < d.next + 1
    rcases survives_push.mp hL with hL | ⟨L', hL', rfl⟩
    · exact Nat.lt_succ_of_lt (h.old L hL m i hm)
    · rw [lookup_put] at hm
      split_ifs at hm
      · cases hm
        exact Nat.lt_succ_self _
      · exact Nat.lt_succ_of_lt (h.old L' hL' m i hm)

theorem Valid.append {byte : Byte} (h : d.Valid)
    (hexec : Store.exec (.append (.root n) byte) d.store = .ok s) :
    (d.perform (.append (.root n) byte) s).Valid := by
  obtain ⟨root, hroot, rfl⟩ := map_eq_ok.mp hexec
  rw [Files.append] at hroot
  split at hroot
  · rename_i f hf
    cases hroot
    obtain ⟨hentry, hfile⟩ := h.lookup_eq_some hf
    refine ⟨fun m => ?_, h.apart, h.old⟩
    show (d.store.root.insert n _).lookup m = (d.entries.lookup m).map _
    rw [lookup_insert_eq]
    split_ifs with hmn
    · subst hmn
      simp [perform, hentry, hfile]
    · rw [h.shows]
      refine map_congr fun i hi => ?_
      have hne : i ≠ d.inode n := by
        rintro rfl
        exact hmn (h.apart m n _ hi hentry)
      simp [perform, Function.update_of_ne hne]
  · cases hroot

theorem Valid.unlink (h : d.Valid) (hexec : Store.exec (.unlink (.root n)) d.store = .ok s) :
    (d.perform (.unlink (.root n)) s).Valid := by
  obtain ⟨root, hroot, rfl⟩ := map_eq_ok.mp hexec
  rw [Files.unlink] at hroot
  split at hroot
  · rw [ite_error_eq_ok] at hroot
    obtain ⟨_, hroot⟩ := hroot
    cases hroot
    refine h.relink (fun m => ?_) (fun m m' i hm hm' => ?_) fun L m i hL hm => ?_
    · rw [lookup_drop]
      show (d.store.root.erase n).lookup m = _
      rw [lookup_erase_eq]
      split_ifs
      · rfl
      · exact h.shows m
    · rw [lookup_drop] at hm hm'
      split_ifs at hm hm'
      exact h.apart m m' i hm hm'
    · rw [lookup_drop] at hm
      split_ifs at hm
      exact h.old L hL m i hm
  · cases hroot

theorem Valid.rename (h : d.Valid) (hexec : Store.exec (.rename .root n n') d.store = .ok s) :
    (d.perform (.rename .root n n') s).Valid := by
  obtain ⟨root, hroot, rfl⟩ := map_eq_ok.mp hexec
  obtain ⟨f, hf, _, rfl⟩ := renameEntry_eq_ok.mp hroot
  obtain ⟨hentry, hfile⟩ := h.lookup_eq_some hf
  refine h.relink (fun m => ?_) (fun m m' i hm hm' => ?_) fun L m i hL hm => ?_
  · rw [lookup_move]
    show ((d.store.root.erase n).insert n' f).lookup m = _
    rw [lookup_insert_eq, lookup_erase_eq]
    split_ifs
    · rw [map_some, hfile]
    · rfl
    · exact h.shows m
  · rw [lookup_move] at hm hm'
    -- the file moved had the old name only
    have hmoved : ∀ {m}, d.entries.lookup m = some (d.inode n) → m = n := fun hm =>
      h.apart _ _ _ hm hentry
    by_cases hmn : m = n'
    · rw [if_pos hmn] at hm
      cases hm
      split_ifs at hm' with hmn' hn
      · rw [hmn, hmn']
      · exact absurd (hmoved hm') hn
    · rw [if_neg hmn] at hm
      split_ifs at hm hm' with hn hmn'
      · cases hm'
        exact absurd (hmoved hm) hn
      · exact h.apart m m' i hm hm'
  · rw [lookup_move] at hm
    split_ifs at hm
    · cases hm
      exact h.old_entries hentry
    · exact h.old L hL m i hm

theorem Valid.exchange (h : d.Valid) (hexec : Store.exec (.exchange .root n n') d.store = .ok s) :
    (d.perform (.exchange .root n n') s).Valid := by
  obtain ⟨root, hroot, rfl⟩ := map_eq_ok.mp hexec
  obtain ⟨f, f', hf, hf', rfl⟩ := exchangeEntries_eq_ok.mp hroot
  obtain ⟨hentry, hfile⟩ := h.lookup_eq_some hf
  obtain ⟨hentry', hfile'⟩ := h.lookup_eq_some hf'
  refine h.relink (fun m => ?_) (fun m m' i hm hm' => ?_) fun L m i hL hm => ?_
  · rw [lookup_swap]
    show ((d.store.root.insert n f').insert n' f).lookup m = _
    rw [lookup_insert_eq, lookup_insert_eq]
    split_ifs
    · rw [map_some, hfile]
    · rw [map_some, hfile']
    · exact h.shows m
  · -- the names of the two files are exchanged and no other name changes
    have hswap : ∀ m, (Relink.act (.swap n n' (d.inode n) (d.inode n')) d.entries).lookup m =
        d.entries.lookup (Equiv.swap n' n m) := by
      intro m
      rw [lookup_swap]
      by_cases hmn' : m = n'
      · rw [if_pos hmn', hmn', Equiv.swap_apply_left, hentry]
      · by_cases hmn : m = n
        · rw [if_neg hmn', if_pos hmn, hmn, Equiv.swap_apply_right, hentry']
        · rw [if_neg hmn', if_neg hmn, Equiv.swap_apply_of_ne_of_ne hmn' hmn]
    rw [hswap] at hm hm'
    exact (Equiv.swap n' n).injective (h.apart _ _ i hm hm')
  · rw [lookup_swap] at hm
    split_ifs at hm
    · cases hm
      exact h.old_entries hentry
    · cases hm
      exact h.old_entries hentry'
    · exact h.old L hL m i hm

theorem Valid.perform (h : d.Valid) (hexec : Store.exec c d.store = .ok s) :
    (d.perform c s).Valid := by
  cases c with
  | create place =>
    cases place with
    | root => exact h.create hexec
    | lease | tree => exact h.rootless trivial hexec
  | append place =>
    cases place with
    | root => exact h.append hexec
    | lease | tree => exact h.rootless trivial hexec
  | unlink place =>
    cases place with
    | root => exact h.unlink hexec
    | lease | tree => exact h.rootless trivial hexec
  | mkdir | rmdir => exact h.rootless trivial hexec
  | rename shelf =>
    cases shelf with
    | root => exact h.rename hexec
    | generations | leases => exact h.rootless ⟨trivial, trivial⟩ hexec
  | exchange shelf =>
    cases shelf with
    | root => exact h.exchange hexec
    | generations | leases => exact h.rootless ⟨trivial, trivial⟩ hexec
  | syncFile | syncTree | sync => exact h.rootless trivial hexec

end Disk

end Realm.Theme

import Realm.Lib.Program
import Realm.Lib.Text
import Realm.Session.Snapshot

/-!
# Writing the snapshot file

A snapshot is written to a temporary file that then takes the name of the snapshot, so the
file is replaced as a whole or not at all.  A write that fails after the rename has replaced
the file all the same.
-/

namespace Realm

open Text Prog Machine List

/-- The JSON library, of which only its two functions on snapshots are known. -/
class SnapshotJson where
  toVec : SessionSnapshotV1 → Bytes
  fromSlice : Bytes → Except String SessionSnapshotV1

/-- The directory of the snapshot: the file and the temporary file beside it. -/
structure SnapshotDir where
  file : Option Bytes
  temporary : Option Bytes
  deriving DecidableEq

/-- The system calls of a write, one byte at a time. -/
inductive WriteCall where
  | openTemporary
  | setPermissions
  | append (byte : Byte)
  | syncFile
  | rename
  | openParent
  | syncParent
  deriving DecidableEq

namespace SnapshotDir

def exec : WriteCall → SnapshotDir → SnapshotDir
  | .openTemporary, d => { d with temporary := some [] }
  | .append byte, d => { d with temporary := d.temporary.map (· ++ [byte]) }
  | .rename, d => ⟨d.temporary, none⟩
  | _, d => d

/-- A machine on which some calls may fail; one that fails has no effect. -/
def machine (fails : WriteCall → Prop) : Machine SnapshotDir SnapshotDir WriteCall String where
  view d := d
  Step d c answer d' :=
    answer = .ok () ∧ d' = exec c d ∨ fails c ∧ (∃ e, answer = .error e) ∧ d' = d

end SnapshotDir

section Json

variable [SnapshotJson]

namespace SessionSnapshotV1

def fromJson (bytes : Bytes) : Except String SessionSnapshotV1 := do
  let snapshot ← SnapshotJson.fromSlice bytes
  match snapshot.validate with
  | .ok () => return snapshot
  | .error (.invalid message) => throw message

def toJson (snapshot : SessionSnapshotV1) : Except String Bytes :=
  match snapshot.validate with
  | .ok () => .ok (SnapshotJson.toVec snapshot)
  | .error (.invalid message) => .error message

end SessionSnapshotV1

def writeSnapshotAtomically (snapshot : SessionSnapshotV1) :
    Prog SnapshotDir WriteCall String Unit := do
  let bytes ← snapshot.toJson
  issue .openTemporary
  issue .setPermissions
  forM bytes fun byte => issue (.append byte)
  issue .syncFile
  issue .rename
  issue .openParent
  issue .syncParent

/-- How a write can end: it succeeded, it failed and left the file, or it failed to sync the
directory of the file that it had replaced. -/
inductive Wrote (fails : WriteCall → Prop) (snapshot : SessionSnapshotV1) (d : SnapshotDir) :
    Except String Unit → SnapshotDir → Prop where
  | replaced {bytes : Bytes} {d' : SnapshotDir} (hbytes : snapshot.toJson = .ok bytes)
      (h : d'.file = some bytes) : Wrote fails snapshot d (.ok ()) d'
  | kept {e : String} {d' : SnapshotDir} (h : d'.file = d.file) :
      Wrote fails snapshot d (.error e) d'
  | unsynced {e : String} {bytes : Bytes} {d' : SnapshotDir}
      (hbytes : snapshot.toJson = .ok bytes) (h : d'.file = some bytes)
      (hfails : fails .openParent ∨ fails .syncParent) : Wrote fails snapshot d (.error e) d'

/-- The file is the one before the write or the whole new one. -/
def Whole (snapshot : SessionSnapshotV1) (d d' : SnapshotDir) : Prop :=
  d'.file = d.file ∨ ∃ bytes, snapshot.toJson = .ok bytes ∧ d'.file = some bytes

variable {fails : WriteCall → Prop} {snapshot : SessionSnapshotV1} {d : SnapshotDir} {α : Type}
  {c : WriteCall} {f : Unit → Prog SnapshotDir WriteCall String α}

omit [SnapshotJson] in
theorem meets_issue_bind {Q : Except String α → SnapshotDir → Prop} {J : SnapshotDir → Prop}
    (hJ : J d) (hok : (SnapshotDir.machine fails).Meets Q (fun d _ => J d) (f ()) (d.exec c))
    (herror : fails c → ∀ e, Q (.error e) d) :
    (SnapshotDir.machine fails).Meets Q (fun d _ => J d) (issue c >>= f) d := by
  rw [meets_bind, meets_issue]
  refine ⟨hJ, ?_⟩
  rintro answer d' (⟨rfl, rfl⟩ | ⟨hfails, ⟨e, rfl⟩, rfl⟩)
  · exact hok
  · exact herror hfails e

theorem meets_writeSnapshotAtomically (fails : WriteCall → Prop) (snapshot : SessionSnapshotV1)
    (d : SnapshotDir) : (SnapshotDir.machine fails).Meets (Wrote fails snapshot d)
      (fun d' _ => Whole snapshot d d') (writeSnapshotAtomically snapshot) d := by
  refine meets_lift_bind_cases (fun e _ => .kept rfl) fun bytes hbytes => ?_
  refine meets_issue_bind (.inl rfl) (meets_issue_bind (.inl rfl) ?_ fun _ e => .kept rfl)
    fun _ e => .kept rfl
  refine (meets_bind _ _ _ _ _).mpr ?_
  -- the bytes written so far are in the temporary file
  refine meets_forM (J := fun rest d' => d'.file = d.file ∧ ∃ written, written ++ rest = bytes ∧
    d'.temporary = some written) ?_ ?_ _ ⟨rfl, [], rfl, rfl⟩
  · rintro byte rest d' ⟨hfile, written, hwritten, htemporary⟩
    rw [meets_issue]
    refine ⟨.inl hfile, ?_⟩
    rintro answer d'' (⟨rfl, rfl⟩ | ⟨_, ⟨e, rfl⟩, rfl⟩)
    · refine ⟨hfile, written ++ [byte], ?_, congrArg (Option.map (· ++ [byte])) htemporary⟩
      rw [append_assoc, singleton_append, hwritten]
    · exact .kept hfile
  · rintro d' ⟨hfile, written, hwritten, htemporary⟩
    rw [append_nil] at hwritten
    rw [hwritten] at htemporary
    refine meets_issue_bind (.inl hfile) ?_ fun _ e => .kept hfile
    refine meets_issue_bind (.inl hfile) ?_ fun _ e => .kept hfile
    have hrenamed : (SnapshotDir.exec .rename d').file = some bytes := htemporary
    have hwhole : Whole snapshot d (SnapshotDir.exec .rename d') := .inr ⟨bytes, hbytes, hrenamed⟩
    refine meets_issue_bind hwhole ?_ fun hfails e => .unsynced hbytes hrenamed (.inl hfails)
    rw [meets_issue]
    refine ⟨hwhole, ?_⟩
    rintro answer d'' (⟨rfl, rfl⟩ | ⟨hfails, ⟨e, rfl⟩, rfl⟩)
    · exact .replaced hbytes hrenamed
    · exact .unsynced hbytes hrenamed (.inr hfails)

/-- Wherever a write stops and whichever of its calls fail, the file is the old one or the
whole new one. -/
theorem meets_whole (fails : WriteCall → Prop) (snapshot : SessionSnapshotV1) (d : SnapshotDir) :
    (SnapshotDir.machine fails).Meets (fun _ => Whole snapshot d) (fun d' _ => Whole snapshot d d')
      (writeSnapshotAtomically snapshot) d := by
  refine (meets_writeSnapshotAtomically fails snapshot d).post ?_
  rintro _ d' (⟨hbytes, h⟩ | h | ⟨hbytes, h, _⟩)
  · exact .inr ⟨_, hbytes, h⟩
  · exact .inl h
  · exact .inr ⟨_, hbytes, h⟩

omit [SnapshotJson] in
theorem returns_issue_bind {result : Except String α} {d' : SnapshotDir}
    (h : (SnapshotDir.machine fails).Returns (f ()) (d.exec c) result d') :
    (SnapshotDir.machine fails).Returns (issue c >>= f) d result d' :=
  Returns.bind (returns_issue (.inl ⟨rfl, rfl⟩)) h

omit [SnapshotJson] in
theorem returns_append (bytes written : Bytes) (file : Option Bytes) :
    (SnapshotDir.machine fails).Returns (forM bytes fun byte => issue (.append byte))
      ⟨file, some written⟩ (.ok ()) ⟨file, some (written ++ bytes)⟩ := by
  induction bytes generalizing written with
  | nil => exact ⟨rfl, by rw [append_nil]⟩
  | cons byte bytes ih =>
    rw [forM_cons, ← singleton_append, ← append_assoc]
    exact returns_issue_bind (ih (written ++ [byte]))

/-- A write may come to its last call, with the file replaced. -/
theorem returns_writeSnapshotAtomically {bytes : Bytes} {result : Except String Unit}
    (hbytes : snapshot.toJson = .ok bytes)
    (hsync : (SnapshotDir.machine fails).Returns (issue .syncParent) ⟨some bytes, none⟩ result
      ⟨some bytes, none⟩) :
    (SnapshotDir.machine fails).Returns (writeSnapshotAtomically snapshot) d result
      ⟨some bytes, none⟩ := by
  refine Returns.bind (returns_lift hbytes) ?_
  refine returns_issue_bind (returns_issue_bind ?_)
  refine Returns.bind (returns_append bytes [] d.file) ?_
  exact returns_issue_bind (returns_issue_bind (returns_issue_bind hsync))

end Json

end Realm

import Realm.Worker.Threads

/-!
# The snapshot a session starts from

The worker reads one byte more than a snapshot may have, and what it read is decoded as it is:
whether the file was longer is not looked at.  The decoder skips blanks behind the snapshot, so
a file that is too long only for its blanks is recovered all the same.
-/

namespace Realm

open WorkerSystem List

/-- The blanks that may stand behind a value in JSON. -/
def isBlank (b : Byte) : Bool := b ∈ ([9, 10, 13, 32] : List Byte)

/-- A decoder that skips the blanks behind the value, as JSON decoders do. -/
class SkipsBlanks [SnapshotJson] : Prop where
  fromSlice_blank : ∀ {bytes : Bytes} {b : Byte} {s : SessionSnapshotV1}, isBlank b = true →
    (SnapshotJson.fromSlice (bytes ++ [b]) = .ok s ↔ SnapshotJson.fromSlice bytes = .ok s)

namespace SnapshotLoad

section Load

variable [SnapshotJson]

def startup (dir : SnapshotDir) : Except String SnapshotLoad :=
  classifySnapshotRead (readSnapshotBounded dir)

variable {dir : SnapshotDir} {file bytes blanks text : Bytes} {b : Byte} {s : SessionSnapshotV1}

omit [SnapshotJson] in
theorem snapshot_eq_some {load : SnapshotLoad} : load.snapshot = some s ↔ load = recovered s := by
  cases load <;> simp [snapshot]

theorem ofJson_eq_recovered :
    ofJson bytes = recovered s ↔ SessionSnapshotV1.fromJson bytes = .ok s := by
  unfold ofJson
  cases SessionSnapshotV1.fromJson bytes <;> simp

theorem startup_eq_recovered (hfile : dir.file = some file) :
    startup dir = .ok (recovered s) ↔
      SessionSnapshotV1.fromJson (file.take (maxSnapshotBytes + 1)) = .ok s := by
  rw [startup, readSnapshotBounded, hfile, ← ofJson_eq_recovered]
  exact iff_of_eq (Except.ok.injEq _ _)

theorem startup_congr {dir' : SnapshotDir} (h : dir'.file = dir.file) :
    startup dir' = startup dir := by
  rw [startup, startup, readSnapshotBounded, readSnapshotBounded, h]

/-! ## Blanks -/

theorem fromJson_eq_ok : SessionSnapshotV1.fromJson bytes = .ok s ↔
    SnapshotJson.fromSlice bytes = .ok s ∧ s.validate = .ok () := by
  unfold SessionSnapshotV1.fromJson
  cases SnapshotJson.fromSlice bytes with
  | error => exact iff_of_false nofun (nofun ∘ And.left)
  | ok snapshot =>
    rw [Guard.ok_bind, Except.ok.injEq]
    constructor
    · intro h
      split at h
      · cases h
        exact ⟨rfl, ‹_›⟩
      · cases h
    · rintro ⟨rfl, hvalid⟩
      rw [hvalid]
      rfl

theorem fromJson_blanks [SkipsBlanks] (h : ∀ b ∈ blanks, isBlank b = true) :
    SessionSnapshotV1.fromJson (text ++ blanks) = .ok s ↔
      SessionSnapshotV1.fromJson text = .ok s := by
  induction blanks using reverseRecOn with
  | nil => rw [append_nil]
  | append_singleton blanks b ih =>
    rw [forall_mem_append, forall_mem_singleton] at h
    rw [← ih h.1, ← append_assoc, fromJson_eq_ok, fromJson_eq_ok, SkipsBlanks.fromSlice_blank h.2]

/-- The last byte, if there is one, is no blank. -/
def Trimmed (bytes : Bytes) : Prop := ∀ b ∈ bytes.getLast?, isBlank b = false

omit [SnapshotJson] in
theorem exists_trimmed (bytes : Bytes) :
    ∃ text blanks, bytes = text ++ blanks ∧ Trimmed text ∧ ∀ b ∈ blanks, isBlank b = true := by
  induction bytes using reverseRecOn with
  | nil => exact ⟨[], [], rfl, nofun, nofun⟩
  | append_singleton bytes b ih =>
    cases hb : isBlank b with
    | false =>
      refine ⟨bytes ++ [b], [], (append_nil _).symm, ?_, nofun⟩
      rw [Trimmed, getLast?_concat]
      rintro _ ⟨⟩
      exact hb
    | true =>
      obtain ⟨text, blanks, rfl, htext, hblanks⟩ := ih
      refine ⟨text, blanks ++ [b], append_assoc _ _ _, htext, ?_⟩
      rw [forall_mem_append, forall_mem_singleton]
      exact ⟨hblanks, hb⟩

/-- A snapshot ends within the bytes that are read, and only blanks follow it there. -/
def Padded (file : Bytes) : Prop :=
  ∃ text s, SessionSnapshotV1.fromJson text = .ok s ∧ Trimmed text ∧ text <+: file ∧
    text.length ≤ maxSnapshotBytes + 1 ∧
    ∀ b ∈ (file.take (maxSnapshotBytes + 1)).drop text.length, isBlank b = true

theorem padded_iff [SkipsBlanks] : Padded file ↔
    ∃ s, SessionSnapshotV1.fromJson (file.take (maxSnapshotBytes + 1)) = .ok s := by
  constructor
  · rintro ⟨text, s, hs, -, hprefix, hlength, hblanks⟩
    obtain ⟨rest, rfl⟩ := hprefix
    rw [take_append, take_of_length_le hlength] at hblanks ⊢
    rw [drop_left] at hblanks
    exact ⟨s, (fromJson_blanks hblanks).2 hs⟩
  · rintro ⟨s, hs⟩
    obtain ⟨text, blanks, htake, htext, hblanks⟩ :=
      exists_trimmed (file.take (maxSnapshotBytes + 1))
    rw [htake, fromJson_blanks hblanks] at hs
    have hprefix : text <+: file.take (maxSnapshotBytes + 1) := htake ▸ prefix_append text blanks
    refine ⟨text, s, hs, htext, hprefix.trans <| take_prefix _ _, ?_, ?_⟩
    · exact hprefix.length_le.trans (length_take_le _ _)
    · rwa [htake, drop_left]

/-- A file within the limit is decoded as a whole.  From a longer one nothing is recovered
exactly when no snapshot in it ends, blanks aside, where the read ends. -/
theorem startup_spec [SkipsBlanks] (file : Bytes) (temporary : Option Bytes) :
    (maxSnapshotBytes < file.length →
      ((∀ s, startup ⟨some file, temporary⟩ ≠ .ok (recovered s)) ↔ ¬Padded file)) ∧
    (file.length ≤ maxSnapshotBytes → startup ⟨some file, temporary⟩ = .ok (ofJson file)) := by
  refine ⟨fun _ => ?_, fun hlength => ?_⟩
  · rw [padded_iff, not_exists]
    exact forall_congr' fun s => not_congr (startup_eq_recovered rfl)
  · rw [startup, readSnapshotBounded, classifySnapshotRead, take_of_length_le (by omega)]

end Load

open PersistenceRun

/-- Snapshots told apart by their watermark, in one byte that is no blank; blanks may follow. -/
def spacedFromSlice : Bytes → Except String SessionSnapshotV1
  | b :: blanks =>
    if !isBlank b && blanks.all isBlank then .ok (watermark b.val) else .error "trailing"
  | [] => .error "empty"

@[reducible] def spacedJson : SnapshotJson where
  toVec snapshot := [Fin.ofNat 256 snapshot.nextWinId]
  fromSlice := spacedFromSlice

instance skipsBlanks_spacedJson : @SkipsBlanks spacedJson := by
  refine @SkipsBlanks.mk spacedJson fun {bytes b s} hb => ?_
  change spacedFromSlice _ = _ ↔ spacedFromSlice _ = _
  cases bytes with
  | nil => simp [spacedFromSlice, hb]
  | cons _ blanks => simp [spacedFromSlice, hb]

/-- A text with more blanks behind it than a snapshot may have bytes. -/
def oversized (text : Bytes) : Bytes := text ++ replicate (maxSnapshotBytes + 1) 32

theorem lt_length_oversized (text : Bytes) : maxSnapshotBytes < (oversized text).length := by
  rw [oversized, length_append, length_replicate]
  omega

theorem fromJson_oversized [SnapshotJson] [SkipsBlanks] {text : Bytes} {s : SessionSnapshotV1}
    (h : text.length ≤ maxSnapshotBytes + 1) :
    SessionSnapshotV1.fromJson ((oversized text).take (maxSnapshotBytes + 1)) = .ok s ↔
      SessionSnapshotV1.fromJson text = .ok s := by
  rw [oversized, take_append, take_of_length_le h, take_replicate]
  refine fromJson_blanks fun b hb => ?_
  rw [eq_of_mem_replicate hb]
  rfl

/-- A snapshot with more blanks behind it than the limit allows is recovered. -/
theorem startup_padded : ∃ (_ : SnapshotJson) (_ : SkipsBlanks) (file : Bytes),
    maxSnapshotBytes < file.length ∧
      startup ⟨some file, none⟩ = .ok (recovered (watermark 1)) := by
  let _ := spacedJson
  refine ⟨spacedJson, inferInstance, oversized [1], lt_length_oversized _, ?_⟩
  rw [startup_eq_recovered rfl, fromJson_oversized (by decide)]
  decide +kernel

/-- Two snapshots with blanks behind them are no snapshot. -/
theorem startup_spec_spacedJson : ∃ (_ : SnapshotJson) (file : Bytes),
    maxSnapshotBytes < file.length ∧ (∀ s, startup ⟨some file, none⟩ ≠ .ok (recovered s)) ∧
      startup ⟨some [1, 32], none⟩ = .ok (ofJson [1, 32]) := by
  let _ := spacedJson
  refine ⟨spacedJson, oversized [1, 1], lt_length_oversized _,
    ((startup_spec _ none).1 (lt_length_oversized _)).2 ?_,
    (startup_spec [1, 32] none).2 (by decide)⟩
  rw [padded_iff]
  rintro ⟨s, hs⟩
  rw [fromJson_oversized (by decide)] at hs
  cases hs

end SnapshotLoad

end Realm

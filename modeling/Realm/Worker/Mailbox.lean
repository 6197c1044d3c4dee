import Mathlib.Logic.Relation
import Mathlib.Algebra.GroupWithZero.Nat
import Mathlib.Data.List.Basic

/-!
# The mailbox of the module sampler

The sampler thread stores a snapshot under a mutex, gives the mutex back and then writes to
an eventfd.  The event loop drains the eventfd and takes the snapshot while it holds the
mutex, or returns at once if it does not get it.
-/

namespace Realm

/-- Where the sampler thread is in `publish`. -/
inductive Publishing (α : Type) where
  | idle
  | locking (snapshot : α)
  | holding (snapshot : α)
  | stored
  | unlocked

/-- Where the event loop is in `try_take_latest`. -/
inductive Taking where
  | idle
  | holding
  | drained
  | taken

/-- The mailbox and its two threads, with what was stored and what was taken so far. -/
structure SamplerMailbox (α : Type) where
  slot : Option α
  eventFd : ℕ
  producer : Publishing α
  consumer : Taking
  published : List α
  returned : List α

namespace SamplerMailbox

variable {α : Type}

def new : SamplerMailbox α := ⟨none, 0, .idle, .idle, [], []⟩

def maxCount : ℕ := 2 ^ 64 - 2

/-- A write of one; at the largest count it would block. -/
def writeEventFd (count : ℕ) : ℕ := if count = maxCount then count else count + 1

/-- The sampler thread holds the mutex. -/
def Guarded (s : SamplerMailbox α) : Prop :=
  s.producer = .stored ∨ ∃ snapshot, s.producer = .holding snapshot

/-- One step of one of the threads. -/
inductive Step (s : SamplerMailbox α) : SamplerMailbox α → Prop where
  | publish (h : s.producer = .idle) (snapshot : α) :
      Step s { s with producer := .locking snapshot }
  | lock {snapshot : α} (h : s.producer = .locking snapshot) (hfree : s.consumer = .idle) :
      Step s { s with producer := .holding snapshot }
  | store {snapshot : α} (h : s.producer = .holding snapshot) :
      Step s { s with
        slot := some snapshot
        published := s.published ++ [snapshot]
        producer := .stored }
  | unlock (h : s.producer = .stored) : Step s { s with producer := .unlocked }
  | notify (h : s.producer = .unlocked) :
      Step s { s with eventFd := writeEventFd s.eventFd, producer := .idle }
  | tryLock (h : s.consumer = .idle) (hfree : ¬ s.Guarded) : Step s { s with consumer := .holding }
  | wouldBlock (h : s.consumer = .idle) (hheld : s.Guarded) : Step s s
  | drain (h : s.consumer = .holding) : Step s { s with eventFd := 0, consumer := .drained }
  | take (h : s.consumer = .drained) :
      Step s { s with
        slot := none
        returned := s.returned ++ s.slot.toList
        consumer := .taken }
  | release (h : s.consumer = .taken) : Step s { s with consumer := .idle }

abbrev Reachable : SamplerMailbox α → Prop := Relation.ReflTransGen Step new

/-- What every step keeps. -/
structure Kept (s : SamplerMailbox α) : Prop where
  exclusive : s.consumer ≠ .idle → ¬ s.Guarded
  readable : s.slot ≠ none → s.producer ≠ .stored → s.producer ≠ .unlocked →
    0 < s.eventFd ∨ s.consumer = .drained
  newest : ∀ snapshot ∈ s.slot, s.published.getLast? = some snapshot
  once : (s.returned ++ s.slot.toList).Sublist s.published

variable {s s' : SamplerMailbox α}

theorem writeEventFd_pos (count : ℕ) : 0 < writeEventFd count := by
  unfold writeEventFd
  split
  · rename_i h
    rw [h]
    decide
  · omega

theorem Kept.step (h : s.Kept) (hstep : s.Step s') : s'.Kept := by
  have hfree : s.Guarded → s.consumer = .idle := fun hg => by
    by_contra hne
    exact h.exclusive hne hg
  cases hstep with
  | publish hp => exact ⟨fun _ => by simp [Guarded], fun hs _ _ => h.readable hs (by simp [hp])
      (by simp [hp]), h.newest, h.once⟩
  | lock hp hc => exact ⟨absurd hc, fun hs _ _ => h.readable hs (by simp [hp]) (by simp [hp]),
      h.newest, h.once⟩
  | @store snapshot hp =>
    refine ⟨absurd (hfree (.inr ⟨snapshot, hp⟩)), fun _ hne => absurd rfl hne, by simp, ?_⟩
    exact ((List.sublist_append_left ..).trans h.once).append_right _
  | unlock hp => exact ⟨fun _ => by simp [Guarded], fun _ _ hne => absurd rfl hne, h.newest, h.once⟩
  | notify => exact ⟨fun _ => by simp [Guarded], fun _ _ _ => .inl (writeEventFd_pos _), h.newest,
      h.once⟩
  | tryLock hc hg =>
    refine ⟨fun _ => hg, fun hs h₁ h₂ => ?_, h.newest, h.once⟩
    exact .inl ((h.readable hs h₁ h₂).resolve_right (by simp [hc]))
  | wouldBlock => exact h
  | drain hc => exact ⟨fun _ => h.exclusive (by simp [hc]), fun _ _ _ => .inr rfl, h.newest, h.once⟩
  | take hc =>
    refine ⟨fun _ => h.exclusive (by simp [hc]), fun hs => absurd rfl hs, by simp, ?_⟩
    simpa using h.once
  | release hc =>
    refine ⟨absurd rfl, fun hs h₁ h₂ => ?_, h.newest, h.once⟩
    exact .inl ((h.readable hs h₁ h₂).resolve_right (by simp [hc]))

theorem Reachable.kept (h : s.Reachable) : s.Kept := by
  induction h with
  | refl => exact ⟨absurd rfl, fun hs => absurd rfl hs, by simp [new], .slnil⟩
  | tail _ hstep ih => exact ih.step hstep

/-- Between calls of `publish` a snapshot in the mailbox is the newest one, and the eventfd is
readable or the event loop has drained it and is about to take the snapshot.  What is taken was
published, in order and each time once. -/
theorem slot_not_stranded (h : s.Reachable) :
    (s.producer = .idle → s.slot ≠ none → 0 < s.eventFd ∨ s.consumer = .drained ∧
      ∀ s', s.Step s' → s'.consumer = .drained ∧ s'.slot = s.slot ∨
        s'.returned = s.returned ++ s.slot.toList) ∧
    (∀ snapshot ∈ s.slot, s.published.getLast? = some snapshot) ∧
    (s.returned ++ s.slot.toList).Sublist s.published := by
  have hkept := h.kept
  refine ⟨fun hidle hs => ?_, hkept.newest, hkept.once⟩
  refine (hkept.readable hs (by simp [hidle]) (by simp [hidle])).imp_right fun hc => ⟨hc, ?_⟩
  rintro s' hstep
  cases hstep with
  | publish => exact .inl ⟨hc, rfl⟩
  | take => exact .inr rfl
  | _ => simp_all

theorem Reachable.publish {slot : Option α} {count : ℕ} {published returned : List α}
    (h : Reachable ⟨slot, count, .idle, .idle, published, returned⟩) (snapshot : α) : Reachable
      ⟨some snapshot, writeEventFd count, .idle, .idle, published ++ [snapshot], returned⟩ := by
  have hlocking := h.tail (.publish rfl snapshot)
  have hholding := hlocking.tail (.lock rfl rfl)
  have hstored := hholding.tail (.store rfl)
  have hunlocked := hstored.tail (.unlock rfl)
  exact hunlocked.tail (.notify rfl)

/-- Two snapshots are published before the event loop wakes up. -/
theorem slot_not_stranded_stored : ∃ s : SamplerMailbox Bool, s.published = [false, true] ∧
    s.slot = some true ∧ 0 < s.eventFd ∧ s.published.getLast? = some true := by
  have hempty : Reachable (new : SamplerMailbox Bool) := .refl
  have hstored := (hempty.publish false).publish true
  obtain ⟨hreadable, hnewest, -⟩ := slot_not_stranded hstored
  have hpositive := (hreadable rfl nofun).resolve_right fun h => nomatch h.1
  exact ⟨⟨some true, _, .idle, .idle, [false, true], []⟩, rfl, rfl, hpositive, hnewest true rfl⟩

/-- The event loop has drained the eventfd and not yet taken the snapshot. -/
theorem slot_drained : ∃ s : SamplerMailbox Unit, s.Reachable ∧ s.producer = .idle ∧
    s.slot ≠ none ∧ s.eventFd = 0 := by
  have hempty : Reachable (new : SamplerMailbox Unit) := .refl
  have hlocked := (hempty.publish ()).tail (.tryLock rfl (by simp [Guarded]))
  exact ⟨_, hlocked.tail (.drain rfl), rfl, by simp, rfl⟩

end SamplerMailbox

end Realm

import Realm.Theme.Journal

/-!
# What the inspection of a store finds

`Pending` lists the answers of the inspection from which recovery settles on a
generation, `Unpointed` those from which it finds none, each with what the root holds.
-/

namespace Realm.Theme

open Text JournalKind Guard List Option Store

variable {s : Store} {journals : List PointerJournalEntry} {entry : PointerJournalEntry}
  {c g : GenerationId} {f : File}

theorem readOptionalRegularBytes_eq_ok {files : Map Bytes File} {name : Bytes}
    {bytes : Option Bytes} : readOptionalRegularBytes files name = .ok bytes ↔
      files.lookup name = none ∧ bytes = none ∨
      ∃ file, files.lookup name = some file ∧ file.fileType = .regularFile ∧
        bytes = some file.bytes := by
  rw [readOptionalRegularBytes]
  cases files.lookup name with
  | none => simp [eq_comm]
  | some =>
    simp only [map_eq_ok, readRegular_eq_ok, reduceCtorEq, false_and, false_or,
      some.injEq, exists_eq_left']
    constructor
    · rintro ⟨_, ⟨hregular, rfl⟩, rfl⟩
      exact ⟨hregular, rfl⟩
    · rintro ⟨hregular, rfl⟩
      exact ⟨_, ⟨hregular, rfl⟩, rfl⟩

theorem readCurrent_eq_none : s.readCurrent = .ok none ↔ s.root.lookup currentName = none := by
  simp only [readCurrent, bind_eq_ok, readOptionalRegularBytes_eq_ok]
  constructor
  · rintro ⟨bytes, ⟨hnone, _⟩ | ⟨file, _, _, rfl⟩, h⟩
    · exact hnone
    · obtain ⟨g, _, hg⟩ := map_eq_ok.mp h
      cases hg
  · intro hnone
    exact ⟨none, .inl ⟨hnone, rfl⟩, rfl⟩

theorem readCurrent_eq_some : s.readCurrent = .ok (some c) ↔ Names s.root c := by
  simp only [readCurrent, bind_eq_ok, readOptionalRegularBytes_eq_ok]
  constructor
  · rintro ⟨bytes, ⟨_, rfl⟩ | ⟨file, hfile, hregular, rfl⟩, h⟩
    · cases h
    · obtain ⟨g, hparse, hg⟩ := map_eq_ok.mp h
      cases hg
      exact ⟨file, hfile, hregular, parsePointerRecord_eq_ok.mp hparse⟩
  · rintro ⟨file, hfile, hpoints⟩
    refine ⟨some file.bytes, .inr ⟨file, hfile, hpoints.regular, rfl⟩, ?_⟩
    exact map_eq_ok.mpr ⟨c, parsePointerRecord_eq_ok.mpr hpoints.bytes, rfl⟩

theorem Names.unique {root : Map Bytes File} {g' : GenerationId} (h : Names root g)
    (h' : Names root g') : g = g' := by
  obtain ⟨file, hfile, hpoints⟩ := h
  obtain ⟨file', hfile', hpoints'⟩ := h'
  rw [hfile, some_inj] at hfile'
  subst hfile'
  exact pointerRecord_injective (hpoints.bytes.symm.trans hpoints'.bytes)

theorem journalContent_current {record : Bytes} {content : Option GenerationId} :
    journalContent .current record = .ok content ↔
      ∃ g, content = some g ∧ record = g.pointerRecord := by
  simp only [journalContent, map_eq_ok, parsePointerRecord_eq_ok]
  constructor
  · rintro ⟨g, hrecord, rfl⟩
    exact ⟨g, rfl, hrecord⟩
  · rintro ⟨g, rfl, hrecord⟩
    exact ⟨g, hrecord, rfl⟩

theorem journalKind_eq_none_of (h : s.readJournals = .ok journals) {n : Bytes}
    (hlookup : s.root.lookup n = some f)
    (hother : ∀ entry ∈ journals, n ≠ entry.kind.name entry.suffix) : journalKind n = none := by
  cases hkind : journalKind n with
  | none => rfl
  | some =>
    obtain ⟨entry, he, rfl, hn⟩ := entry_of_readJournals h hlookup hkind
    exact absurd hn (hother entry he)

theorem mem_rows {current absent committed : List PointerJournalEntry}
    (hcurrent : journals.filter (·.kind = .current) = current)
    (habsent : journals.filter (·.kind = .absent) = absent)
    (hcommitted : journals.filter (·.kind = .committed) = committed) (he : entry ∈ journals) :
    entry ∈ current ++ (absent ++ committed) := by
  rw [← hcurrent, ← habsent, ← hcommitted]
  simp only [mem_append, mem_filter, he, true_and, decide_eq_true_eq]
  cases entry.kind <;> simp

theorem of_mem_row {kind : JournalKind} {row : List PointerJournalEntry}
    (hrow : journals.filter (·.kind = kind) = row) (he : entry ∈ row) :
    entry ∈ journals ∧ entry.kind = kind := by
  rw [← hrow, mem_filter, decide_eq_true_eq] at he
  exact he

theorem lone_of_row (h : s.readJournals = .ok journals) (he : entry ∈ journals)
    (honly : ∀ entry' ∈ journals, entry' = entry) :
    ∃ f, Lone s.root entry.kind entry.suffix f ∧ f.fileType = .regularFile ∧
      journalContent entry.kind f.bytes = .ok entry.content ∧
      entry.name = entry.kind.name entry.suffix := by
  obtain ⟨f, hlookup, hregular, hcontent, hname⟩ := file_of_readJournals h he
  refine ⟨f, ⟨hlookup, fun n f' hlookup' hne => ?_⟩, hregular, hcontent, hname⟩
  apply journalKind_eq_none_of h hlookup'
  intro entry' he'
  rw [honly entry' he']
  exact hne

theorem readJournals_of_points (h : Lone s.root .current g f) (hf : f.PointsTo c) :
    s.readJournals = .ok [⟨.current, current.name g, g, some c⟩] := by
  rw [readJournals_of_lone h, readJournal_eq_ok.mpr ⟨hf.regular, some c,
    journalContent_current.mpr ⟨c, rfl, hf.bytes⟩, rfl⟩]
  rfl

variable [Sha256] {inventory : PointerJournalInventory}

/-- The tree of a generation passes validation. -/
def Store.Sound (s : Store) (g : GenerationId) : Prop := s.validateGeneration g = .ok ()

/-- The states of a store from which recovery settles on a generation, with what the
inspection answers in each. -/
inductive Pending (s : Store) : PointerJournalInventory → GenerationId → Prop where
  | clean {c : GenerationId} (quiet : Quiet s.root) (names : Names s.root c) (sound : s.Sound c) :
      Pending s ⟨some c, .clean⟩ c
  | discard {c g : GenerationId} {f : File} (lone : Lone s.root .current g f)
      (points : f.PointsTo g) (names : Names s.root c) (ne : c ≠ g) (sound : s.Sound c)
      (sound' : s.Sound g) :
      Pending s ⟨some c, .discardCurrent (current.name g)⟩ c
  | rollback {c g : GenerationId} {f : File} (lone : Lone s.root .current g f)
      (points : f.PointsTo c) (names : Names s.root g) (ne : c ≠ g) (sound : s.Sound c)
      (sound' : s.Sound g) :
      Pending s ⟨some g, .rollbackCurrent (current.name g)⟩ c
  | committed {c : GenerationId} {f : File} {previous : Option GenerationId}
      (lone : Lone s.root .committed c f) (regular : f.fileType = .regularFile)
      (content : journalContent .committed f.bytes = .ok previous) (ne : previous ≠ some c)
      (sound' : ∀ p ∈ previous, s.Sound p) (names : Names s.root c) (sound : s.Sound c) :
      Pending s ⟨some c, .cleanupCommitted (committed.name c) previous⟩ c

/-- The states of a store that never had a pointer, or only one whose first change did
not finish, with what the inspection answers in each. -/
inductive Unpointed (s : Store) : PointerJournalInventory → Prop where
  | cleanAbsent (quiet : Quiet s.root) (absent : s.root.lookup currentName = none) :
      Unpointed s ⟨none, .clean⟩
  | discardAbsent {g : GenerationId} {f : File} (lone : Lone s.root .current g f)
      (points : f.PointsTo g) (absent : s.root.lookup currentName = none) (sound : s.Sound g) :
      Unpointed s ⟨none, .discardCurrent (JournalKind.current.name g)⟩
  | rollbackAbsent {g : GenerationId} {f : File} (lone : Lone s.root .absent g f)
      (names : Names s.root g) (sound : s.Sound g) :
      Unpointed s ⟨some g, .rollbackAbsent (JournalKind.absent.name g)⟩
  | discardPristine {g : GenerationId} {f f' : File}
      (journal : s.root.lookup (JournalKind.current.name g) = some f) (points : f.PointsTo g)
      (marker : s.root.lookup (JournalKind.absent.name g) = some f')
      (only : ∀ n f, s.root.lookup n = some f → n ≠ JournalKind.current.name g →
        n ≠ JournalKind.absent.name g → journalKind n = none)
      (absent : s.root.lookup currentName = none) (sound : s.Sound g) :
      Unpointed s ⟨none,
        .discardPristine (JournalKind.current.name g) (JournalKind.absent.name g)⟩

/-! ## From the root to the answer -/

theorem inspectPointerJournals_of {state : PointerJournalState}
    (hjournals : s.readJournals = .ok journals) (hnames : Names s.root c) (hsound : s.Sound c)
    (hstate : s.classifyJournals (some c) journals = .ok state) :
    s.inspectPointerJournals = .ok ⟨some c, state⟩ := by
  have hvalid : s.validateGeneration c = .ok () := hsound
  simp only [inspectPointerJournals, hjournals, readCurrent_eq_some.mpr hnames, whenSome,
    hvalid, hstate, bind, Except.bind, pure, Except.pure]

theorem Pending.inspect (h : Pending s inventory c) : s.inspectPointerJournals = .ok inventory := by
  cases h with
  | clean quiet names sound =>
    exact inspectPointerJournals_of (readJournals_of_quiet quiet) names sound rfl
  | @discard _ g f lone points names ne sound sound' =>
    have hjournals := readJournals_of_points lone points
    have hvalid : s.validateGeneration g = .ok () := sound'
    refine inspectPointerJournals_of hjournals names sound ?_
    simp [classifyJournals, ne, hvalid, bind, Except.bind, pure, Except.pure]
  | @rollback _ g f lone points names ne sound sound' =>
    have hjournals := readJournals_of_points lone points
    have hvalid : s.validateGeneration c = .ok () := sound
    refine inspectPointerJournals_of hjournals names sound' ?_
    simp [classifyJournals, ne, okOr, hvalid, bind, Except.bind, pure, Except.pure]
  | @committed _ f previous lone regular content ne sound' names sound =>
    have hread : readJournal .committed (JournalKind.committed.name c) f =
        .ok ⟨.committed, JournalKind.committed.name c, c, previous⟩ :=
      readJournal_eq_ok.mpr ⟨regular, previous, content, rfl⟩
    have hjournals := readJournals_of_lone lone
    rw [hread] at hjournals
    have hvalid : s.validateGeneration c = .ok () := sound
    have hprevious : whenSome previous s.validateGeneration = .ok () := by
      cases previous with
      | none => rfl
      | some p => exact sound' p rfl
    refine inspectPointerJournals_of hjournals names sound ?_
    simp [classifyJournals, ne, hvalid, hprevious, bind, Except.bind, pure, Except.pure]

/-! ## From the answer to the root -/

theorem inventory_of_inspect (h : s.inspectPointerJournals = .ok inventory) :
    (∃ c, Pending s inventory c) ∨ Unpointed s inventory := by
  simp only [inspectPointerJournals, bind_eq_ok, pure_eq_ok] at h
  obtain ⟨journals, hjournals, current, hcurrent, _, hvalid, state, hstate, rfl⟩ := h
  have hsound : ∀ c ∈ current, s.Sound c := by
    rintro c rfl
    exact hvalid
  rw [classifyJournals] at hstate
  split at hstate
  · -- no journal
    rename_i hrow hrow' hrow''
    cases hstate
    have hquiet : Quiet s.root := fun n f hlookup =>
      journalKind_eq_none_of hjournals hlookup fun entry he =>
        absurd (mem_rows hrow hrow' hrow'' he) not_mem_nil
    cases current with
    | none => exact .inr (.cleanAbsent hquiet (readCurrent_eq_none.mp hcurrent))
    | some c =>
      exact .inl ⟨c, .clean hquiet (readCurrent_eq_some.mp hcurrent) (hsound c rfl)⟩
  · -- a staged or replaced pointer
    rename_i journal hrow hrow' hrow''
    obtain ⟨he, hkind⟩ := of_mem_row hrow (mem_singleton_self _)
    obtain ⟨f, hlone, hregular, hcontent, hname⟩ := lone_of_row hjournals he fun entry' he' =>
      mem_singleton.mp (mem_rows hrow hrow' hrow'' he')
    rw [hkind] at hlone hcontent hname
    obtain ⟨staged, hstaged, hbytes⟩ := journalContent_current.mp hcontent
    have hpoints : f.PointsTo staged := ⟨hregular, hbytes⟩
    rw [hname, hstaged] at hstate
    split at hstate
    · rename_i hne heq
      simp only [decide_eq_false_iff_not, decide_eq_true_eq, some.injEq] at hne heq
      subst heq
      simp only [bind_eq_ok, pure_eq_ok] at hstate
      obtain ⟨_, hvalid', rfl⟩ := hstate
      cases current with
      | none =>
        exact .inr (.discardAbsent hlone hpoints (readCurrent_eq_none.mp hcurrent) hvalid')
      | some c =>
        exact .inl ⟨c, .discard hlone hpoints (readCurrent_eq_some.mp hcurrent)
          (fun heq => hne (congrArg some heq)) (hsound c rfl) hvalid'⟩
    · rename_i heq hne
      simp only [decide_eq_false_iff_not, decide_eq_true_eq, some.injEq] at hne heq
      subst heq
      simp only [okOr, bind_eq_ok, pure_eq_ok, Except.ok.injEq, exists_eq_left'] at hstate
      obtain ⟨_, hvalid', rfl⟩ := hstate
      exact .inl ⟨_, .rollback hlone hpoints (readCurrent_eq_some.mp hcurrent) hne hvalid'
        (hsound _ rfl)⟩
    · cases hstate
  · -- a marker of an absent pointer
    rename_i journal hrow hrow' hrow''
    obtain ⟨he, hkind⟩ := of_mem_row hrow' (mem_singleton_self _)
    obtain ⟨f, hlone, _, _, hname⟩ := lone_of_row hjournals he fun entry' he' =>
      mem_singleton.mp (mem_rows hrow hrow' hrow'' he')
    rw [hkind] at hlone hname
    simp only [bind_eq_ok, pure_eq_ok, check_eq_ok, decide_eq_true_eq] at hstate
    obtain ⟨_, rfl, _, hvalid', rfl⟩ := hstate
    rw [hname]
    exact .inr (.rollbackAbsent hlone (readCurrent_eq_some.mp hcurrent) hvalid')
  · -- a staged pointer with the marker of an absent one
    rename_i journal marker hrow hrow' hrow''
    obtain ⟨he, hkind⟩ := of_mem_row hrow (mem_singleton_self _)
    obtain ⟨he', hkind'⟩ := of_mem_row hrow' (mem_singleton_self _)
    obtain ⟨f, hlookup, hregular, hcontent, hname⟩ := file_of_readJournals hjournals he
    obtain ⟨f', hlookup', _, _, hname'⟩ := file_of_readJournals hjournals he'
    rw [hkind] at hlookup hcontent hname
    rw [hkind'] at hlookup' hname'
    simp only [bind_eq_ok, pure_eq_ok, check_eq_ok, decide_eq_true_eq] at hstate
    obtain ⟨_, ⟨rfl, hsuffix, hstaged⟩, _, hvalid', rfl⟩ := hstate
    rw [hstaged] at hcontent
    obtain ⟨staged, hsome, hbytes⟩ := journalContent_current.mp hcontent
    cases hsome
    rw [hname, hname', ← hsuffix]
    rw [← hsuffix] at hlookup'
    refine .inr (.discardPristine hlookup ⟨hregular, hbytes⟩ hlookup' ?_
      (readCurrent_eq_none.mp hcurrent) hvalid')
    intro n f'' hlookup'' hne hne'
    apply journalKind_eq_none_of hjournals hlookup''
    intro entry hentry
    rcases mem_pair.mp (mem_rows hrow hrow' hrow'' hentry) with rfl | rfl
    · rwa [hkind]
    · rwa [hkind', ← hsuffix]
  · -- the mark of a finished change
    rename_i journal hrow hrow' hrow''
    obtain ⟨he, hkind⟩ := of_mem_row hrow'' (mem_singleton_self _)
    obtain ⟨f, hlone, hregular, hcontent, hname⟩ := lone_of_row hjournals he fun entry' he' =>
      mem_singleton.mp (mem_rows hrow hrow' hrow'' he')
    rw [hkind] at hlone hcontent hname
    simp only [bind_eq_ok, pure_eq_ok, check_eq_ok, decide_eq_true_eq] at hstate
    obtain ⟨_, ⟨rfl, hne⟩, _, hvalid', _, hprevious, rfl⟩ := hstate
    rw [hname]
    refine .inl ⟨_, .committed hlone hregular hcontent hne ?_ (readCurrent_eq_some.mp hcurrent)
      hvalid'⟩
    intro p hp
    rw [mem_def.mp hp] at hprevious
    exact hprevious
  · cases hstate

end Realm.Theme

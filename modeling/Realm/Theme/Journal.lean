import Realm.Theme.Operations

/-!
# The inventory of pointer journals

What the inspection of the journals answers, in terms of what lies in the root.  A
root is quiet when it holds no journal and holds a lone journal when it holds exactly
one; every state in which the store can recover a generation is one of these.
-/

namespace Realm.Theme

open Text Guard List Option GenerationId

variable {n : Bytes} {kind : JournalKind} {g : GenerationId} {s : Store} {f file : File}
  {entry : PointerJournalEntry} {journals : List PointerJournalEntry}

/-! ## Names -/

theorem journalKind_name (kind : JournalKind) (g : GenerationId) :
    journalKind (kind.name g) = some kind := by
  have hkinds : ∀ kind kind' : JournalKind,
      kind.start.take 4 = kind'.start.take 4 → kind = kind' := by
    rintro (_ | _ | _) (_ | _ | _) <;> decide +kernel
  have hlong : ∀ kind : JournalKind, 4 ≤ kind.start.length := by
    rintro (_ | _ | _) <;> decide +kernel
  have hstart : ∀ kind' : JournalKind, kind'.start <+: kind.name g ↔ kind' = kind := by
    intro kind'
    constructor
    · rintro ⟨rest, hrest⟩
      apply hkinds
      have htake := congrArg (take 4) hrest
      rwa [JournalKind.name, take_append_of_le_length (hlong kind'),
        take_append_of_le_length (hlong kind)] at htake
    · rintro rfl
      exact prefix_append _ _
  have hcurrent := hstart .current
  have habsent := hstart .absent
  have hcommitted := hstart .committed
  simp only [JournalKind.start] at hcurrent habsent hcommitted
  simp only [journalKind, hcurrent, habsent, hcommitted]
  cases kind with
  | current | absent | committed => rfl

theorem start_prefix_of_journalKind (h : journalKind n = some kind) : kind.start <+: n := by
  rw [journalKind] at h
  split_ifs at h with hcurrent habsent hcommitted
  · cases h
    exact hcurrent
  · cases h
    exact habsent
  · cases h
    exact hcommitted

theorem eq_name_of_parse (hkind : journalKind n = some kind)
    (hparse : GenerationId.parse (n.drop kind.start.length) = .ok g) : n = kind.name g := by
  obtain ⟨rest, rfl⟩ := start_prefix_of_journalKind hkind
  rw [drop_left, parse_eq_ok] at hparse
  rw [JournalKind.name, hparse]

@[simp] theorem name_inj {kind' : JournalKind} {g' : GenerationId} :
    kind.name g = kind'.name g' ↔ kind = kind' ∧ g = g' := by
  constructor
  · intro h
    have hkind : some kind = some kind' := by
      rw [← journalKind_name kind g, h, journalKind_name]
    cases hkind
    exact ⟨rfl, text_injective (append_cancel_left h)⟩
  · rintro ⟨rfl, rfl⟩
    rfl

@[simp] theorem journalKind_currentName : journalKind currentName = none := by decide +kernel

@[simp] theorem journalKind_publicationOrderName : journalKind publicationOrderName = none := by
  decide +kernel

@[simp] theorem journalKind_orderStagingName : journalKind orderStagingName = none := by
  decide +kernel

theorem name_ne_of_journalKind (h : journalKind n = none) (kind : JournalKind)
    (g : GenerationId) : kind.name g ≠ n := by
  rintro rfl
  rw [journalKind_name] at h
  cases h

theorem isUtf8_name (kind : JournalKind) (g : GenerationId) : isUtf8 (kind.name g) = true := by
  have hstart : ∀ kind : JournalKind, Printable kind.start := by
    rintro (_ | _ | _) <;> decide +kernel
  exact isUtf8_of_ascii fun b hb => (((hstart kind).append (printable_id g)) b hb).2

/-! ## Journal files -/

def Quiet (root : Map Bytes File) : Prop :=
  ∀ n f, root.lookup n = some f → journalKind n = none

/-- The root holds one journal and no other. -/
structure Lone (root : Map Bytes File) (kind : JournalKind) (g : GenerationId) (file : File) :
    Prop where
  here : root.lookup (kind.name g) = some file
  only : ∀ n f, root.lookup n = some f → n ≠ kind.name g → journalKind n = none

/-- A file that points at a generation. -/
structure File.PointsTo (file : File) (g : GenerationId) : Prop where
  regular : file.fileType = .regularFile
  bytes : file.bytes = g.pointerRecord

def Names (root : Map Bytes File) (g : GenerationId) : Prop :=
  ∃ file, root.lookup currentName = some file ∧ file.PointsTo g

theorem mem_journalFiles :
    (kind, n, f) ∈ s.journalFiles ↔ s.root.lookup n = some f ∧ journalKind n = some kind := by
  simp only [Store.journalFiles, mem_filterMap, map_eq_some_iff, Prod.mk.injEq]
  constructor
  · rintro ⟨entry, hmem, kind', hkind, rfl, rfl, rfl⟩
    exact ⟨Map.mem_entries.mp hmem, hkind⟩
  · rintro ⟨hlookup, hkind⟩
    exact ⟨⟨n, f⟩, Map.mem_entries.mpr hlookup, kind, hkind, rfl, rfl, rfl⟩

theorem nodup_journalFiles (s : Store) : s.journalFiles.Nodup := by
  have hentries : s.root.entries.Nodup := s.root.nodupKeys.nodup
  refine hentries.filterMap ?_
  rintro a a' b hb hb'
  obtain ⟨kind, _, rfl⟩ := mem_map.mp hb
  obtain ⟨kind', _, heq⟩ := mem_map.mp hb'
  obtain ⟨n, f⟩ := a
  obtain ⟨n', f'⟩ := a'
  simp only [Prod.mk.injEq] at heq
  rw [heq.2.1, heq.2.2]

theorem journalFiles_eq_nil : s.journalFiles = [] ↔ Quiet s.root := by
  rw [eq_nil_iff_forall_not_mem]
  constructor
  · intro h n f hlookup
    cases hkind : journalKind n with
    | none => rfl
    | some => exact absurd (mem_journalFiles.mpr ⟨hlookup, hkind⟩) (h _)
  · rintro h ⟨kind, n, f⟩ hmem
    obtain ⟨hlookup, hkind⟩ := mem_journalFiles.mp hmem
    rw [h n f hlookup] at hkind
    cases hkind

theorem journalFiles_eq_singleton :
    s.journalFiles = [(kind, kind.name g, f)] ↔ Lone s.root kind g f := by
  constructor
  · intro h
    have hmem : (kind, kind.name g, f) ∈ s.journalFiles := h ▸ mem_singleton_self _
    refine ⟨(mem_journalFiles.mp hmem).1, fun n f' hlookup hne => ?_⟩
    cases hkind : journalKind n with
    | none => rfl
    | some =>
      have hmem' := mem_journalFiles.mpr ⟨hlookup, hkind⟩
      rw [h, mem_singleton, Prod.mk.injEq, Prod.mk.injEq] at hmem'
      exact absurd hmem'.2.1 hne
  · rintro ⟨here, only⟩
    rw [← perm_singleton, perm_ext_iff_of_nodup (nodup_journalFiles s) (nodup_singleton _)]
    rintro ⟨kind', n, f'⟩
    rw [mem_journalFiles, mem_singleton, Prod.mk.injEq, Prod.mk.injEq]
    constructor
    · rintro ⟨hlookup, hkind⟩
      by_cases hn : n = kind.name g
      · subst hn
        rw [here, some_inj] at hlookup
        rw [journalKind_name, some_inj] at hkind
        exact ⟨hkind.symm, rfl, hlookup.symm⟩
      · rw [only n f' hlookup hn] at hkind
        cases hkind
    · rintro ⟨rfl, rfl, rfl⟩
      exact ⟨here, journalKind_name kind' g⟩

/-! ## Reading a journal -/

theorem readRegular_eq_ok {bytes : Bytes} :
    file.readRegular = .ok bytes ↔ file.fileType = .regularFile ∧ file.bytes = bytes := by
  rw [File.readRegular]
  split_ifs with h
  · simp [h]
  · simp [h]

theorem readJournal_eq_ok : readJournal kind (kind.name g) file = .ok entry ↔
      file.fileType = .regularFile ∧ ∃ content, journalContent kind file.bytes = .ok content ∧
          entry = ⟨kind, kind.name g, g, content⟩ := by
  have hdrop : (kind.name g).drop kind.start.length = g.text := drop_left
  simp only [readJournal, isUtf8_name, check_true, hdrop, parse_text, bind_eq_ok,
    pure_eq_ok, readRegular_eq_ok, Except.ok.injEq, exists_eq_left']
  constructor
  · rintro ⟨_, _, bytes, ⟨hregular, rfl⟩, content, hcontent, rfl⟩
    exact ⟨hregular, content, hcontent, rfl⟩
  · rintro ⟨hregular, content, hcontent, rfl⟩
    exact ⟨(), trivial, _, ⟨hregular, rfl⟩, content, hcontent, rfl⟩

theorem name_of_readJournal (hkind : journalKind n = some kind)
    (h : readJournal kind n file = .ok entry) : n = kind.name entry.suffix := by
  simp only [readJournal, bind_eq_ok, pure_eq_ok] at h
  obtain ⟨_, _, suffix, hsuffix, _, _, _, _, rfl⟩ := h
  exact eq_name_of_parse hkind hsuffix

theorem readJournals_of_quiet (h : Quiet s.root) : s.readJournals = .ok [] := by
  rw [Store.readJournals, journalFiles_eq_nil.mpr h]
  rfl

theorem readJournals_of_lone (h : Lone s.root kind g f) :
    s.readJournals = (readJournal kind (kind.name g) f).map fun entry => [entry] := by
  rw [Store.readJournals, journalFiles_eq_singleton.mpr h]
  cases hread : readJournal kind (kind.name g) f with
  | error => simp [hread, bind, Except.bind, Except.map]
  | ok => simp [hread, bind, Except.bind, Except.map, pure, Except.pure]

theorem file_of_readJournals (h : s.readJournals = .ok journals) (he : entry ∈ journals) :
    ∃ f, s.root.lookup (entry.kind.name entry.suffix) = some f ∧ f.fileType = .regularFile ∧
      journalContent entry.kind f.bytes = .ok entry.content ∧
      entry.name = entry.kind.name entry.suffix := by
  obtain ⟨⟨kind, n, f⟩, hmem, hread⟩ := exists_of_mem_mapM h he
  obtain ⟨hlookup, hkind⟩ := mem_journalFiles.mp hmem
  obtain rfl := name_of_readJournal hkind hread
  obtain ⟨hregular, content, hcontent, hentry⟩ := readJournal_eq_ok.mp hread
  rw [hentry] at hlookup ⊢
  exact ⟨f, hlookup, hregular, hcontent, rfl⟩

theorem entry_of_readJournals (h : s.readJournals = .ok journals)
    (hlookup : s.root.lookup n = some f) (hkind : journalKind n = some kind) :
    ∃ entry ∈ journals, entry.kind = kind ∧ n = kind.name entry.suffix := by
  obtain ⟨entry, he, hread⟩ :=
    exists_mem_of_mapM h (mem_journalFiles.mpr ⟨hlookup, hkind⟩)
  have hn := name_of_readJournal hkind hread
  refine ⟨entry, he, ?_, hn⟩
  simp only [hn] at hread
  obtain ⟨_, content, _, hentry⟩ := readJournal_eq_ok.mp hread
  rw [hentry]

end Realm.Theme

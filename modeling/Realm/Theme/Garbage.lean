import Realm.Lib.Ranking
import Realm.Theme.Collection
import Realm.Theme.Encoding
import Realm.Theme.Interruption

/-!
# What the collection removes

The collection reads the leases, the pointer with its journals, the publication order and
every tree, and acts only if all of them are in order.  What it removes then is neither
pinned by the pointer nor held by a process nor one of the two latest of the rest.
-/

namespace Realm.Theme

open Text Prog Machine Guard List Map AList GenerationId Store SortedMap

variable {g : GenerationId} {n : Bytes} {tree : Tree} {s : Store} {doomed : List GenerationId}

/-! ## Leases -/

section Leases

variable {s : Store} {observed : Bytes → Environment} {scan scan' : LeaseScan} {n : Bytes}
  {survey : LeaseSurvey} {uid : ℕ} {f : File} {names : List Bytes}

/-- The lease is readable, and its holder is known to run or to be gone. -/
def LeaseCertain (s : Store) (observed : Bytes → Environment) (n : Bytes) : Prop :=
  ∃ record, readValidatedLeaseInventoryEntry s n = .ok (.process record) ∧
    record.liveness (observed n) ≠ .uncertain

def Held (s : Store) (observed : Bytes → Environment) (g : GenerationId) : Prop :=
  ∃ n record, readValidatedLeaseInventoryEntry s n = .ok (.process record) ∧
    record.liveness (observed n) = .live ∧ record.generation = g

/-- An entry of the leases that the scan accepts as a lease. -/
structure LeaseEntry (uid : ℕ) (n : Bytes) (f : File) : Prop where
  owned : validateOwnedMode "generation lease inventory entry" f .regularFile 0o600 uid = .ok ()
  size : f.bytes.length ≤ maxLeaseBytes
  utf8 : isUtf8 n = true
  untransferred : ¬ leaseTransferPrefix <+: n
  canonical : (GenerationId.parse n).isOk = true

theorem scanLease_eq_ok : (scanLease uid scan n f = .ok scan' ∧ scan'.hasTransferStage = false) ↔
      LeaseEntry uid n f ∧ scan.hasTransferStage = false ∧
        scan.inventoryEntries + 1 ≤ maxLeaseInventoryEntries ∧
        scan.inventoryBytes + f.bytes.length ≤ maxLeaseInventoryBytes ∧
        scan' = ⟨scan.canonicalNames ++ [n], false, scan.inventoryEntries + 1,
          scan.inventoryBytes + f.bytes.length⟩ := by
  simp only [scanLease, bind_eq_ok, check_eq_ok, decide_eq_true_eq]
  constructor
  · rintro ⟨⟨_, ⟨hentries, hbytes⟩, _, howned, _, hsize, _, hutf8, hscan⟩, hstage⟩
    split_ifs at hscan with htransfer hname
    · cases hscan
      cases hstage
    · cases hscan
      have hstage' : scan.hasTransferStage = false := hstage
      refine ⟨⟨howned, hsize, hutf8, htransfer, hname⟩, hstage', hentries, hbytes, ?_⟩
      rw [hstage']
  · rintro ⟨⟨howned, hsize, hutf8, htransfer, hname⟩, hstage, hentries, hbytes, rfl⟩
    refine ⟨⟨(), ⟨hentries, hbytes⟩, (), howned, (), hsize, (), hutf8, ?_⟩, rfl⟩
    rw [if_neg htransfer, if_pos hname, hstage]
    rfl

theorem hasTransferStage_scanLease (h : scanLease uid scan n f = .ok scan')
    (hstage : scan'.hasTransferStage = false) :
    scan.hasTransferStage = false := (scanLease_eq_ok.mp ⟨h, hstage⟩).2.1

def leaseBytes (entries : List (Σ _ : Bytes, File)) : ℕ :=
  (entries.map fun e => e.2.bytes.length).sum

theorem foldlM_scanLease {entries : List (Σ _ : Bytes, File)}
    (hentries : scan.inventoryEntries ≤ maxLeaseInventoryEntries)
    (hbytes : scan.inventoryBytes ≤ maxLeaseInventoryBytes) :
    (entries.foldlM (fun scan e => scanLease uid scan e.1 e.2) scan = .ok scan' ∧
        scan'.hasTransferStage = false) ↔
      (∀ e ∈ entries, LeaseEntry uid e.1 e.2) ∧ scan.hasTransferStage = false ∧
        scan.inventoryEntries + entries.length ≤ maxLeaseInventoryEntries ∧
        scan.inventoryBytes + leaseBytes entries ≤ maxLeaseInventoryBytes ∧
        scan' = ⟨scan.canonicalNames ++ entries.map Sigma.fst, false,
          scan.inventoryEntries + entries.length, scan.inventoryBytes + leaseBytes entries⟩ := by
  induction entries generalizing scan with
  | nil =>
    simp only [foldlM_nil, pure_eq_ok, leaseBytes, not_mem_nil, map_nil,
      sum_nil, length_nil, append_nil, Nat.add_zero, false_implies, implies_true,
      true_and]
    constructor
    · rintro ⟨rfl, hstage⟩
      refine ⟨hstage, hentries, hbytes, ?_⟩
      rw [← hstage]
    · rintro ⟨hstage, _, _, rfl⟩
      refine ⟨?_, rfl⟩
      rw [← hstage]
  | cons e entries ih =>
    have hlength : scan.inventoryEntries + (e :: entries).length =
        scan.inventoryEntries + 1 + entries.length := by
      rw [length_cons]
      omega
    have hsum : scan.inventoryBytes + leaseBytes (e :: entries) =
        scan.inventoryBytes + e.2.bytes.length + leaseBytes entries := by
      simp only [leaseBytes, map_cons, sum_cons]
      omega
    rw [foldlM_cons, bind_eq_ok, hlength, hsum, forall_mem_cons]
    constructor
    · rintro ⟨⟨scan1, hscan, hrest⟩, hstage⟩
      have hstage1 : scan1.hasTransferStage = false :=
        foldlM_rel (R := fun a b : LeaseScan => b.hasTransferStage = false →
          a.hasTransferStage = false) (fun _ h => h) (fun hab hbc hc => hab (hbc hc))
          (fun hstep => hasTransferStage_scanLease hstep) hrest hstage
      obtain ⟨he, hstage0, hcount, hsize, rfl⟩ := scanLease_eq_ok.mp ⟨hscan, hstage1⟩
      obtain ⟨hall, _, hcount', hsize', rfl⟩ := (ih hcount hsize).mp ⟨hrest, hstage⟩
      refine ⟨⟨he, hall⟩, hstage0, hcount', hsize', ?_⟩
      rw [map_cons, append_assoc, singleton_append]
    · rintro ⟨⟨he, hall⟩, hstage, hcount, hsize, rfl⟩
      obtain ⟨hscan, hstage1⟩ := scanLease_eq_ok.mpr
        ⟨he, hstage, (by omega : _ ≤ maxLeaseInventoryEntries), by omega, rfl⟩
      refine ⟨⟨_, hscan, ?_⟩, rfl⟩
      refine ((ih (by dsimp only; omega) (by dsimp only; omega)).mpr
        ⟨hall, hstage1, hcount, hsize, ?_⟩).1
      rw [map_cons, append_assoc, singleton_append]

/-- All leases can be scanned. -/
structure LeasesInOrder (s : Store) : Prop where
  entry : ∀ n f, s.leases.lookup n = some f → LeaseEntry s.uid n f
  count : s.leases.entries.length ≤ maxLeaseInventoryEntries
  size : leaseBytes s.leases.entries ≤ maxLeaseInventoryBytes

theorem gcLeaseInventoryPreflight_eq_ok {preflight : GcLeaseInventoryPreflight} :
    (gcLeaseInventoryPreflight s = .ok preflight ∧ preflight.hasTransferStage = false) ↔
      LeasesInOrder s ∧ preflight = ⟨s.leases.keys, false⟩ := by
  have hscan : ∀ scan' : LeaseScan,
      (s.leases.entries.foldlM (fun scan e => scanLease s.uid scan e.1 e.2) ⟨[], false, 0, 0⟩ =
        .ok scan' ∧ scan'.hasTransferStage = false) ↔ _ := fun scan' =>
    foldlM_scanLease (Nat.zero_le _) (Nat.zero_le _)
  simp only [Nat.zero_add, nil_append, true_and] at hscan
  rw [gcLeaseInventoryPreflight, bind_eq_ok]
  constructor
  · rintro ⟨⟨scan', hfold, hpreflight⟩, hstage⟩
    cases hpreflight
    obtain ⟨hentries, hcount, hsize, rfl⟩ := (hscan scan').mp ⟨hfold, hstage⟩
    refine ⟨⟨fun n f hf => ?_, hcount, hsize⟩, rfl⟩
    exact hentries ⟨n, f⟩ (mem_entries.mpr hf)
  · rintro ⟨⟨hentries, hcount, hsize⟩, rfl⟩
    refine ⟨⟨_, ((hscan _).mpr ⟨fun e he => ?_, hcount, hsize, rfl⟩).1, rfl⟩, rfl⟩
    exact hentries e.1 e.2 (mem_entries.mp he)

theorem uncertain_surveyLease : (surveyLease s observed survey n).uncertain = false ↔
      survey.uncertain = false ∧ LeaseCertain s observed n := by
  rw [surveyLease, LeaseCertain]
  cases hread : readValidatedLeaseInventoryEntry s n with
  | error => simp
  | ok parsed =>
    cases parsed with
    | process record => cases hlive : record.liveness (observed n) <;> simp [hlive]
    | lifecycle => simp

theorem mem_liveGenerations_surveyLease (h : LeaseCertain s observed n) :
    g ∈ (surveyLease s observed survey n).liveGenerations ↔ g ∈ survey.liveGenerations ∨
        ∃ record, readValidatedLeaseInventoryEntry s n = .ok (.process record) ∧
          record.liveness (observed n) = .live ∧ record.generation = g := by
  obtain ⟨record, hread, hcertain⟩ := h
  rw [surveyLease, hread]
  cases hlive : record.liveness (observed n) with
  | live => simp [hlive, or_comm, eq_comm]
  | stale => simp [hlive]
  | uncertain => exact absurd hlive hcertain

theorem uncertain_foldl_surveyLease :
    (names.foldl (surveyLease s observed) survey).uncertain = false ↔
      survey.uncertain = false ∧ ∀ n ∈ names, LeaseCertain s observed n := by
  induction names generalizing survey with
  | nil => simp
  | cons n names ih =>
    rw [foldl_cons, ih, uncertain_surveyLease, forall_mem_cons, and_assoc]

theorem mem_liveGenerations_foldl (h : ∀ n ∈ names, LeaseCertain s observed n) :
    g ∈ (names.foldl (surveyLease s observed) survey).liveGenerations ↔ g ∈ survey.liveGenerations ∨
        ∃ n ∈ names, ∃ record, readValidatedLeaseInventoryEntry s n = .ok (.process record) ∧
          record.liveness (observed n) = .live ∧ record.generation = g := by
  induction names generalizing survey with
  | nil => simp
  | cons n names ih =>
    obtain ⟨hn, hnames⟩ := forall_mem_cons.mp h
    rw [foldl_cons, ih hnames, mem_liveGenerations_surveyLease hn, exists_mem_cons_iff, or_assoc]

theorem mem_of_read {parsed : ParsedLeaseRecord}
    (h : readValidatedLeaseInventoryEntry s n = .ok parsed) : n ∈ s.leases := by
  simp only [readValidatedLeaseInventoryEntry, bind_eq_ok, okOr_eq_ok] at h
  obtain ⟨f, hf, _⟩ := h
  exact mem_iff_lookup.mpr ⟨f, hf⟩

def leaseSurvey (s : Store) (observed : Bytes → Environment) : LeaseSurvey :=
  s.leases.keys.foldl (surveyLease s observed) ⟨[], [], false⟩

theorem mem_liveGenerations_leaseSurvey (h : ∀ n ∈ s.leases, LeaseCertain s observed n) :
    g ∈ (leaseSurvey s observed).liveGenerations ↔ Held s observed g := by
  rw [leaseSurvey, mem_liveGenerations_foldl fun n hn => h n (mem_keys.mpr hn)]
  constructor
  · rintro (hg | ⟨n, _, record, hread, hlive, hg⟩)
    · exact absurd hg not_mem_nil
    · exact ⟨n, record, hread, hlive, hg⟩
  · rintro ⟨n, record, hread, hlive, hg⟩
    exact .inr ⟨n, mem_keys.mp (mem_of_read hread), record, hread, hlive, hg⟩

end Leases

/-! ## What is to be removed -/

/-- The generation is there, nothing spares it, and it has this place in the order. -/
structure Candidate (s : Store) (spared : List GenerationId) (order : PublicationOrder)
    (g : GenerationId) (sequence : U64) : Prop where
  here : g.text ∈ s.generations
  free : g ∉ spared
  ordered : order.sequences.get g = some sequence

/-- Two candidates were published after the generation, itself a candidate. -/
def Superseded (s : Store) (spared : List GenerationId) (order : PublicationOrder)
    (g : GenerationId) : Prop :=
  ∃ sequence, Candidate s spared order g sequence ∧ ∃ a b, a ≠ b ∧
    (∃ later, Candidate s spared order a later ∧ sequence < later) ∧
    ∃ later, Candidate s spared order b later ∧ sequence < later

section Doomed

variable {s : Store} {live doomed spared : List GenerationId} {order : PublicationOrder}
  {current g : GenerationId} {previous : Option GenerationId}

theorem gcPinned_eq_some {inventory : PointerJournalInventory} {pinned : List GenerationId} :
    gcPinned inventory = some pinned ↔ ∃ current previous, pinned = previous.toList ++ [current] ∧
        (inventory = ⟨some current, .clean⟩ ∧ previous = none ∨
          ∃ journal, inventory = ⟨some current, .cleanupCommitted journal previous⟩) := by
  obtain ⟨current, state⟩ := inventory
  constructor
  · intro h
    rw [gcPinned] at h
    dsimp only at h
    split at h
    · cases h
      exact ⟨_, none, rfl, .inl ⟨rfl, rfl⟩⟩
    · cases h
      exact ⟨_, _, rfl, .inr ⟨_, rfl⟩⟩
    · cases h
  · rintro ⟨c, previous, rfl, ⟨h, rfl⟩ | ⟨journal, h⟩⟩ <;> cases h <;> rfl

theorem validateOptionalControl_eq_false {label : String} :
    validateOptionalControl s label n = .ok false ↔ s.root.lookup n = none := by
  rw [validateOptionalControl]
  cases s.root.lookup n with
  | none => simp
  | some =>
    simp only [bind_eq_ok, pure_eq_ok, reduceCtorEq, iff_false]
    rintro ⟨_, _, h⟩
    cases h

theorem isUtf8_text (g : GenerationId) : isUtf8 g.text = true :=
  isUtf8_of_ascii fun b hb => (printable_id g b hb).2

theorem validatePublicationOrderComplete_eq_ok : s.validatePublicationOrderComplete order = .ok () ↔
      ∀ n tree, s.generations.lookup n = some tree → ∃ g : GenerationId, n = g.text ∧
        tree.lookup [] = some .directory ∧ ∃ sequence, order.sequences.get g = some sequence := by
  rw [validatePublicationOrderComplete, forM_eq_ok]
  constructor
  · intro h n tree htree
    have hentry := h ⟨n, tree⟩ (mem_entries.mpr htree)
    simp only [bind_eq_ok, check_eq_ok, parse_eq_ok, decide_eq_true_eq,
      containsKey, Option.isSome_iff_exists] at hentry
    obtain ⟨_, _, g, hg, _, hdirectory, hsequence⟩ := hentry
    exact ⟨g, hg, hdirectory, hsequence⟩
  · rintro h ⟨n, tree⟩ hmem
    obtain ⟨g, rfl, hdirectory, hsequence⟩ := h n tree (mem_entries.mp hmem)
    simp only [bind_eq_ok, check_eq_ok, parse_eq_ok, decide_eq_true_eq,
      containsKey, Option.isSome_iff_exists]
    exact ⟨(), isUtf8_text g, g, rfl, (), hdirectory, hsequence⟩

/-- The candidates of a store in order, in a list with the latest first. -/
structure Listed (s : Store) (spared : List GenerationId) (order : PublicationOrder)
    (candidates : List (U64 × GenerationId)) : Prop where
  mem : ∀ sequence g, (sequence, g) ∈ candidates ↔ Candidate s spared order g sequence
  sorted : candidates.Pairwise fun a b => b.1 < a.1

/-- The generations to remove: those with two candidates above them. -/
structure Dooms (s : Store) (spared : List GenerationId) (order : PublicationOrder)
    (doomed : List GenerationId) : Prop where
  nodup : doomed.Nodup
  mem : ∀ g, g ∈ doomed ↔ Superseded s spared order g

theorem Listed.dooms {candidates : List (U64 × GenerationId)}
    (h : Listed s spared order candidates) :
    Dooms s spared order ((candidates.drop 2).map (·.2)) := by
  -- a generation has one place in the order
  have hunique : ∀ {x y : U64 × GenerationId}, x ∈ candidates → y ∈ candidates → x.2 = y.2 →
      x = y := by
    rintro ⟨lx, x⟩ ⟨ly, y⟩ hx hy rfl
    have hsame := ((h.mem _ _).mp hx).ordered.symm.trans ((h.mem _ _).mp hy).ordered
    exact Prod.ext (Option.some_inj.mp hsame) rfl
  have hdrop : ∀ {x}, x ∈ candidates.drop 2 → x ∈ candidates := mem_of_mem_drop
  constructor
  · refine List.Nodup.map_on (fun x hx y hy heq => hunique (hdrop hx) (hdrop hy) heq) ?_
    have hnodup : candidates.Nodup := h.sorted.imp (by
      rintro x y hlt rfl
      exact lt_irrefl _ hlt)
    exact (drop_sublist 2 candidates).nodup hnodup
  · intro g
    rw [mem_map]
    constructor
    · rintro ⟨⟨sequence, g⟩, hmem, rfl⟩
      obtain ⟨hg, ⟨la, a⟩, ha, ⟨lb, b⟩, hb, hne, hlta, hltb⟩ :=
        (Ranking.mem_drop_two h.sorted).mp hmem
      refine ⟨sequence, (h.mem _ _).mp hg, a, b, ?_, ⟨la, (h.mem _ _).mp ha, hlta⟩,
        lb, (h.mem _ _).mp hb, hltb⟩
      rintro rfl
      exact hne (hunique ha hb rfl)
    · rintro ⟨sequence, hg, a, b, hne, ⟨la, ha, hlta⟩, lb, hb, hltb⟩
      refine ⟨(sequence, g), (Ranking.mem_drop_two h.sorted).mpr ⟨(h.mem _ _).mpr hg, (la, a),
        (h.mem _ _).mpr ha, (lb, b), (h.mem _ _).mpr hb, ?_, hlta, hltb⟩, rfl⟩
      exact fun heq => hne (congrArg Prod.snd heq)

theorem nodup_of_load (h : s.loadPublicationOrder = .ok order) :
    (order.sequences.entries.map Prod.snd).Nodup := by
  simp only [loadPublicationOrder, bind_eq_ok] at h
  obtain ⟨_, _, _, _, _, _, raw, _, hparse⟩ := h
  exact PublicationOrder.nodup_of_parse hparse

variable [Sha256]

/-- A store on which the collection acts: no pointer change is under way, the publication
order is complete and every tree is valid. -/
structure Orderly (s : Store) (current : GenerationId) (previous : Option GenerationId)
    (order : PublicationOrder) : Prop where
  pointer : s.inspectPointerJournals = .ok ⟨some current, .clean⟩ ∧ previous = none ∨
    ∃ journal, s.inspectPointerJournals = .ok ⟨some current, .cleanupCommitted journal previous⟩
  unstaged : s.root.lookup orderStagingName = none
  loaded : s.loadPublicationOrder = .ok order
  complete : s.validatePublicationOrderComplete order = .ok ()
  sound : ∀ g : GenerationId, g.text ∈ s.generations → s.Sound g

theorem gcEntry_eq_some {entry : Option (U64 × GenerationId)} :
    gcEntry s spared order g.text tree = some entry ↔ tree.lookup [] = some .directory ∧ s.Sound g ∧
        (g ∈ spared ∧ entry = none ∨
          g ∉ spared ∧ ∃ sequence, order.sequences.get g = some sequence ∧
            entry = some (sequence, g)) := by
  have hutf8 := isUtf8_text g
  have hsound : (s.validateGeneration g).isOk = true ↔ s.Sound g := by
    rw [Store.Sound]
    cases s.validateGeneration g with
    | ok | error => simp [Except.isOk, Except.toBool]
  rw [gcEntry, parse_text]
  dsimp only
  by_cases hvalid : tree.lookup [] = some .directory ∧ s.Sound g
  · rw [if_neg (by simp [hutf8, hvalid.1, hsound.mpr hvalid.2])]
    by_cases hspared : g ∈ spared
    · simp [hspared, hvalid.1, hvalid.2, eq_comm]
    · cases hsequence : order.sequences.get g with
      | none => simp [hspared]
      | some => simp [hspared, hvalid.1, hvalid.2, eq_comm]
  · rw [if_pos (by simpa [hutf8, ← hsound, imp_iff_not_or] using hvalid)]
    simp only [reduceCtorEq, false_iff]
    exact fun h => hvalid ⟨h.1, h.2.1⟩

theorem gcEntry_join {sequence : U64}
    (h : (gcEntry s spared order n tree).join = some (sequence, g)) :
    n = g.text ∧ g ∉ spared ∧ order.sequences.get g = some sequence := by
  cases hparse : parse n with
  | error =>
    rw [gcEntry, hparse] at h
    cases h
  | ok =>
    obtain rfl := parse_eq_ok.mp hparse
    obtain ⟨_, _, hentry⟩ := gcEntry_eq_some.mp (Option.join_eq_some_iff.mp h)
    rcases hentry with ⟨_, hentry⟩ | ⟨hfree, _, hsequence, hentry⟩
    · cases hentry
    · cases hentry
      exact ⟨rfl, hfree, hsequence⟩

theorem gcCandidates_of_orderly (h : Orderly s current previous order)
    (spared : List GenerationId) : ∃ candidates, gcCandidates s spared order = some candidates ∧
      Listed s spared order candidates := by
  have hcomplete := validatePublicationOrderComplete_eq_ok.mp h.complete
  have hinjective : ∀ {a b : GenerationId} {sequence : U64},
      order.sequences.get a = some sequence → order.sequences.get b = some sequence → a = b := by
    intro a b sequence ha hb
    have hmap := inj_on_of_nodup_map (nodup_of_load h.loaded)
      (get_eq_some.mp ha) (get_eq_some.mp hb) rfl
    exact congrArg Prod.fst hmap
  have hentry : ∀ e ∈ s.generations.entries, ∃ r, gcEntry s spared order e.1 e.2 = some r := by
    rintro ⟨n, tree⟩ hmem
    have htree := mem_entries.mp hmem
    obtain ⟨g, rfl, hdirectory, sequence, hsequence⟩ := hcomplete n tree htree
    have hsound := h.sound g (mem_iff_lookup.mpr ⟨tree, htree⟩)
    by_cases hspared : g ∈ spared
    · exact ⟨_, gcEntry_eq_some.mpr ⟨hdirectory, hsound, .inl ⟨hspared, rfl⟩⟩⟩
    · exact ⟨_, gcEntry_eq_some.mpr ⟨hdirectory, hsound, .inr ⟨hspared, sequence, hsequence, rfl⟩⟩⟩
  obtain ⟨r, hr⟩ := Ranking.exists_mapM_eq_some.mpr hentry
  refine ⟨(r.filterMap id).mergeSort fun a b => b.1 ≤ a.1, by simp [gcCandidates, hr], ?_, ?_⟩
  · intro sequence g
    rw [mem_mergeSort, Ranking.filterMap_mapM hr, mem_filterMap]
    constructor
    · rintro ⟨⟨n, tree⟩, hmem, hjoin⟩
      have htree := mem_entries.mp hmem
      obtain ⟨rfl, hfree, hsequence⟩ := gcEntry_join hjoin
      exact ⟨mem_iff_lookup.mpr ⟨tree, htree⟩, hfree, hsequence⟩
    · rintro ⟨hhere, hfree, hsequence⟩
      obtain ⟨tree, htree⟩ := mem_iff_lookup.mp hhere
      obtain ⟨g', hg', hdirectory, _⟩ := hcomplete g.text tree htree
      refine ⟨⟨g.text, tree⟩, mem_entries.mpr htree, ?_⟩
      rw [gcEntry_eq_some.mpr ⟨hdirectory, h.sound g hhere, .inr ⟨hfree, sequence, hsequence, rfl⟩⟩]
      rfl
  · have hsorted : ((r.filterMap id).mergeSort fun a b => b.1 ≤ a.1).Pairwise
        fun a b => b.1 ≤ a.1 := by
      refine (pairwise_mergeSort ?_ ?_ _).imp fun hle => of_decide_eq_true hle
      · intro a b c hab hbc
        exact decide_eq_true ((of_decide_eq_true hbc).trans (of_decide_eq_true hab))
      · intro a b
        simpa using le_total b.1 a.1
    have happart : ((r.filterMap id).mergeSort fun a b => b.1 ≤ a.1).Pairwise
        fun a b => a.1 ≠ b.1 := by
      rw [(mergeSort_perm _ _).pairwise_iff fun hne => hne.symm, Ranking.filterMap_mapM hr]
      refine (pairwise_map.mp s.generations.nodupKeys).filterMap _ ?_
      rintro ⟨n, tree⟩ ⟨n', tree'⟩ hne ⟨sequence, g⟩ hg ⟨sequence', g'⟩ hg' rfl
      obtain ⟨rfl, _, hsequence⟩ := gcEntry_join hg
      obtain ⟨rfl, _, hsequence'⟩ := gcEntry_join hg'
      exact hne (congrArg text (hinjective hsequence hsequence'))
    exact (hsorted.and happart).imp fun hab => lt_of_le_of_ne hab.1 hab.2.symm

theorem gcDoomed_of_orderly (h : Orderly s current previous order) (live : List GenerationId) :
    ∃ doomed, gcDoomed s live = some doomed ∧
      Dooms s (previous.toList ++ [current] ++ live) order doomed := by
  obtain ⟨candidates, hcandidates, hlisted⟩ :=
    gcCandidates_of_orderly h (previous.toList ++ [current] ++ live)
  refine ⟨(candidates.drop 2).map (·.2), ?_, hlisted.dooms⟩
  have hpinned : ∃ inventory, s.inspectPointerJournals = .ok inventory ∧
      gcPinned inventory = some (previous.toList ++ [current]) := by
    rcases h.pointer with ⟨hinspect, hprevious⟩ | ⟨journal, hinspect⟩
    · exact ⟨_, hinspect, gcPinned_eq_some.mpr ⟨current, previous, rfl, .inl ⟨rfl, hprevious⟩⟩⟩
    · exact ⟨_, hinspect, gcPinned_eq_some.mpr ⟨current, previous, rfl, .inr ⟨journal, rfl⟩⟩⟩
  obtain ⟨inventory, hinspect, hpinned⟩ := hpinned
  have hstaged : validateOptionalControl s ".publication-order" orderStagingName = .ok false :=
    validateOptionalControl_eq_false.mpr h.unstaged
  simp only [gcDoomed, hinspect, hpinned, hstaged, h.loaded, h.complete, hcandidates,
    Except.toOption, Option.bind_eq_bind, Option.bind_some, Bool.false_eq_true, if_false]
  rfl

theorem orderly_of_gcDoomed (h : gcDoomed s live = some doomed) :
    ∃ current previous order, Orderly s current previous order ∧
      Dooms s (previous.toList ++ [current] ++ live) order doomed := by
  simp only [gcDoomed, Option.bind_eq_bind, Option.bind_eq_some_iff, toOption_eq_some] at h
  obtain ⟨inventory, hinspect, pinned, hpinned, staged, hstaged, hrest⟩ := h
  cases staged with
  | true => cases hrest
  | false =>
    simp only [Bool.false_eq_true, if_false, Option.bind_eq_some_iff, toOption_eq_some] at hrest
    obtain ⟨order, hload, _, hcomplete, candidates, hcandidates, hdoomed⟩ := hrest
    obtain ⟨current, previous, rfl, hpointer⟩ := gcPinned_eq_some.mp hpinned
    have hsound : ∀ g : GenerationId, g.text ∈ s.generations → s.Sound g := by
      intro g hg
      obtain ⟨tree, htree⟩ := mem_iff_lookup.mp hg
      simp only [gcCandidates, Option.bind_eq_bind, Option.bind_eq_some_iff] at hcandidates
      obtain ⟨r, hr, _⟩ := hcandidates
      obtain ⟨entry, hentry⟩ := Ranking.exists_mapM_eq_some.mp ⟨r, hr⟩ ⟨g.text, tree⟩
        (mem_entries.mpr htree)
      exact (gcEntry_eq_some.mp hentry).2.1
    have horderly : Orderly s current previous order := by
      refine ⟨?_, validateOptionalControl_eq_false.mp hstaged, hload, hcomplete, hsound⟩
      rcases hpointer with ⟨rfl, hprevious⟩ | ⟨journal, rfl⟩
      · exact .inl ⟨hinspect, hprevious⟩
      · exact .inr ⟨journal, hinspect⟩
    refine ⟨current, previous, order, horderly, ?_⟩
    obtain ⟨l, hl, hlisted⟩ :=
      gcCandidates_of_orderly horderly (previous.toList ++ [current] ++ live)
    rw [hl] at hcandidates
    cases hcandidates
    cases hdoomed
    exact hlisted.dooms

end Doomed

/-! ## The run -/

section Run

variable {σ α : Type} {M : Machine σ Store Call String} {observed : Bytes → Environment}

theorem exec_leases {names : Bytes → Prop} {c : Call} {s' : Store} (hc : c.Within (.ofLeases names))
    (hexec : Store.exec c s = .ok s') : ∃ leases, s' = { s with leases } := by
  have hmap : ∀ {x : Except String (Map Bytes File)},
      x.map (fun leases => { s with leases }) = .ok s' → ∃ leases, s' = { s with leases } := by
    intro x hx
    obtain ⟨leases, _, rfl⟩ := map_eq_ok.mp hx
    exact ⟨leases, rfl⟩
  cases c with
  | create place | append place | unlink place =>
    cases place with
    | lease => exact hmap hexec
    | _ => exact hc.elim
  | mkdir | rmdir => exact hc.elim
  | rename shelf | exchange shelf =>
    cases shelf with
    | leases => exact hmap hexec
    | _ => exact hc.1.elim
  | syncFile | syncTree | sync => exact ⟨s.leases, (Except.ok.inj hexec).symm⟩

theorem meets_leases (hM : Faithful M) {names : Bytes → Prop} {p : Run α}
    (hp : p.Issues (Call.Within (.ofLeases names))) (t : σ) :
    M.Meets (fun _ t' => ∃ leases, M.view t' = { M.view t with leases })
      (fun t' _ => ∃ leases, M.view t' = { M.view t with leases }) p t := by
  refine (meets_of_issues (J := fun t' => ∃ leases, M.view t' = { M.view t with leases }) hp ?_
    ⟨_, rfl⟩).mono (fun _ _ h => h) fun _ _ h => h.1
  rintro t1 c answer t2 hc ⟨leases, ht1⟩ hstep
  rcases hM t1 c answer t2 hstep with ⟨_, hexec⟩ | ⟨_, hview⟩
  · obtain ⟨leases', ht2⟩ := exec_leases hc hexec
    exact ⟨leases', by rw [ht2, ht1]⟩
  · exact ⟨leases, by rw [hview, ht1]⟩

theorem issues_unlinkStaleLeases (names : List Bytes) :
    (unlinkStaleLeases names).Issues (Call.Within (.ofLeases fun _ => True)) := by
  induction names with
  | nil => trivial
  | cons n names ih =>
    refine (issues_issue (by trivial)).attempt.bind fun answer => ?_
    cases answer with
    | ok => exact (issues_issue trivial).bind fun _ => ih.bind fun _ => trivial
    | error =>
      dsimp only
      split_ifs
      · exact ih
      · trivial

/-- Reading and reclaiming leases changes nothing else, and an answer without doubt rests on
leases that can all be read and judged. -/
theorem meets_reclaimStaleLeasesLocked (hM : Faithful M) (t : σ) : M.Meets
      (fun r t' => (∃ leases, M.view t' = { M.view t with leases }) ∧
        ∀ reclaimed live, r = .ok (reclaimed, live, false) →
          LeasesInOrder (M.view t) ∧ (∀ n ∈ (M.view t).leases, LeaseCertain (M.view t) observed n) ∧
          live = (leaseSurvey (M.view t) observed).liveGenerations)
      (fun t' _ => ∃ leases, M.view t' = { M.view t with leases })
      (reclaimStaleLeasesLocked observed) t := by
  rw [reclaimStaleLeasesLocked, meets_view_bind]
  cases hpreflight : gcLeaseInventoryPreflight (M.view t) with
  | error => exact ⟨⟨_, rfl⟩, nofun⟩
  | ok =>
    dsimp only
    split_ifs with hstage huncertain
    · exact ⟨⟨_, rfl⟩, nofun⟩
    · exact ⟨⟨_, rfl⟩, nofun⟩
    · obtain ⟨hinorder, rfl⟩ := gcLeaseInventoryPreflight_eq_ok.mp
        ⟨hpreflight, Bool.eq_false_iff.mpr hstage⟩
      obtain ⟨_, hcertain⟩ :=
        uncertain_foldl_surveyLease.mp (Bool.eq_false_iff.mpr huncertain)
      rw [meets_bind]
      refine (meets_leases hM (issues_unlinkStaleLeases _) t).post ?_
      rintro (e | reclaimed) t' hleases
      · exact ⟨hleases, nofun⟩
      · refine ⟨hleases, fun _ live heq => ?_⟩
        cases heq
        exact ⟨hinorder, fun n hn => hcertain n (mem_keys.mp hn), rfl⟩

theorem issues_removeGenerations (generations : List GenerationId) :
    (removeGenerations generations).Issues
      (Call.Within (.ofTrees fun n => ∃ g ∈ generations, g.text = n)) := by
  refine issues_forM fun g hg => ?_
  refine ((issues_removeTree g.text).mono fun c hc => hc.mono (Scope.ofTrees_le ?_)).bind
    fun _ => issues_issue trivial
  rintro n rfl
  exact ⟨g, hg, rfl⟩

variable [Sha256]

theorem gcDoomed_leases (s : Store) (leases : Map Bytes File) (live : List GenerationId) :
    gcDoomed { s with leases } live = gcDoomed s live := rfl

/-- All that the collection reads is in order, and these are the generations it is to
remove. -/
structure Plans (s : Store) (observed : Bytes → Environment) (doomed : List GenerationId) :
    Prop where
  leases : LeasesInOrder s
  certain : ∀ n ∈ s.leases, LeaseCertain s observed n
  doomed : gcDoomed s (leaseSurvey s observed).liveGenerations = some doomed

/-- A tree that a collection changed, wherever it ended or was cut short, was to be removed. -/
theorem plans_of_changed (hM : Faithful M) {t t' : σ} {next : Option Call}
    (hleft : M.Leaves (garbageCollect observed) t t' next)
    (hchanged : (M.view t').generations.lookup n ≠ (M.view t).generations.lookup n) :
    ∃ doomed, Plans (M.view t) observed doomed ∧ ∃ g ∈ doomed, g.text = n := by
  let Planned (t' : σ) : Prop :=
    (M.view t').generations.lookup n ≠ (M.view t).generations.lookup n →
      ∃ doomed, Plans (M.view t) observed doomed ∧ ∃ g ∈ doomed, g.text = n
  suffices hmeets : M.Meets (fun _ => Planned) (fun t' _ => Planned t') (garbageCollect observed) t
    from hmeets.leaves hleft hchanged
  have hsame : ∀ {t' : σ}, (∃ leases, M.view t' = { M.view t with leases }) → Planned t' := by
    rintro t' ⟨leases, ht'⟩ hne
    rw [ht'] at hne
    exact absurd rfl hne
  rw [garbageCollect, meets_bind]
  refine (meets_reclaimStaleLeasesLocked hM t).mono ?_ fun _ _ h => hsame h
  rintro (e | ⟨reclaimed, live, uncertain⟩) t1 ⟨hleases, hlive⟩
  · exact hsame hleases
  cases uncertain with
  | true => exact hsame hleases
  | false =>
    obtain ⟨hinorder, hcertain, rfl⟩ := hlive reclaimed live rfl
    rw [then_ok]
    dsimp only
    rw [if_neg Bool.false_ne_true, meets_view_bind]
    cases hdoomed : gcDoomed (M.view t1) (leaseSurvey (M.view t) observed).liveGenerations with
    | none => exact hsame hleases
    | some doomed =>
      obtain ⟨leases, ht1⟩ := hleases
      rw [ht1, gcDoomed_leases] at hdoomed
      have hmem : ∀ {t' : σ}, SameOutside (.ofTrees fun n => ∃ g ∈ doomed, g.text = n)
          (M.view t1) (M.view t') → Planned t' := by
        intro t' hsame' hne
        by_cases hn : ∃ g ∈ doomed, g.text = n
        · exact ⟨doomed, ⟨hinorder, hcertain, hdoomed⟩, hn⟩
        · rw [hsame'.trees n hn, ht1] at hne
          exact absurd rfl hne
      dsimp only
      rw [meets_bind]
      refine (meets_sameOutside hM (issues_removeGenerations doomed) t1).mono ?_
        fun _ _ h => hmem h.1
      rintro (e | u) t2 h <;> exact hmem h

end Run

/-! ## A collection that is not interrupted -/

section Reliable

variable {s : Store} {observed : Bytes → Environment} {doomed : List GenerationId}

theorem meets_unlinkStaleLeases (names : List Bytes)
    (h : ∀ n f, s.leases.lookup n = some f → f.fileType ≠ .directory) :
    machine.Meets (fun r s' => (∃ reclaimed, r = .ok reclaimed) ∧ ∃ leases, s' = { s with leases })
      (fun _ _ => True) (unlinkStaleLeases names) s := by
  suffices hok : machine.Meets (fun r _ => ∃ reclaimed, r = .ok reclaimed) (fun _ _ => True)
      (unlinkStaleLeases names) s from
    (hok.and (meets_leases faithful_machine (issues_unlinkStaleLeases names) s)).mono
      (fun _ _ h => h) fun _ _ _ => trivial
  induction names generalizing s with
  | nil => exact ⟨0, rfl⟩
  | cons n names ih =>
    rw [unlinkStaleLeases, meets_bind, meets_attempt]
    cases hfile : s.leases.lookup n with
    | none =>
      have hexec : exec (.unlink (.lease n)) s = .error Errno.noEntry := by
        simp only [exec, Files.unlink, hfile]
        rfl
      refine (meets_issue_of_error hexec).mpr ⟨trivial, ?_⟩
      rw [then_ok]
      dsimp only
      rw [if_pos rfl]
      exact ih h
    | some f =>
      have hexec : exec (.unlink (.lease n)) s =
          .ok { s with leases := s.leases.erase n } := by
        simp only [exec, Files.unlink, hfile, if_neg (h n f hfile)]
        rfl
      refine (meets_issue_of_ok hexec).mpr ⟨trivial, ?_⟩
      rw [then_ok]
      refine (meets_issue_bind_of_ok (exec_sync _ _)).mpr ⟨trivial, ?_⟩
      rw [meets_bind]
      refine (ih fun m f hm => h m f ?_).mono ?_ fun _ _ _ => trivial
      · rw [lookup_erase_eq] at hm
        split_ifs at hm
        exact hm
      · rintro r s' ⟨reclaimed, rfl⟩
        exact ⟨reclaimed + 1, rfl⟩

theorem meets_removeGenerations (hnodup : doomed.Nodup)
    (hhere : ∀ g ∈ doomed, g.text ∈ s.generations) :
    machine.Meets (fun r s' => r = .ok () ∧ ∀ g ∈ doomed, s'.generations.lookup g.text = none)
      (fun _ _ => True) (removeGenerations doomed) s := by
  -- those still to be removed are there, and the others are gone
  refine meets_forM (J := fun rest s' => rest.Nodup ∧ (∀ g ∈ rest, g.text ∈ s'.generations) ∧
    ∀ g ∈ doomed, g ∉ rest → s'.generations.lookup g.text = none) ?_ ?_ _
    ⟨hnodup, hhere, fun g hg hnot => absurd hg hnot⟩
  · rintro g rest s' ⟨hrest, hthere, hgone⟩
    obtain ⟨hg, hrest⟩ := nodup_cons.mp hrest
    obtain ⟨tree, htree⟩ := mem_iff_lookup.mp (hthere g mem_cons_self)
    refine (meets_removeTree htree).bind_ok ?_
    rintro s1 ⟨hsame, hnone⟩
    refine (meets_issue_of_ok (exec_sync _ _)).mpr ⟨trivial, hrest, fun g' hg' => ?_,
      fun g' hg' hnot => ?_⟩
    · refine (mem_text_congr (hsame.trees _ fun heq => ?_)).mpr
        (hthere g' (mem_cons_of_mem _ hg'))
      exact hg (text_injective heq ▸ hg')
    · by_cases heq : g' = g
      · rw [heq]
        exact hnone
      · rw [hsame.trees _ fun h => heq (text_injective h)]
        exact hgone g' hg' fun hmem => hnot ((mem_cons.mp hmem).resolve_left heq)
  · rintro s' ⟨_, _, hgone⟩
    exact ⟨rfl, fun g hg => hgone g hg not_mem_nil⟩

variable [Sha256]

/-- A collection that finds all in order and is not interrupted removes what it is to remove. -/
theorem Plans.meets_garbageCollect (h : Plans s observed doomed) :
    machine.Meets (fun _ s' => ∀ g ∈ doomed, s'.generations.lookup g.text = none)
      (fun _ _ => True) (garbageCollect observed) s := by
  obtain ⟨current, previous, order, _, hdooms⟩ := orderly_of_gcDoomed h.doomed
  have hpreflight := (gcLeaseInventoryPreflight_eq_ok.mpr ⟨h.leases, rfl⟩).1
  have huncertain : (leaseSurvey s observed).uncertain = false :=
    uncertain_foldl_surveyLease.mpr ⟨rfl, fun n hn => h.certain n (mem_keys.mpr hn)⟩
  have hfiles : ∀ n f, s.leases.lookup n = some f → f.fileType ≠ .directory := by
    intro n f hf
    have howned := (h.leases.entry n f hf).owned
    simp only [validateOwnedMode, bind_eq_ok, check_eq_ok, decide_eq_true_eq] at howned
    obtain ⟨_, htype, _⟩ := howned
    rw [htype]
    decide
  have hreclaim : machine.Meets (fun r s' => (∃ reclaimed,
      r = .ok (reclaimed, (leaseSurvey s observed).liveGenerations, false)) ∧
        ∃ leases, s' = { s with leases }) (fun _ _ => True)
      (reclaimStaleLeasesLocked observed) s := by
    rw [reclaimStaleLeasesLocked, meets_view_bind, view_ofExec, hpreflight]
    dsimp only
    rw [if_neg Bool.false_ne_true, ← leaseSurvey, if_neg (Bool.eq_false_iff.mp huncertain),
      meets_bind]
    refine (meets_unlinkStaleLeases _ hfiles).mono ?_ fun _ _ _ => trivial
    rintro r s' ⟨⟨reclaimed, rfl⟩, hleases⟩
    exact ⟨⟨reclaimed, rfl⟩, hleases⟩
  rw [garbageCollect, meets_bind]
  refine hreclaim.mono ?_ fun _ _ _ => trivial
  rintro r s1 ⟨⟨reclaimed, rfl⟩, leases, rfl⟩
  rw [then_ok]
  dsimp only
  rw [if_neg Bool.false_ne_true, meets_view_bind, view_ofExec, gcDoomed_leases, h.doomed]
  dsimp only
  rw [meets_bind]
  refine (meets_removeGenerations hdooms.nodup fun g hg => ?_).mono ?_ fun _ _ _ => trivial
  · obtain ⟨_, hcandidate, _⟩ := (hdooms.mem g).mp hg
    exact hcandidate.here
  · rintro r s2 ⟨rfl, hgone⟩
    exact hgone

end Reliable

/-! ## A store with four generations -/

def thirdId : GenerationId := repeatedId 50 (by decide +kernel)

def fourthId : GenerationId := repeatedId 51 (by decide +kernel)

/-- The fourth generation was published first and the first one last. -/
def agedOrder : PublicationOrder where
  nextSequence := 5
  sequences := (((SortedMap.empty.insert firstId 4).insert secondId 3).insert thirdId 2).insert
    fourthId 1

def agedRoot : Map Bytes File :=
  ((∅ : Map Bytes File).insert publicationOrderName (stagedFile 0 agedOrder.encode)).insert
    currentName (stagedFile 0 firstId.pointerRecord)

/-- A store that holds four generations, the latest one current, and no lease. -/
def fourGenerations [Sha256] : Store where
  uid := 0
  root := agedRoot
  generations := ((((∅ : Map Bytes Tree).insert firstId.text (blankTree firstId)).insert
    secondId.text (blankTree secondId)).insert thirdId.text (blankTree thirdId)).insert
    fourthId.text (blankTree fourthId)
  leases := ∅

theorem canonicalBootId_blank :
    canonicalBootId (ascii "00000000-0000-0000-0000-000000000000") = true := by decide +kernel

def deserted : Environment where
  bootId := .ok ⟨ascii "00000000-0000-0000-0000-000000000000", canonicalBootId_blank⟩
  processes := .ok fun _ => .error Errno.noEntry

section Aged

variable [Sha256]

theorem lookup_fourGenerations (h : fourGenerations.generations.lookup n = some tree) :
    ∃ g ∈ [firstId, secondId, thirdId, fourthId], n = g.text ∧ tree = blankTree g := by
  simp only [fourGenerations, lookup_insert_eq, lookup_empty] at h
  split_ifs at h with h4 h3 h2 h1 <;> cases h
  · exact ⟨fourthId, by simp, h4, rfl⟩
  · exact ⟨thirdId, by simp, h3, rfl⟩
  · exact ⟨secondId, by simp, h2, rfl⟩
  · exact ⟨firstId, by simp, h1, rfl⟩

theorem sound_fourGenerations (h : g.text ∈ fourGenerations.generations) :
    fourGenerations.Sound g := by
  obtain ⟨tree, htree⟩ := mem_iff_lookup.mp h
  obtain ⟨g', _, htext, rfl⟩ := lookup_fourGenerations htree
  obtain rfl := text_injective htext
  exact Holds.sound ⟨_, htree, staged_blankTree g⟩

theorem mem_fourGenerations (h : g ∈ [firstId, secondId, thirdId, fourthId]) :
    g.text ∈ fourGenerations.generations := by
  simp only [mem_cons, not_mem_nil, or_false] at h
  simp only [fourGenerations, mem_insert]
  rcases h with rfl | rfl | rfl | rfl <;> simp

theorem orderly_fourGenerations : Orderly fourGenerations firstId none agedOrder := by
  have hquiet : Quiet agedRoot := by
    refine Quiet.insert_current fun n f hlookup => ?_
    rw [lookup_insert_eq, lookup_empty] at hlookup
    split_ifs at hlookup with hn
    rw [hn]
    exact journalKind_publicationOrderName
  have hnames : Names agedRoot firstId := names_insert_current ⟨rfl, rfl⟩
  have hunstaged : agedRoot.lookup orderStagingName = none := by decide +kernel
  have hload : loadPublicationOrder ⟨0, agedRoot, ∅, ∅⟩ = .ok agedOrder := by
    decide +kernel
  have hordered : ∀ g ∈ [firstId, secondId, thirdId, fourthId],
      (agedOrder.sequences.get g).isSome = true := by decide +kernel
  refine ⟨.inl ⟨?_, rfl⟩, hunstaged, hload, ?_, fun g => sound_fourGenerations⟩
  · refine (Pending.clean hquiet hnames (sound_fourGenerations ?_)).inspect
    exact mem_fourGenerations mem_cons_self
  · rw [validatePublicationOrderComplete_eq_ok]
    intro n tree htree
    obtain ⟨g, hg, rfl, rfl⟩ := lookup_fourGenerations htree
    exact ⟨g, rfl, (staged_blankTree g).root, Option.isSome_iff_exists.mp (hordered g hg)⟩

theorem exists_plans_fourGenerations :
    ∃ doomed, Plans fourGenerations (fun _ => deserted) doomed ∧ fourthId ∈ doomed := by
  obtain ⟨doomed, hdoomed, hdooms⟩ := gcDoomed_of_orderly orderly_fourGenerations
    (leaseSurvey fourGenerations fun _ => deserted).liveGenerations
  refine ⟨doomed, ⟨⟨nofun, Nat.zero_le _, Nat.zero_le _⟩, nofun, hdoomed⟩, ?_⟩
  have hcandidate : ∀ g ∈ [secondId, thirdId, fourthId], ∀ sequence,
      agedOrder.sequences.get g = some sequence →
      Candidate fourGenerations ([] ++ [firstId] ++ []) agedOrder g sequence := by
    refine fun g hg sequence hsequence =>
      ⟨mem_fourGenerations (mem_cons_of_mem _ hg), fun hmem => ?_, hsequence⟩
    rw [append_nil, nil_append, mem_singleton] at hmem
    subst hmem
    exact absurd hg (by decide +kernel)
  refine (hdooms.mem fourthId).mpr ⟨1, hcandidate _ (by simp) 1 (by decide +kernel), secondId,
    thirdId, by decide +kernel, ⟨3, hcandidate _ (by simp) 3 (by decide +kernel), by decide⟩,
    2, hcandidate _ (by simp) 2 (by decide +kernel), by decide⟩

end Aged

/-! ## What is collected -/

section Collected

variable {σ : Type} {M : Machine σ Store Call String} {observed : Bytes → Environment} [Sha256]

/-- What has to hold for a generation to be removed: all leases are scanned within the limits,
can be read and judged and no process holds it, the pointer, the publication order and all
trees are in order, it is neither current nor the one before a change that is still marked,
and two others that nothing spares were published later. -/
structure Collectable (s : Store) (observed : Bytes → Environment) (g : GenerationId) : Prop where
  scanned : LeasesInOrder s
  leases : ∀ n ∈ s.leases, LeaseCertain s observed n
  unheld : ¬ Held s observed g
  orderly : ∃ current previous order, Orderly s current previous order ∧ g ≠ current ∧
    previous ≠ some g ∧ ∃ sequence, order.sequences.get g = some sequence ∧
      ∃ a b, a ≠ b ∧ ∀ h ∈ [a, b], h.text ∈ s.generations ∧ h ≠ current ∧ previous ≠ some h ∧
        ¬ Held s observed h ∧ ∃ later, order.sequences.get h = some later ∧ sequence < later

theorem Plans.collectable (h : Plans s observed doomed) (hg : g ∈ doomed) :
    Collectable s observed g := by
  obtain ⟨current, previous, order, horderly, hdooms⟩ := orderly_of_gcDoomed h.doomed
  obtain ⟨sequence, hcandidate, a, b, hne, ⟨la, ha, hlta⟩, lb, hb, hltb⟩ := (hdooms.mem g).mp hg
  have hfree : ∀ {x : GenerationId} {later : U64}, Candidate s
      (previous.toList ++ [current] ++ (leaseSurvey s observed).liveGenerations) order x later →
      x ≠ current ∧ previous ≠ some x ∧ ¬ Held s observed x := by
    intro x later hx
    have hspared := hx.free
    simp only [mem_append, mem_singleton, Option.mem_toList,
      mem_liveGenerations_leaseSurvey h.certain, not_or] at hspared
    exact ⟨hspared.1.2, hspared.1.1, hspared.2⟩
  obtain ⟨hcurrent, hprevious, hheld⟩ := hfree hcandidate
  refine ⟨h.leases, h.certain, hheld, current, previous, order, horderly, hcurrent, hprevious,
    sequence, hcandidate.ordered, a, b, hne, ?_⟩
  simp only [forall_mem_cons, not_mem_nil, false_implies, implies_true, and_true]
  obtain ⟨hcurrenta, hpreviousa, hhelda⟩ := hfree ha
  obtain ⟨hcurrentb, hpreviousb, hheldb⟩ := hfree hb
  exact ⟨⟨ha.here, hcurrenta, hpreviousa, hhelda, la, ha.ordered, hlta⟩,
    hb.here, hcurrentb, hpreviousb, hheldb, lb, hb.ordered, hltb⟩

/-- Wherever a collection ends or is cut short, on any store and whichever calls fail, a tree
it changed is that of a generation it may remove. -/
theorem changes_only_collectable (hM : Faithful M) {t t' : σ} {next : Option Call} {n : Bytes}
    (hleft : M.Leaves (garbageCollect observed) t t' next)
    (hchanged : (M.view t').generations.lookup n ≠ (M.view t).generations.lookup n) :
    ∃ g : GenerationId, g.text = n ∧ Collectable (M.view t) observed g := by
  obtain ⟨doomed, hplans, g, hg, htext⟩ := plans_of_changed hM hleft hchanged
  exact ⟨g, htext, hplans.collectable hg⟩

end Collected

/-- A collection on four generations without a lease removes the one published first. -/
theorem changes_only_collectable_oldest :
    letI := blankSha256
    ∃ (s : Store) (g : GenerationId), g.text ∈ s.generations ∧
      ((garbageCollect fun _ => deserted).run Store.exec s).2.generations.lookup g.text = none ∧
      Collectable s (fun _ => deserted) g := by
  let _ := blankSha256
  obtain ⟨s, g, doomed, hplans, hg, hhere⟩ : ∃ (s : Store) (g : GenerationId)
      (doomed : List GenerationId), Plans s (fun _ => deserted) doomed ∧ g ∈ doomed ∧
        g.text ∈ s.generations := by
    obtain ⟨doomed, hplans, hfourth⟩ := exists_plans_fourGenerations
    exact ⟨_, fourthId, doomed, hplans, hfourth, mem_fourGenerations (by simp)⟩
  have hremoved := hplans.meets_garbageCollect.run g hg
  obtain ⟨tree, htree⟩ := mem_iff_lookup.mp hhere
  obtain ⟨g', htext, hcollectable⟩ := changes_only_collectable faithful_machine
    (leaves_run (garbageCollect fun _ => deserted) s) (n := g.text) (by
      rw [view_ofExec, view_ofExec, hremoved, htree]
      nofun)
  exact ⟨s, g, hhere, hremoved, text_injective htext ▸ hcollectable⟩

end Realm.Theme

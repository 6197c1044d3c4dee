import Realm.Theme.Recovery

/-!
# A process that dies inside an operation

Publishing, rolling back, recovering and ensuring a current generation, each cut short
before any of its calls, on a store where recovery settles on a generation.
-/

namespace Realm.Theme

open Text Prog Machine JournalKind Guard List AList Map Store

variable {nextId : ℕ → Except String GenerationId} {order order' : PublicationOrder}
  {generations : Map Bytes Tree} {attempts drawn : ℕ} {g : GenerationId} {s s' : Store}
  {tree : Tree}

/-! ## The candidate of a publication -/

theorem allocate_congr {generations' : Map Bytes Tree} (horder : order'.sequences = order.sequences)
    (hgenerations : ∀ g : GenerationId, g.text ∈ generations' ↔ g.text ∈ generations)
    (attempts drawn : ℕ) : allocate nextId order' generations' attempts drawn =
      allocate nextId order generations attempts drawn := by
  induction attempts generalizing drawn with
  | zero => rfl
  | succ attempts ih => simp only [allocate, horder, hgenerations, ih]

theorem allocate_fresh (h : allocate nextId order generations attempts drawn = .ok (some g)) :
    g.text ∉ generations := by
  induction attempts generalizing drawn with
  | zero => cases h
  | succ attempts ih =>
    simp only [allocate, bind_eq_ok] at h
    obtain ⟨candidate, _, h⟩ := h
    split_ifs at h with hused
    · exact ih h
    · cases h
      exact (not_or.mp hused).2

theorem PublicationOrder.sequences_reserve {sequence : U64}
    (h : order.reserve = .ok (sequence, order')) : order'.sequences = order.sequences := by
  rw [reserve] at h
  split_ifs at h
  cases h
  rfl

/-- The identity the publication draws for its generation. -/
def publishCandidate (nextId : ℕ → Except String GenerationId) (s : Store) :
    Option GenerationId :=
  match s.loadPublicationOrder with
  | .ok order => (allocate nextId order s.generations 64 0).toOption.join
  | .error _ => none

/-- What cleaning up before a publication changes. -/
def tidied : Scope where
  root n := Control n ∨ n = orderStagingName
  leases _ := False
  trees n := isStagingName n = true

theorem sameOutside_tidied {s1 s2 : Store}
    (h : SameOutside (.ofTrees fun n => isStagingName n = true) s s1)
    (h' : SameOutside (.ofRoot Control) s1 s2) : SameOutside tidied s s2 := by
  have htidied : SameOutside tidied s s1 :=
    h.mono ⟨fun _ => False.elim, fun _ => False.elim, fun _ => id⟩
  exact htidied.trans (h'.mono ⟨fun _ => .inl, fun _ => id, fun _ => False.elim⟩)

theorem SameOutside.tidy (h : SameOutside (.ofRoot (· = orderStagingName)) s s') :
    SameOutside tidied s s' :=
  h.mono ⟨fun _ => .inr, fun _ => id, fun _ => False.elim⟩

theorem loadPublicationOrder_congr
    (hlookup : s'.root.lookup publicationOrderName = s.root.lookup publicationOrderName)
    (huid : s'.uid = s.uid) : s'.loadPublicationOrder = s.loadPublicationOrder := by
  simp only [loadPublicationOrder, validateOptionalControl, readOptionalRegularBytes, hlookup, huid]

theorem SameOutside.loadPublicationOrder (h : SameOutside tidied s s') :
    s'.loadPublicationOrder = s.loadPublicationOrder := by
  refine loadPublicationOrder_congr (h.root _ ?_) h.uid
  rintro (hcontrol | hname)
  · exact not_control_publicationOrderName hcontrol
  · exact absurd hname (by decide +kernel)

theorem mem_text_congr (h : s'.generations.lookup g.text = s.generations.lookup g.text) :
    g.text ∈ s'.generations ↔ g.text ∈ s.generations := by
  rw [mem_iff_lookup, mem_iff_lookup, h]

theorem publishCandidate_eq (hload : s.loadPublicationOrder = .ok order)
    (hg : allocate nextId order s.generations 64 0 = .ok (some g)) :
    publishCandidate nextId s = some g := by
  rw [publishCandidate, hload]
  dsimp only
  rw [hg]
  rfl

theorem publishCandidate_of_tidied (h : SameOutside tidied s s')
    (hload : s'.loadPublicationOrder = .ok order)
    (hg : allocate nextId order s'.generations 64 0 = .ok (some g)) :
    publishCandidate nextId s = some g := by
  refine publishCandidate_eq (h.loadPublicationOrder ▸ hload) ?_
  rw [← hg]
  refine (allocate_congr rfl (fun g' => mem_text_congr (h.trees _ ?_)) _ _).symm
  show ¬ isStagingName g'.text = true
  rw [not_staging_text]
  exact Bool.false_ne_true

/-! ## Publishing -/

theorem issues_commitPointer (g : GenerationId) (hadCurrent : Bool) :
    (commitPointer g hadCurrent).Issues (Call.Within (.ofRoot Control)) := by
  have hname : ∀ kind : JournalKind, Control (kind.name g) := fun kind => control_name kind g
  have hunlink : ∀ kind : JournalKind, (issue (.unlink (.root (kind.name g))) : Run Unit).Issues
      (Call.Within (.ofRoot Control)) := fun kind => issues_issue (by exact hname kind)
  have hsync : (issue (.sync .root) : Run Unit).Issues (Call.Within (.ofRoot Control)) :=
    issues_issue trivial
  have hwrite : ∀ kind bytes, (writeSyncedFile (.root (name kind g)) bytes).Issues
      (Call.Within (.ofRoot Control)) := fun kind bytes =>
    issues_writeSyncedFile (by exact hname kind) bytes
  refine ((hwrite .current _).bind fun _ => ?_).bind fun _ => Issues.bind ?_ fun _ => ?_
  · split_ifs
    · exact hsync
    · exact (hwrite .absent _).bind fun _ => hsync
  · rw [switchPointer]
    split_ifs <;> exact issues_issue ⟨hname .current, .inl rfl⟩
  · have hback : (switchBack g hadCurrent).Issues (Call.Within (.ofRoot Control)) := by
      rw [switchBack]
      split_ifs
      · exact (issues_issue ⟨hname .current, .inl rfl⟩).bind fun _ => hsync
      · exact (issues_issue ⟨.inl rfl, hname .current⟩).bind fun _ =>
          (hunlink .absent).bind fun _ => hsync
    have hmark : (markCommitted g hadCurrent).Issues (Call.Within (.ofRoot Control)) := by
      rw [markCommitted]
      cases hadCurrent with
      | true => exact (issues_issue ⟨hname .current, hname .committed⟩).bind fun _ => hsync
      | false => exact (issues_issue ⟨hname .absent, hname .committed⟩).bind fun _ => hsync
    have hclear : (clearCommitted g).Issues (Call.Within (.ofRoot Control)) :=
      (hunlink .committed).bind fun _ => hsync
    refine hsync.attempt.bind fun answer => ?_
    cases answer with
    | error =>
      refine hback.attempt.bind fun answer => ?_
      cases answer with
      | ok | error => trivial
    | ok =>
      refine hmark.attempt.bind fun answer => ?_
      cases answer with
      | error => trivial
      | ok =>
        refine hclear.attempt.bind fun answer => ?_
        cases answer with
        | error | ok => trivial

theorem orderFiles_le_aside :
    (Scope.ofRoot fun n => n = orderStagingName ∨ n = publicationOrderName).Le aside where
  root n hn hcontrol := by
    rcases hn with rfl | rfl
    · exact not_control_orderStagingName hcontrol
    · exact not_control_publicationOrderName hcontrol
  leases _ := False.elim
  trees _ := False.elim

theorem orderStaging_le_aside : (Scope.ofRoot (· = orderStagingName)).Le aside :=
  ⟨fun _ hn => hn ▸ not_control_orderStagingName, fun _ => False.elim, fun _ => False.elim⟩

theorem stagingTree_le_aside (g : GenerationId) : (Scope.ofTrees (· = stagingName g)).Le aside where
  root _ := False.elim
  leases _ := False.elim
  trees _ hn g' hng := stagingName_ne_text g g' (hn.symm.trans hng)

theorem exec_rename_staged (htree : s.generations.lookup (stagingName g) = some tree)
    (hfresh : g.text ∉ s.generations) : exec (.rename .generations (stagingName g) g.text) s =
      .ok { s with
        generations := (s.generations.erase (stagingName g)).insert g.text tree } := by
  have hwhen : whenSome (s.generations.lookup g.text) Tree.replaceable = .ok () := by
    rw [lookup_eq_none.mpr hfresh]
    rfl
  have hrename := renameEntry_eq_ok.mpr ⟨tree, htree, hwhen, rfl⟩
  simp only [exec, hrename, Except.map]

section Publishing

variable [Sha256] {s s' : Store} {c g : GenerationId} {candidate : Option GenerationId}
  {publication : GenerationPublication} {nextId : ℕ → Except String GenerationId}
  {inventory : PointerJournalInventory} {capture : Except String GenerationPublication}

/-- What an operation leaves when it returns: recovery settles on the generation that was
current or on the candidate. -/
def Ends (c : GenerationId) (candidate : Option GenerationId) (s : Store) : Prop :=
  ∃ g, Settles s g ∧ (g = c ∨ candidate = some g)

theorem Clean.ends (h : Clean s c) : Ends c candidate s := ⟨c, h.settles, .inl rfl⟩

theorem exists_tree_of_sound (h : s.Sound g) :
    ∃ tree, s.generations.lookup g.text = some tree ∧ tree.lookup [] = some .directory := by
  simp only [Store.Sound, validateGeneration, bind_eq_ok, tree, okOr_eq_ok,
    check_eq_ok, decide_eq_true_eq] at h
  obtain ⟨tree, htree, _, hdirectory, _⟩ := h
  exact ⟨tree, htree, hdirectory⟩

theorem mem_of_sound (h : s.Sound g) : g.text ∈ s.generations := by
  obtain ⟨tree, htree, _⟩ := exists_tree_of_sound h
  exact mem_iff_lookup.mpr ⟨tree, htree⟩

theorem kept_rename_staged (hstaged : Staged publication (publication.files g) tree) :
    Kept s { s with
      generations := (s.generations.erase (stagingName g)).insert g.text tree } ∧
    Store.Sound { s with
      generations := (s.generations.erase (stagingName g)).insert g.text tree } g := by
  have hsound : Store.Sound { s with
      generations := (s.generations.erase (stagingName g)).insert g.text tree } g :=
    Holds.sound ⟨tree, lookup_insert _, hstaged⟩
  refine ⟨⟨fun _ _ => rfl, fun g' hg' => ?_⟩, hsound⟩
  by_cases hgg : g' = g
  · rw [hgg]
    exact hsound
  · have htext : g'.text ≠ g.text := fun h => hgg (GenerationId.text_injective h)
    refine (sound_congr ?_).mpr hg'
    show ((s.generations.erase (stagingName g)).insert g.text tree).lookup g'.text = _
    rw [lookup_insert_eq, if_neg htext, lookup_erase_eq,
      if_neg (stagingName_ne_text g g').symm]

theorem meets_publishGenerationLocked (hs : Clean s c) (hfresh : g.text ∉ s.generations)
    (hcandidate : candidate = some g) : machine.Meets (fun _ => Ends c candidate)
      (MayDie c candidate) (publishGenerationLocked publication g order true) s := by
  refine ((meets_aside hs.settles (issues_stageTree publication g)
    (stagingTree_le_aside g)).and (meets_stageTree publication g s)).bind (fun _ _ h => h.1)
    (fun _ _ h => (hs.kept h.1.2).ends) ?_
  rintro - s1 ⟨⟨hsame1, hkept1⟩, tree, htree, hstaged⟩
  have hs1 := hs.kept hkept1
  refine (meets_aside hs1.settles (issues_replacePublicationOrder order)
    orderFiles_le_aside).bind (fun _ _ h => h) (fun _ _ h => (hs1.kept h.2).ends) ?_
  rintro - s2 ⟨hsame2, hkept2⟩
  have hs2 := hs1.kept hkept2
  have htree2 : s2.generations.lookup (stagingName g) = some tree :=
    (hsame2.trees _ id).trans htree
  have hfresh2 : g.text ∉ s2.generations := by
    rw [← lookup_eq_none, hsame2.trees _ id, hsame1.trees _ (stagingName_ne_text g g).symm]
    exact lookup_eq_none.mpr hfresh
  obtain ⟨hkept3, hsound⟩ := kept_rename_staged (s := s2) hstaged
  have hs3 := hs2.kept hkept3
  have hne : c ≠ g := fun heq => hfresh (heq ▸ mem_of_sound hs.sound)
  refine (meets_issue_bind_of_ok (exec_rename_staged htree2 hfresh2)).mpr
    ⟨.settled hs2.settles (.inl rfl) id, ?_⟩
  refine (meets_issue_bind_of_ok (exec_sync _ _)).mpr
    ⟨.settled hs3.settles (.inl rfl) id, ?_⟩
  refine (meets_commitPointer hs3 hsound hne hcandidate).post ?_
  rintro r s4 ⟨_, hclean⟩
  exact ⟨g, hclean.settles, .inr hcandidate⟩

theorem meets_publishAllocatedLocked (hs : Clean s c) (hcandidate : ∀ g,
      allocate nextId order s.generations 64 0 = .ok (some g) → candidate = some g) :
    machine.Meets (fun _ => Ends c candidate) (MayDie c candidate)
      (publishAllocatedLocked publication true order nextId) s := by
  rw [publishAllocatedLocked]
  refine meets_lift_bind_cases (fun _ _ => hs.ends) ?_
  rintro ⟨sequence, order'⟩ hreserve
  refine (meets_aside hs.settles (issues_replacePublicationOrder order')
    orderFiles_le_aside).bind (fun _ _ h => h) (fun _ _ h => (hs.kept h.2).ends) ?_
  rintro - s1 ⟨hsame, hkept⟩
  have hs1 := hs.kept hkept
  rw [meets_view_bind]
  refine meets_lift_bind_cases (fun _ _ => hs1.ends) fun drawn hdrawn => ?_
  refine meets_lift_bind_cases (fun _ _ => hs1.ends) fun g hg => ?_
  rw [okOr_eq_ok] at hg
  subst hg
  have hsequences := PublicationOrder.sequences_reserve hreserve
  have hdrawn' : allocate nextId order s.generations 64 0 = .ok (some g) := by
    rw [← hdrawn]
    exact (allocate_congr hsequences (fun g => mem_text_congr (hsame.trees _ id)) _ _).symm
  refine meets_lift_bind_cases (fun _ _ => hs1.ends) fun _ _ => ?_
  exact meets_publishGenerationLocked hs1 (allocate_fresh hdrawn) (hcandidate g hdrawn')

theorem issues_cleanPointerStaging (h : Pending s inventory c) :
    (cleanPointerStaging inventory).Issues (Call.Within (.ofRoot Control)) := by
  cases h with
  | clean => trivial
  | rollback =>
    exact (issues_issue ⟨control_name _ _, .inl rfl⟩).bind fun _ => issues_issue trivial
  | discard | committed =>
    exact (issues_issue (by exact control_name _ _)).bind fun _ => issues_issue trivial

theorem meets_cleanPointerStaging (h : Pending s inventory c) :
    machine.Meets (fun r s' => r = .ok () ∧ Clean s' c ∧ SameOutside (.ofRoot Control) s s')
      (MayDie c candidate) (cleanPointerStaging inventory) s := by
  refine ((meets_cleanPointerStaging_clean h).and
    (meets_sameOutside faithful_machine (issues_cleanPointerStaging h) s)).mono ?_ fun _ _ h => h.1
  rintro r s' ⟨⟨hok, hclean⟩, hsame⟩
  exact ⟨hok, hclean, hsame⟩

theorem Clean.validateCurrentOrPristine (h : Clean s c) :
    s.validateCurrentOrPristine = .ok true := by
  rw [Store.validateCurrentOrPristine, h.resolveCurrent]

theorem meets_publish (h : Pending s inventory c) :
    machine.Meets (fun _ => Ends c (publishCandidate nextId s))
      (MayDie c (publishCandidate nextId s)) (publish capture nextId) s := by
  rw [publish, meets_view_bind]
  refine (meets_lift_bind h.inspect).mpr ?_
  refine (meets_cleanStaging_settled ⟨inventory, h⟩).bind_ok ?_
  rintro s1 ⟨hsame1, hkept1⟩
  refine (meets_cleanPointerStaging (h.kept hkept1)).bind_ok ?_
  rintro s2 ⟨hs2, hsame2⟩
  refine (meets_aside hs2.settles issues_cleanPublicationOrderStaging orderStaging_le_aside).bind
    (fun _ _ h => h) (fun _ _ h => (hs2.kept h.2).ends) ?_
  rintro - s3 ⟨hsame3, hkept3⟩
  have hs3 := hs2.kept hkept3
  have hsame : SameOutside tidied s s3 := (sameOutside_tidied hsame1 hsame2).trans hsame3.tidy
  rw [meets_view_bind]
  refine (meets_lift_bind hs3.validateCurrentOrPristine).mpr ?_
  refine meets_lift_bind_cases (fun _ _ => hs3.ends) fun order hload => ?_
  refine meets_lift_bind_cases (fun _ _ => hs3.ends) fun _ _ => ?_
  refine meets_lift_bind_cases (fun _ _ => hs3.ends) fun publication _ => ?_
  exact meets_publishAllocatedLocked hs3 fun g hg => publishCandidate_of_tidied hsame hload hg

/-! ## The other operations -/

theorem meets_rollback (h : Pending s inventory c) :
    machine.Meets (fun _ => Ends c (some g)) (MayDie c (some g)) (rollback g) s := by
  rw [rollback, meets_view_bind]
  refine (meets_lift_bind h.inspect).mpr ?_
  refine meets_lift_bind_cases (fun _ _ => ⟨c, ⟨inventory, h⟩, .inl rfl⟩) fun _ hvalid => ?_
  refine (meets_cleanPointerStaging h).bind_ok ?_
  rintro s1 ⟨hs1, hsame⟩
  rw [meets_view_bind]
  refine (meets_lift_bind hs1.resolveCurrent).mpr ?_
  split_ifs with hcg
  · exact hs1.ends
  · have hsound : s1.Sound g := (sound_congr (hsame.trees _ id)).mpr hvalid
    refine (meets_commitPointer hs1 hsound hcg rfl).post ?_
    rintro r s2 ⟨_, hs2⟩
    exact ⟨g, hs2.settles, .inr rfl⟩

theorem meets_ensureCurrent (h : Pending s inventory c) :
    machine.Meets (fun _ => Ends c candidate) (MayDie c candidate) (ensureCurrent capture nextId)
      s := by
  have hends : Ends c candidate s := ⟨c, ⟨inventory, h⟩, .inl rfl⟩
  rw [ensureCurrent, meets_view_bind]
  refine (meets_lift_bind h.inspect).mpr ?_
  cases h with
  | clean | committed => exact meets_lift_bind_cases (fun _ _ => hends) fun _ _ => hends
  | discard | rollback => exact hends

end Publishing

/-! ## Death at any point -/

/-- The operations that change the pointer or clean up after a change. -/
inductive Operation where
  | publish (capture : Except String GenerationPublication)
      (nextId : ℕ → Except String GenerationId)
  | rollback (generation : GenerationId)
  | recover
  | ensureCurrent (capture : Except String GenerationPublication)
      (nextId : ℕ → Except String GenerationId)

namespace Operation

/-- The program of an operation, its answer aside. -/
def program [Sha256] : Operation → Run Unit
  | publish capture nextId => (fun _ => ()) <$> Theme.publish capture nextId
  | rollback generation => (fun _ => ()) <$> Theme.rollback generation
  | recover => (fun _ => ()) <$> Theme.recover
  | ensureCurrent capture nextId => (fun _ => ()) <$> Theme.ensureCurrent capture nextId

/-- The generation an operation is to select, if it is to select another one. -/
def candidate : Operation → Store → Option GenerationId
  | publish _ nextId, store => publishCandidate nextId store
  | rollback generation, _ => some generation
  | recover, _ => none
  | ensureCurrent _ nextId, store =>
    match store.root.lookup currentName with
    | some _ => none
    | none => publishCandidate nextId store

/-- The generation is current or the one to be selected. -/
def MayLeave [Sha256] (op : Operation) (s : Store) (g : GenerationId) : Prop :=
  s.resolveCurrent = .ok g ∨ op.candidate s = some g

end Operation

/-! ## The calls of an operation -/

theorem Call.writesPointer_iff {call : Call} :
    call.WritesPointer ↔ ∃ g byte, call = .append (.root (current.name g)) byte := by
  constructor
  · intro hcall
    cases call with
    | append place byte =>
      cases place with
      | root =>
        obtain ⟨g, rfl⟩ := hcall
        exact ⟨g, byte, rfl⟩
      | lease | tree => exact hcall.elim
    | _ => exact hcall.elim
  · rintro ⟨g, byte, rfl⟩
    exact ⟨g, rfl⟩

/-- Everything but the leases. -/
def leaseless : Scope := ⟨fun _ => True, fun _ => False, fun _ => True⟩

theorem ofRoot_le_leaseless (names : Bytes → Prop) : (Scope.ofRoot names).Le leaseless :=
  ⟨fun _ _ => trivial, fun _ => id, fun _ _ => trivial⟩

theorem ofTrees_le_leaseless (names : Bytes → Prop) : (Scope.ofTrees names).Le leaseless :=
  ⟨fun _ _ => trivial, fun _ => id, fun _ _ => trivial⟩

section Begins

variable {α : Type} {p : Run α} {scope : Scope}

/-- The first call does not write to the record of a pointer, and none is on a lease. -/
abbrev Begins (p : Run α) : Prop :=
  p.Starts (fun call => ¬ call.WritesPointer) (Call.Within leaseless)

theorem begins_of_aside (hp : p.Issues (Call.Within scope)) (h : scope.Le aside)
    (h' : scope.Le leaseless) : Begins p :=
  (hp.mono fun _ hc => ⟨(hc.mono h).not_writesPointer, hc.mono h'⟩).starts

theorem begins_cleanStaging : Begins cleanStaging :=
  begins_of_aside issues_cleanStaging staging_le_aside (ofTrees_le_leaseless _)

theorem begins_replacePublicationOrder (order : PublicationOrder) :
    Begins (replacePublicationOrder order) :=
  begins_of_aside (issues_replacePublicationOrder order) orderFiles_le_aside
    (ofRoot_le_leaseless _)

theorem begins_cleanPublicationOrderStaging : Begins cleanPublicationOrderStaging :=
  begins_of_aside issues_cleanPublicationOrderStaging orderStaging_le_aside
    (ofRoot_le_leaseless _)

theorem begins_cleanPointerStaging (inventory : PointerJournalInventory) :
    Begins (cleanPointerStaging inventory) := by
  have hunlink (n) : Begins (issue (.unlink (.root n))) := (issues_issue ⟨id, trivial⟩).starts
  have hrename (n n') : Begins (issue (.rename .root n n')) :=
    (issues_issue ⟨id, trivial, trivial⟩).starts
  have hsync : Begins (issue (.sync .root)) := (issues_issue ⟨id, trivial⟩).starts
  rw [cleanPointerStaging]
  cases inventory.state with
  | clean => trivial
  | discardCurrent name => exact (hunlink name).bind fun _ => hsync
  | rollbackCurrent name => exact (hrename name _).bind fun _ => hsync
  | rollbackAbsent =>
    exact (hrename _ _).bind fun _ => hsync.bind fun _ => (hunlink _).bind fun _ =>
      (hunlink _).bind fun _ => hsync
  | discardPristine => exact (hunlink _).bind fun _ => (hunlink _).bind fun _ => hsync
  | cleanupCommitted name => exact (hunlink name).bind fun _ => hsync

theorem begins_commitPointer (g : GenerationId) (hadCurrent : Bool) :
    Begins (commitPointer g hadCurrent) := by
  have hissues : (commitPointer g hadCurrent).Issues (Call.Within leaseless) :=
    (issues_commitPointer g hadCurrent).mono fun _ hc => hc.mono (ofRoot_le_leaseless _)
  exact ⟨id, hissues.1, hissues.2⟩

end Begins

section Death

variable [Sha256] {s s' : Store} {c : GenerationId} {g : GenerationId} {σ : Type}
  {M : Machine σ Store Call String} {t t' : σ}

/-- Recovery of the store succeeds and returns the generation. -/
def Recovers (s : Store) (c : GenerationId) : Prop := (recover.run exec s).1 = .ok c

theorem Operation.meets_program (op : Operation) (h : Settles s c) :
    machine.Meets (fun _ => Ends c (op.candidate s)) (MayDie c (op.candidate s)) op.program s := by
  obtain ⟨inventory, h⟩ := h
  cases op with
  | publish => exact (meets_publish h).map
  | rollback => exact (meets_rollback h).map
  | recover => exact ((meets_recover h).post fun _ _ hs' => hs'.2.ends).map
  | ensureCurrent => exact (meets_ensureCurrent h).map

theorem begins_publishAllocatedLocked (publication : GenerationPublication) (hadCurrent : Bool)
    (order : PublicationOrder) (nextId : ℕ → Except String GenerationId) :
    Begins (publishAllocatedLocked publication hadCurrent order nextId) := by
  refine (starts_lift _).bind fun reserved => (begins_replacePublicationOrder _).bind fun _ => ?_
  refine starts_view.bind fun _ => (starts_lift _).bind fun _ => (starts_lift _).bind fun g => ?_
  have hstage : Begins (stageTree publication g) := begins_of_aside
    (issues_stageTree publication g) (stagingTree_le_aside g) (ofTrees_le_leaseless _)
  refine (starts_lift _).bind fun _ => hstage.bind fun _ =>
    (begins_replacePublicationOrder _).bind fun _ => ?_
  exact (issues_issue ⟨id, trivial, trivial⟩).starts.bind fun _ =>
    (issues_issue ⟨id, trivial⟩).starts.bind fun _ => begins_commitPointer g hadCurrent

/-- No operation starts by writing to the record of a pointer, and none touches a lease. -/
theorem Operation.begins_program (op : Operation) : Begins op.program := by
  cases op with
  | publish =>
    refine Starts.bind ?_ fun _ => trivial
    refine starts_view.bind fun _ => (starts_lift _).bind fun inventory => ?_
    refine begins_cleanStaging.bind fun _ => (begins_cleanPointerStaging inventory).bind fun _ => ?_
    refine begins_cleanPublicationOrderStaging.bind fun _ => starts_view.bind fun _ => ?_
    exact (starts_lift _).bind fun hadCurrent => (starts_lift _).bind fun order =>
      (starts_lift _).bind fun _ => (starts_lift _).bind fun publication =>
      begins_publishAllocatedLocked ..
  | rollback g =>
    refine Starts.bind ?_ fun _ => trivial
    refine starts_view.bind fun _ => (starts_lift _).bind fun inventory => ?_
    refine (starts_lift _).bind fun _ => (begins_cleanPointerStaging inventory).bind fun _ => ?_
    refine starts_view.bind fun _ => (starts_lift _).bind fun c => ?_
    split_ifs
    · trivial
    · exact begins_commitPointer g true
  | recover =>
    refine Starts.bind ?_ fun _ => trivial
    refine starts_view.bind fun _ => (starts_lift _).bind fun inventory => ?_
    refine begins_cleanStaging.bind fun _ => (begins_cleanPointerStaging inventory).bind fun _ => ?_
    exact starts_view.bind fun _ => starts_lift _
  | ensureCurrent =>
    refine Starts.bind ?_ fun _ => trivial
    refine starts_view.bind fun _ => (starts_lift _).bind fun inventory => ?_
    split
    · exact (starts_lift _).bind fun _ => trivial
    · exact (starts_lift _).bind fun _ => trivial
    · refine (starts_lift _).bind fun _ => (starts_lift _).bind fun order => ?_
      exact (starts_lift _).bind fun publication => begins_publishAllocatedLocked ..
    · trivial
    · trivial

/-- Wherever the process running an operation dies, a later recovery succeeds with the
generation that was current or the candidate unless the record of the staged pointer was
being written, exactly if recovery succeeds so on the store the operation starts from. -/
theorem recovers_after_death (op : Operation) (s : Store) :
    (∀ s' next, machine.Leaves op.program s s' next →
      ((∃ g, Recovers s' g ∧ op.MayLeave s g) ↔
        ∀ g byte, next ≠ some (.append (.root (current.name g)) byte))) ↔
    ∃ g, Recovers s g ∧ op.MayLeave s g := by
  constructor
  · intro h
    obtain ⟨next, hleaves, hnext⟩ := exists_leaves_of_starts (M := machine) op.begins_program s
    refine (h s next hleaves).mpr fun g byte heq => hnext _ heq ⟨g, rfl⟩
  · rintro ⟨c, hc, hmay⟩ s' next hdeath
    have hmeets := op.meets_program (settles_iff.mpr hc)
    have hleave : ∀ g, g = c ∨ op.candidate s = some g → op.MayLeave s g := by
      rintro g (rfl | hg)
      · exact hmay
      · exact Or.inr hg
    cases next with
    | none =>
      obtain ⟨result, hreturns⟩ := hdeath
      obtain ⟨g, hg, hends⟩ := hmeets.returns hreturns
      exact ⟨fun _ _ _ => nofun, fun _ => ⟨g, settles_iff.mp hg, hleave g hends⟩⟩
    | some call =>
      have hdie : MayDie c (op.candidate s) s' call := hmeets.stops hdeath
      constructor
      · rintro ⟨g, hg, _⟩ g' byte heq
        exact hdie.not_settles (Call.writesPointer_iff.mpr ⟨g', byte, Option.some_inj.mp heq⟩) g
          (settles_iff.mpr hg)
      · intro hnext
        obtain ⟨g, hg, hends⟩ := hdie.settles fun hcall =>
          let ⟨g, byte, heq⟩ := Call.writesPointer_iff.mp hcall
          hnext g byte (congrArg some heq)
        exact ⟨g, settles_iff.mp hg, hleave g hends⟩

/-- On a clean store a rollback to another generation is the change of the pointer, on
whatever machine it runs. -/
theorem stops_rollback_of {call : Call} (hs : Clean (M.view t) c) (hg : (M.view t).Sound g)
    (hne : c ≠ g) (h : M.Stops (commitPointer g true) t t' call) :
    M.Stops (rollback g) t t' call := by
  have hinspect := (Pending.clean hs.quiet hs.names hs.sound).inspect
  refine returns_view.stops ((returns_lift hinspect).stops ((returns_lift hg).stops ?_))
  refine Returns.stops (a := ()) (t := t) ⟨rfl, rfl⟩ (returns_view.stops ?_)
  refine (returns_lift hs.resolveCurrent).stops ?_
  rw [if_neg hne]
  exact h

theorem returns_rollback_of {r : Except String GenerationPublicationOutcome}
    (hs : Clean (M.view t) c) (hg : (M.view t).Sound g) (hne : c ≠ g)
    (h : M.Returns (commitPointer g true) t r t') : M.Returns (rollback g) t r t' := by
  have hinspect := (Pending.clean hs.quiet hs.names hs.sound).inspect
  refine returns_view.bind ((returns_lift hinspect).bind ((returns_lift hg).bind ?_))
  refine Returns.bind (a := ()) (t := t) ⟨rfl, rfl⟩ (returns_view.bind ?_)
  refine (returns_lift hs.resolveCurrent).bind ?_
  rw [if_neg hne]
  exact h

/-- Any rollback on a clean store can be cut short with the record of its pointer not yet
written. -/
theorem stops_rollback (hs : Clean s c) (hg : s.Sound g) (hne : c ≠ g) :
    ∃ s' byte, machine.Stops (rollback g) s s'
        (.append (.root (current.name g)) byte) ∧ Staging s g [] s' := by
  obtain ⟨s', hexec, hstaging⟩ := exec_create_pointer (hs.quiet.lookup_name .current g)
  obtain ⟨byte, rest, hrecord⟩ := exists_cons_of_ne_nil
    (append_ne_nil_of_left_ne_nil g.text_ne_nil [lf])
  refine ⟨s', byte, ?_, hstaging⟩
  have hloop : machine.Stops (forM g.pointerRecord fun byte =>
      issue (Call.append (.root (current.name g)) byte)) s' s'
      (.append (.root (current.name g)) byte) := by
    rw [GenerationId.pointerRecord, hrecord, forM_cons]
    exact stops_issue.bind
  exact stops_rollback_of hs hg hne
    (Stops.bind (Stops.bind ((returns_issue (step_ofExec hexec)).stops hloop.bind)))

/-- Or right after the pointer was put in place. -/
theorem leaves_rollback_switched (hs : Clean s c) (hg : s.Sound g) (hne : c ≠ g) :
    ∃ s' f, machine.Leaves (Operation.rollback g).program s s' (some (.sync .root)) ∧
      Switched s' c g f := by
  have hmeets : machine.Meets _ (MayDie c none) (stagePointer g true) s :=
    meets_stagePointer hs hg hne
  obtain ⟨hok, hstaging⟩ := hmeets.run
  obtain ⟨s', f, hswitch, hswitched⟩ := hstaging.exec_switch hs hg hne
  have hstage : machine.Returns (stagePointer g true) s (.ok ()) _ :=
    returns_ofExec_iff.mpr (Prod.ext hok rfl)
  refine ⟨s', f, (stops_rollback_of hs hg hne (hstage.stops ?_)).map, hswitched⟩
  exact (returns_issue (step_ofExec hswitch)).stops stops_issue.attempt.bind

theorem leaves_rollback_torn (hs : Clean s c) (hg : s.Sound g) (hne : c ≠ g) :
    ∃ s' next, machine.Leaves (Operation.rollback g).program s s' next ∧
      ∀ g', ¬ Recovers s' g' := by
  obtain ⟨s', byte, hstops, root, rfl, hlookup, _⟩ := stops_rollback hs hg hne
  have hrecord : g.pointerRecord ≠ [] := append_ne_nil_of_left_ne_nil g.text_ne_nil [lf]
  refine ⟨_, some _, hstops.map, fun g' hg' => ?_⟩
  exact not_settles_of_short hlookup nil_prefix hrecord.symm g' (settles_iff.mpr hg')

end Death

/-! ## A store with two generations -/

/-- The identity of one repeated digit. -/
def repeatedId (digit : Byte) (h : isLowerHex digit = true) : GenerationId where
  text := replicate 32 digit
  isHex := ⟨length_replicate, all_replicate.trans (by simp [h])⟩

def firstId : GenerationId := repeatedId 48 (by decide +kernel)

def secondId : GenerationId := repeatedId 49 (by decide +kernel)

theorem firstId_ne_secondId : firstId ≠ secondId := by decide +kernel

/-- A store that holds two generations, the first one current. -/
def twoGenerations [Sha256] : Store where
  uid := 0
  root := (∅ : Map Bytes File).insert currentName (stagedFile 0 firstId.pointerRecord)
  generations := ((∅ : Map Bytes Tree).insert firstId.text (blankTree firstId)).insert secondId.text
    (blankTree secondId)
  leases := ∅

theorem clean_twoGenerations [Sha256] : Clean twoGenerations firstId where
  quiet := by
    refine Quiet.insert_current fun n f hlookup => ?_
    rw [lookup_empty] at hlookup
    cases hlookup
  names := names_insert_current ⟨rfl, rfl⟩
  sound := by
    refine Holds.sound ⟨_, ?_, staged_blankTree firstId⟩
    rw [twoGenerations, lookup_insert_eq, if_neg (by decide +kernel), lookup_insert]

theorem sound_twoGenerations [Sha256] : twoGenerations.Sound secondId :=
  Holds.sound ⟨_, lookup_insert _, staged_blankTree secondId⟩

/-- A rollback from one generation to the other dies just after the file of its pointer
was created: no later recovery succeeds. -/
theorem recovers_after_death_fails :
    letI := blankSha256
    Recovers twoGenerations firstId ∧
      ∃ s' next, machine.Leaves (Operation.rollback secondId).program twoGenerations s' next ∧
        ∀ g, ¬ Recovers s' g :=
  letI := blankSha256
  ⟨settles_iff.mp clean_twoGenerations.settles,
    leaves_rollback_torn clean_twoGenerations sound_twoGenerations firstId_ne_secondId⟩

/-- A rollback from one generation to the other dies right after it put the pointer in place:
recovery undoes the switch. -/
theorem recovers_after_death_switched :
    letI := blankSha256
    ∃ s' g, machine.Leaves (Operation.rollback secondId).program twoGenerations s'
        (some (.sync .root)) ∧ Names s'.root secondId ∧
      Recovers s' g ∧ (Operation.rollback secondId).MayLeave twoGenerations g := by
  generalize blankSha256 = sha
  have hs : Clean twoGenerations firstId := clean_twoGenerations
  have hg : twoGenerations.Sound secondId := sound_twoGenerations
  -- nothing below looks into the store
  generalize twoGenerations = s at hs hg
  obtain ⟨s', f, hleft, hswitched⟩ := leaves_rollback_switched hs hg firstId_ne_secondId
  have hdeath := (recovers_after_death (.rollback secondId) s).mpr
    ⟨firstId, settles_iff.mp hs.settles, Or.inl hs.resolveCurrent⟩
  obtain ⟨g, hg⟩ := (hdeath s' _ hleft).mpr fun _ _ => nofun
  exact ⟨s', g, hleft, hswitched.names, hg⟩

end Realm.Theme

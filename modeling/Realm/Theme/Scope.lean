import Realm.Theme.Operations

/-!
# What a program can touch

Every call works on named entries of the three directories.  A program whose calls keep
to some names leaves the entries under all other names alone, wherever it is cut short
and whichever of its calls fail.
-/

namespace Realm.Theme

open Text Prog Guard Store

variable {place : Place} {scope : Scope} {c : Call} {name : Bytes}

/-- The machine of a store whose calls all take effect. -/
abbrev machine : Machine Store Store Call String := Machine.ofExec Store.exec

/-- A machine whose calls do to the visible store what they should, or fail and change
nothing that can be seen. -/
def Faithful {σ : Type} (M : Machine σ Store Call String) : Prop :=
  ∀ s c answer t, M.Step s c answer t →
    answer = .ok () ∧ Store.exec c (M.view s) = .ok (M.view t) ∨
      (∃ e, answer = .error e) ∧ M.view t = M.view s

theorem faithful_machine : Faithful machine := by
  intro s c answer t hstep
  simp only [Machine.ofExec] at hstep
  cases hexec : exec c s with
  | ok =>
    rw [hexec] at hstep
    obtain ⟨rfl, rfl⟩ := hstep
    exact .inl ⟨rfl, hexec⟩
  | error e =>
    rw [hexec] at hstep
    exact .inr ⟨⟨e, hstep.1⟩, hstep.2⟩

/-! ## Scopes -/

/-- Names of entries in each of the three directories. -/
structure Scope where
  root : Bytes → Prop
  leases : Bytes → Prop
  trees : Bytes → Prop

namespace Scope

variable {names names' : Bytes → Prop}

def on (scope : Scope) : Shelf → Bytes → Prop
  | .root => scope.root
  | .generations => scope.trees
  | .leases => scope.leases

def covers (scope : Scope) : Place → Prop
  | .root name => scope.root name
  | .lease name => scope.leases name
  | .tree name _ => scope.trees name

def ofRoot (names : Bytes → Prop) : Scope := ⟨names, fun _ => False, fun _ => False⟩

def ofLeases (names : Bytes → Prop) : Scope := ⟨fun _ => False, names, fun _ => False⟩

def ofTrees (names : Bytes → Prop) : Scope := ⟨fun _ => False, fun _ => False, names⟩

/-- Every name of the one is a name of the other. -/
structure Le (scope scope' : Scope) : Prop where
  root : ∀ n, scope.root n → scope'.root n
  leases : ∀ n, scope.leases n → scope'.leases n
  trees : ∀ n, scope.trees n → scope'.trees n

theorem ofTrees_le (h : ∀ n, names n → names' n) : (ofTrees names).Le (ofTrees names') :=
  ⟨fun _ => id, fun _ => id, h⟩

variable {scope scope' : Scope}

theorem Le.on (h : scope.Le scope') {shelf : Shelf} {n : Bytes} (hn : scope.on shelf n) :
    scope'.on shelf n := by
  cases shelf with
  | root => exact h.root n hn
  | generations => exact h.trees n hn
  | leases => exact h.leases n hn

theorem Le.covers (h : scope.Le scope') (hp : scope.covers place) : scope'.covers place := by
  cases place with
  | root name => exact h.root name hp
  | lease name => exact h.leases name hp
  | tree name => exact h.trees name hp

end Scope

/-- The call changes entries of the scope at most. -/
def Call.Within (scope : Scope) : Call → Prop
  | .create place => scope.covers place
  | .append place _ => scope.covers place
  | .unlink place => scope.covers place
  | .mkdir name _ => scope.trees name
  | .rmdir name _ => scope.trees name
  | .rename shelf source target => scope.on shelf source ∧ scope.on shelf target
  | .exchange shelf left right => scope.on shelf left ∧ scope.on shelf right
  | .syncFile _ => True
  | .syncTree _ _ => True
  | .sync _ => True

theorem Call.Within.mono {scope' : Scope} (h : c.Within scope) (hle : scope.Le scope') :
    c.Within scope' := by
  cases c with
  | create | append | unlink => exact hle.covers h
  | mkdir name | rmdir name => exact hle.trees name h
  | rename | exchange => exact ⟨hle.on h.1, hle.on h.2⟩
  | syncFile | syncTree | sync => trivial

/-- Two stores that differ in entries of the scope at most. -/
structure SameOutside (scope : Scope) (s s' : Store) : Prop where
  uid : s'.uid = s.uid
  root : ∀ n, ¬ scope.root n → s'.root.lookup n = s.root.lookup n
  leases : ∀ n, ¬ scope.leases n → s'.leases.lookup n = s.leases.lookup n
  trees : ∀ n, ¬ scope.trees n → s'.generations.lookup n = s.generations.lookup n

namespace SameOutside

variable {scope scope' : Scope} {s s' s'' : Store}

theorem refl (scope : Scope) (s : Store) : SameOutside scope s s :=
  ⟨rfl, fun _ _ => rfl, fun _ _ => rfl, fun _ _ => rfl⟩

theorem trans (h : SameOutside scope s s') (h' : SameOutside scope s' s'') :
    SameOutside scope s s'' where
  uid := h'.uid.trans h.uid
  root n hn := (h'.root n hn).trans (h.root n hn)
  leases n hn := (h'.leases n hn).trans (h.leases n hn)
  trees n hn := (h'.trees n hn).trans (h.trees n hn)

theorem mono (h : SameOutside scope s s') (hle : scope.Le scope') : SameOutside scope' s s' where
  uid := h.uid
  root n hn := h.root n fun hn' => hn (hle.root n hn')
  leases n hn := h.leases n fun hn' => hn (hle.leases n hn')
  trees n hn := h.trees n fun hn' => hn (hle.trees n hn')

theorem of_root {root : Map Bytes File}
    (h : ∀ n, ¬ scope.root n → root.lookup n = s.root.lookup n) :
    SameOutside scope s { s with root } :=
  ⟨rfl, h, fun _ _ => rfl, fun _ _ => rfl⟩

theorem of_leases {leases : Map Bytes File}
    (h : ∀ n, ¬ scope.leases n → leases.lookup n = s.leases.lookup n) :
    SameOutside scope s { s with leases } :=
  ⟨rfl, fun _ _ => rfl, h, fun _ _ => rfl⟩

theorem of_trees {generations : Map Bytes Tree}
    (h : ∀ n, ¬ scope.trees n → generations.lookup n = s.generations.lookup n) :
    SameOutside scope s { s with generations } :=
  ⟨rfl, fun _ _ => rfl, fun _ _ => rfl, h⟩

end SameOutside

/-! ## One call -/

section Entries

variable {V : Type} {names : Bytes → Prop} {n : Bytes} {left name right source target : Bytes}
  {files files' : Map Bytes File} {entries entries' : Map Bytes V}
  {replaceable : V → Except String Unit}

theorem lookup_insert_outside {v : V} (hname : names name) (hn : ¬ names n) :
    (entries.insert name v).lookup n = entries.lookup n := by
  rw [Map.lookup_insert_eq, if_neg]
  rintro rfl
  exact hn hname

theorem lookup_erase_outside (hname : names name) (hn : ¬ names n) :
    (entries.erase name).lookup n = entries.lookup n := by
  rw [Map.lookup_erase_eq, if_neg]
  rintro rfl
  exact hn hname

theorem lookup_create {uid : ℕ}
    (h : Files.create files uid name = .ok files') (hname : names name) (hn : ¬ names n) :
    files'.lookup n = files.lookup n := by
  simp only [Files.create, ite_error_eq_ok] at h
  obtain ⟨_, h⟩ := h
  cases h
  exact lookup_insert_outside hname hn

theorem lookup_append {byte : Byte}
    (h : Files.append files name byte = .ok files') (hname : names name) (hn : ¬ names n) :
    files'.lookup n = files.lookup n := by
  rw [Files.append] at h
  split at h
  · cases h
    exact lookup_insert_outside hname hn
  · cases h

theorem lookup_unlink
    (h : Files.unlink files name = .ok files') (hname : names name) (hn : ¬ names n) :
    files'.lookup n = files.lookup n := by
  rw [Files.unlink] at h
  split at h
  · rw [ite_error_eq_ok] at h
    obtain ⟨_, h⟩ := h
    cases h
    exact lookup_erase_outside hname hn
  · cases h

theorem renameEntry_eq_ok : renameEntry replaceable entries source target = .ok entries' ↔
      ∃ v, entries.lookup source = some v ∧ whenSome (entries.lookup target) replaceable = .ok () ∧
        entries' = (entries.erase source).insert target v := by
  simp only [renameEntry, bind_eq_ok, pure_eq_ok, okOr_eq_ok, exists_unit_eq_ok]
  constructor
  · rintro ⟨v, hv, hreplace, rfl⟩
    exact ⟨v, hv, hreplace, rfl⟩
  · rintro ⟨v, hv, hreplace, rfl⟩
    exact ⟨v, hv, hreplace, rfl⟩

theorem lookup_renameEntry (h : renameEntry replaceable entries source target = .ok entries')
    (hnames : names source ∧ names target) (hn : ¬ names n) :
    entries'.lookup n = entries.lookup n := by
  obtain ⟨v, _, _, rfl⟩ := renameEntry_eq_ok.mp h
  rw [lookup_insert_outside hnames.2 hn, lookup_erase_outside hnames.1 hn]

theorem exchangeEntries_eq_ok : exchangeEntries entries left right = .ok entries' ↔
      ∃ v v', entries.lookup left = some v ∧ entries.lookup right = some v' ∧
        entries' = (entries.insert left v').insert right v := by
  simp only [exchangeEntries, bind_eq_ok, pure_eq_ok, okOr_eq_ok]
  constructor
  · rintro ⟨v, hv, v', hv', rfl⟩
    exact ⟨v, v', hv, hv', rfl⟩
  · rintro ⟨v, v', hv, hv', rfl⟩
    exact ⟨v, hv, v', hv', rfl⟩

theorem lookup_exchangeEntries (h : exchangeEntries entries left right = .ok entries')
    (hnames : names left ∧ names right) (hn : ¬ names n) :
    entries'.lookup n = entries.lookup n := by
  obtain ⟨v, v', _, _, rfl⟩ := exchangeEntries_eq_ok.mp h
  rw [lookup_insert_outside hnames.2 hn, lookup_insert_outside hnames.1 hn]

end Entries

theorem sameOutside_setTree (h : scope.trees name) (s : Store) (tree : Tree) :
    SameOutside scope s (s.setTree name tree) :=
  .of_trees fun _ hn => lookup_insert_outside h hn

theorem sameOutside_eraseAt (h : scope.trees name) (s : Store) (tree : Tree) (path : List Bytes) :
    SameOutside scope s (s.eraseAt name tree path) := by
  rw [eraseAt]
  split_ifs with hpath
  · exact sameOutside_setTree h s _
  · exact .of_trees fun _ hn => lookup_erase_outside h hn

theorem sameOutside_exec {s s' : Store} (hc : c.Within scope) (h : Store.exec c s = .ok s') :
    SameOutside scope s s' := by
  cases c with
  | create place =>
    cases place with
    | root =>
      obtain ⟨root, hroot, rfl⟩ := map_eq_ok.mp h
      exact .of_root fun _ hn => lookup_create hroot hc hn
    | lease =>
      obtain ⟨leases, hleases, rfl⟩ := map_eq_ok.mp h
      exact .of_leases fun _ hn => lookup_create hleases hc hn
    | tree =>
      simp only [exec, bind_eq_ok, pure_eq_ok] at h
      obtain ⟨_, _, tree, _, rfl⟩ := h
      exact sameOutside_setTree hc s tree
  | append place =>
    cases place with
    | root =>
      obtain ⟨root, hroot, rfl⟩ := map_eq_ok.mp h
      exact .of_root fun _ hn => lookup_append hroot hc hn
    | lease =>
      obtain ⟨leases, hleases, rfl⟩ := map_eq_ok.mp h
      exact .of_leases fun _ hn => lookup_append hleases hc hn
    | tree =>
      simp only [exec, bind_eq_ok, pure_eq_ok] at h
      obtain ⟨_, _, tree, _, rfl⟩ := h
      exact sameOutside_setTree hc s tree
  | unlink place =>
    cases place with
    | root =>
      obtain ⟨root, hroot, rfl⟩ := map_eq_ok.mp h
      exact .of_root fun _ hn => lookup_unlink hroot hc hn
    | lease =>
      obtain ⟨leases, hleases, rfl⟩ := map_eq_ok.mp h
      exact .of_leases fun _ hn => lookup_unlink hleases hc hn
    | tree name path =>
      simp only [exec, bind_eq_ok, pure_eq_ok] at h
      obtain ⟨tree, _, _, _, rfl⟩ := h
      exact sameOutside_eraseAt hc s tree path
  | mkdir name path =>
    cases path with
    | nil =>
      simp only [exec, ite_error_eq_ok] at h
      obtain ⟨_, h⟩ := h
      cases h
      exact sameOutside_setTree hc s _
    | cons =>
      simp only [exec, bind_eq_ok, pure_eq_ok] at h
      obtain ⟨_, _, tree, _, rfl⟩ := h
      exact sameOutside_setTree hc s tree
  | rmdir name path =>
    simp only [exec, bind_eq_ok, pure_eq_ok] at h
    obtain ⟨tree, _, _, _, rfl⟩ := h
    exact sameOutside_eraseAt hc s tree path
  | rename shelf =>
    cases shelf with
    | root =>
      obtain ⟨root, hroot, rfl⟩ := map_eq_ok.mp h
      exact .of_root fun _ hn => lookup_renameEntry hroot hc hn
    | generations =>
      obtain ⟨generations, htrees, rfl⟩ := map_eq_ok.mp h
      exact .of_trees fun _ hn => lookup_renameEntry htrees hc hn
    | leases =>
      obtain ⟨leases, hleases, rfl⟩ := map_eq_ok.mp h
      exact .of_leases fun _ hn => lookup_renameEntry hleases hc hn
  | exchange shelf =>
    cases shelf with
    | root =>
      obtain ⟨root, hroot, rfl⟩ := map_eq_ok.mp h
      exact .of_root fun _ hn => lookup_exchangeEntries hroot hc hn
    | generations =>
      obtain ⟨generations, htrees, rfl⟩ := map_eq_ok.mp h
      exact .of_trees fun _ hn => lookup_exchangeEntries htrees hc hn
    | leases =>
      obtain ⟨leases, hleases, rfl⟩ := map_eq_ok.mp h
      exact .of_leases fun _ hn => lookup_exchangeEntries hleases hc hn
  | syncFile | syncTree | sync =>
    cases h
    exact .refl scope s

/-! ## Programs -/

theorem meets_sameOutside {σ α : Type} {M : Machine σ Store Call String} (hM : Faithful M)
    {p : Run α} (hp : p.Issues (Call.Within scope)) (s : σ) :
    M.Meets (fun _ t => SameOutside scope (M.view s) (M.view t))
      (fun t c => SameOutside scope (M.view s) (M.view t) ∧ c.Within scope) p s := by
  refine Machine.meets_of_issues hp ?_ (.refl scope (M.view s))
  intro t c answer t' hc ht hstep
  rcases hM t c answer t' hstep with ⟨_, hexec⟩ | ⟨_, hview⟩
  · exact ht.trans (sameOutside_exec hc hexec)
  · rw [hview]
    exact ht

theorem issues_writeSyncedFile (h : scope.covers place) (bytes : Bytes) :
    (writeSyncedFile place bytes).Issues (Call.Within scope) := by
  refine (issues_issue (c := Call.create place) h).bind fun _ => ?_
  refine (issues_forM fun byte _ => issues_issue (c := Call.append place byte) h).bind fun _ => ?_
  exact issues_issue trivial

theorem issues_removeTreeAt (name : Bytes) (fuel : ℕ) (path : List Bytes) :
    (removeTreeAt name fuel path).Issues (Call.Within (.ofTrees (· = name))) := by
  induction fuel generalizing path with
  | zero => trivial
  | succ fuel ih =>
    intro s
    refine Issues.bind (p := liftM (s.tree name)) trivial fun tree => ?_
    split
    · refine (issues_forM fun child _ => ih (path ++ [child])).bind fun _ => ?_
      exact (issues_issue (c := Call.syncTree name path) trivial).bind fun _ => issues_issue rfl
    · exact issues_issue rfl
    · trivial

theorem issues_removeTree (name : Bytes) :
    (removeTree name).Issues (Call.Within (.ofTrees (· = name))) := by
  intro s
  exact Issues.bind (p := liftM (s.tree name)) trivial fun tree => issues_removeTreeAt name _ []

theorem issues_cleanStaging :
    cleanStaging.Issues (Call.Within (.ofTrees fun name => isStagingName name = true)) := by
  intro s
  refine (issues_forM fun name hname => ?_).bind fun _ => issues_issue trivial
  have hstaging : isStagingName name = true := by simpa using (List.mem_filter.mp hname).2
  refine (issues_removeTree name).mono fun c hc => hc.mono (Scope.ofTrees_le ?_)
  rintro _ rfl
  exact hstaging

theorem issues_cleanPublicationOrderStaging :
    cleanPublicationOrderStaging.Issues (Call.Within (.ofRoot (· = orderStagingName))) := by
  intro s
  refine Issues.bind (p := liftM (validateOptionalControl s _ _)) trivial fun present => ?_
  cases present with
  | true => exact (issues_issue (by rfl)).bind fun _ => issues_issue trivial
  | false => trivial

theorem issues_replacePublicationOrder (order : PublicationOrder) :
    (replacePublicationOrder order).Issues
      (Call.Within (.ofRoot fun n => n = orderStagingName ∨ n = publicationOrderName)) := by
  refine (issues_writeSyncedFile (by exact .inl rfl) order.encode).bind fun _ => ?_
  refine (issues_issue (c := Call.rename .root _ _) ⟨.inl rfl, .inr rfl⟩).bind fun _ => ?_
  exact issues_issue trivial

theorem issues_makeDirectory (name : Bytes) (directory : List Bytes) :
    (makeDirectory name directory).Issues (Call.Within (.ofTrees (· = name))) := by
  refine (issues_issue (by rfl)).attempt.bind fun answer => ?_
  cases answer with
  | ok => exact issues_issue trivial
  | error =>
    dsimp only
    split_ifs
    · trivial
    · trivial

theorem issues_stageTree [Sha256] (publication : GenerationPublication) (g : GenerationId) :
    (stageTree publication g).Issues (Call.Within (.ofTrees (· = stagingName g))) := by
  have hfile : ∀ path bytes, (writeSyncedFile (.tree (stagingName g) path) bytes).Issues
      (Call.Within (.ofTrees (· = stagingName g))) := fun path bytes =>
    issues_writeSyncedFile (by rfl) bytes
  refine (issues_issue (by rfl)).bind fun _ => ?_
  refine (issues_forM fun output _ => ?_).bind fun _ => ?_
  · refine (issues_forM fun directory _ => issues_makeDirectory _ _).bind fun _ => ?_
    exact (hfile _ _).bind fun _ => issues_issue trivial
  · refine (hfile _ _).bind fun _ => (hfile _ _).bind fun _ => (hfile _ _).bind fun _ => ?_
    exact issues_issue trivial

end Realm.Theme

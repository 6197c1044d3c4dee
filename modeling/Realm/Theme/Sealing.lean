import Realm.Theme.Manifest

/-!
# A published tree is valid

The manifest a publication writes parses back to its outputs and digests, and a
tree that holds what the publication wrote and nothing else passes validation.
-/

namespace Realm.Theme

open Text List

variable {c digest path : Bytes} {directory : List Bytes}

/-! ## The pieces of a manifest -/

theorem printable_digest (h : sha256Digest digest = true) : Printable digest := by
  simp only [sha256Digest, Bool.and_eq_true] at h
  exact .of_all printable_of_isLowerHex h.2

theorem digest_ne_nil (h : sha256Digest digest = true) : digest ≠ [] := by
  rintro rfl
  exact absurd h (by decide)

theorem isPathByte_of_safe (h : safeOutputPath path = true) : path.all isPathByte = true := by
  simp only [safeOutputPath, Bool.and_eq_true] at h
  exact h.1.1.1.1.2

theorem printable_path (h : safeOutputPath path = true) : Printable path :=
  .of_all (by decide +kernel) (isPathByte_of_safe h)

theorem space_not_mem_path (h : safeOutputPath path = true) : space ∉ path := by
  have hbyte : isPathByte space = false := by decide +kernel
  intro hmem
  rw [all_eq_true.mp (isPathByte_of_safe h) space hmem] at hbyte
  cases hbyte

theorem ne_nil_of_safe (h : safeOutputPath path = true) : path ≠ [] := by
  rintro rfl
  exact absurd h (by decide)

theorem digestValues_zipWith (names : List String) (digests rest : List Bytes)
    (hlength : names.length = digests.length)
    (hvalid : ∀ digest ∈ digests, sha256Digest digest = true) :
    Manifest.digestValues names (List.zipWith recordLine names digests ++ rest) =
      .ok (digests, rest) := by
  induction names generalizing digests with
  | nil =>
    rw [eq_nil_of_length_eq_zero hlength.symm]
    rfl
  | cons name names ih =>
    cases digests with
    | nil => cases hlength
    | cons digest digests =>
      have hdigest := hvalid digest mem_cons_self
      simp only [zipWith_cons_cons, cons_append, Manifest.digestValues,
        Manifest.digestValue, recordValue_recordLine _ _ (digest_ne_nil hdigest), hdigest,
        check_true, bind, Except.bind, pure, Except.pure,
        ih digests (Nat.succ_inj.mp hlength) fun d hd => hvalid d (mem_cons_of_mem _ hd)]

theorem outputEntries_outputLine (entries : List (Bytes × Bytes)) (previous : Option Bytes)
    (hprevious : ∀ path ∈ previous, ∀ entry ∈ entries, path < entry.1)
    (hsorted : entries.Pairwise fun a b => a.1 < b.1)
    (hsafe : ∀ entry ∈ entries, safeOutputPath entry.1 = true ∧ sha256Digest entry.2 = true) :
    Manifest.outputEntries previous (entries.map fun entry => outputLine entry.1 entry.2) =
      .ok entries := by
  induction entries generalizing previous with
  | nil => rfl
  | cons entry entries ih =>
    obtain ⟨hpath, hdigest⟩ := hsafe entry mem_cons_self
    have hline : outputLine entry.1 entry.2 =
        ascii "output " ++ (entry.1 ++ space :: entry.2) := by
      simp [outputLine]
    have hall : previous.all (· < entry.1) = true := by
      cases previous with
      | none => rfl
      | some path => exact decide_eq_true (hprevious path rfl entry mem_cons_self)
    obtain ⟨hhead, htail⟩ := pairwise_cons.mp hsorted
    have hrest := ih (some entry.1) (by simpa using fun a b hab => hhead (a, b) hab) htail
      fun e he => hsafe e (mem_cons_of_mem _ he)
    simp only [map_cons, Manifest.outputEntries, hline, stripPrefix_append, okOr,
      splitOnce_append _ (space_not_mem_path hpath), hall, hrest, hpath, hdigest,
      ne_nil_of_safe hpath, ne_eq, not_false_eq_true, and_self, decide_true, check_true, bind,
      Except.bind, pure, Except.pure]

theorem printable_outputLine (hpath : safeOutputPath path = true)
    (hdigest : sha256Digest digest = true) : Printable (outputLine path digest) :=
  ((Printable.append (by decide +kernel) (printable_path hpath)).append (by decide +kernel)).append
    (printable_digest hdigest)

theorem printable_digestName {name : String} (h : name ∈ digestNames) : Printable (ascii name) := by
  have hall : ∀ name ∈ digestNames, Printable (ascii name) := by decide +kernel
  exact hall name h

theorem printable_zipWith {names : List String} {digests : List Bytes}
    (hnames : ∀ name ∈ names, Printable (ascii name))
    (hvalid : ∀ digest ∈ digests, sha256Digest digest = true) :
    ∀ line ∈ List.zipWith recordLine names digests, Printable line := by
  intro line hline
  rw [← map_uncurry_zip_eq_zipWith] at hline
  obtain ⟨⟨name, digest⟩, hmem, rfl⟩ := mem_map.mp hline
  obtain ⟨hname, hdigest⟩ := of_mem_zip hmem
  exact printable_recordLine (hnames name hname) (printable_digest (hvalid digest hdigest))

/-! ## Paths -/

theorem joinPath_components (path : Bytes) : joinPath (components path) = path :=
  intercalate_splitOn slash

theorem components_joinPath {path : List Bytes} (hne : path ≠ []) (h : ∀ c ∈ path, slash ∉ c) :
    components (joinPath path) = path :=
  splitOn_intercalate slash h hne

theorem slash_not_mem_component (h : c ∈ components path) : slash ∉ c :=
  fun hmem => (of_mem_splitOn h hmem).2 rfl

theorem mem_leadingDirectories {path : List Bytes} : directory ∈ leadingDirectories path ↔
      directory <+: path ∧ directory ≠ [] ∧ directory ≠ path := by
  simp [leadingDirectories, mem_inits]

theorem isUtf8_component (h : safeOutputPath path = true)
    (hc : c ∈ components path) : isUtf8 c = true :=
  isUtf8_of_ascii fun b hb => (printable_path h b (of_mem_splitOn hc hb).1).2

theorem component_not_reserved (h : safeOutputPath path = true)
    (hc : c ∈ components path) : c ∉ reservedComponents := by
  simp only [safeOutputPath, Bool.and_eq_true, all_eq_true] at h
  have hcomponent := h.2 c hc
  simp only [decide_eq_true_eq] at hcomponent
  exact hcomponent.1

theorem joinPath_leading_ne {name : Bytes}
    (hsafe : safeOutputPath path = true) (h : directory ∈ leadingDirectories (components path))
    (hname : name ∈ reservedComponents) : joinPath directory ≠ name := by
  obtain ⟨hstart, hne, _⟩ := mem_leadingDirectories.mp h
  have hslash : ∀ name ∈ reservedComponents, components name = [name] := by decide +kernel
  intro heq
  have hdirectory : directory = [name] := by
    rw [← hslash name hname, ← heq]
    exact (components_joinPath hne fun c hc =>
      slash_not_mem_component (hstart.subset hc)).symm
  refine component_not_reserved hsafe (hstart.subset ?_) hname
  rw [hdirectory]
  exact mem_singleton_self name

theorem GenerationPublication.joinPath_leading_not_mem (publication : GenerationPublication)
    {output output' : Bytes × Bytes}
    (ho : output ∈ publication.outputs) (ho' : output' ∈ publication.outputs)
    (h : directory ∈ leadingDirectories (components output.1)) :
    joinPath directory ≠ output'.1 := by
  obtain ⟨hstart, hne, _⟩ := mem_leadingDirectories.mp h
  intro heq
  have hdirectory : components output'.1 = directory := by
    rw [← heq]
    exact components_joinPath hne fun c hc => slash_not_mem_component (hstart.subset hc)
  have hapart := publication.outputs_apart output ho
  simp only [collides, any_eq_false, decide_eq_true_eq] at hapart
  exact hapart output' ho' (hdirectory ▸ h)

variable [Sha256]

namespace GenerationPublication

variable (publication : GenerationPublication) (generation : GenerationId) {tree : Tree}

/-- The manifest of a publication, as it parses. -/
def sealed : Manifest :=
  let receipt := publication.receipt generation
  ⟨publication.entries, generation, publication.inputDigests, digestHex receipt,
    publication.manifest generation receipt⟩

theorem safe_entries : ∀ entry ∈ publication.entries,
    safeOutputPath entry.1 = true ∧ sha256Digest entry.2 = true := by
  simp only [entries, forall_mem_map]
  exact fun output ho => ⟨publication.outputs_safe output ho, digestHex_valid _⟩

theorem entries_ne_nil : publication.entries ≠ [] := by
  simpa [entries] using publication.outputs_ne_nil

theorem printable_manifestLines (receipt : Bytes) :
    ∀ line ∈ publication.manifestLines generation receipt, Printable line := by
  simp only [manifestLines, forall_mem_cons, forall_mem_append, forall_mem_map]
  refine ⟨by decide +kernel, printable_recordLine (by decide +kernel) (printable_id _),
    printable_zipWith (fun name => printable_digestName) publication.digests_valid,
    printable_recordLine (by decide +kernel) (printable_digest (digestHex_valid _)), ?_⟩
  intro entry he
  obtain ⟨hpath, hdigest⟩ := publication.safe_entries entry he
  exact printable_outputLine hpath hdigest

theorem recordLines_manifest (record : String) (receipt : Bytes) :
    recordLines record (publication.manifest generation receipt) =
      .ok (publication.manifestLines generation receipt) :=
  recordLines_unlines record (cons_ne_nil _ _)
    (publication.printable_manifestLines generation receipt)

theorem parse_manifest :
    Manifest.parse (publication.manifest generation (publication.receipt generation)) =
      .ok (publication.sealed generation) := by
  obtain ⟨_, hends, hlines⟩ := recordLines_eq_ok.mp
    (publication.recordLines_manifest generation "" (publication.receipt generation))
  have hsorted : publication.entries.Pairwise fun a b => a.1 < b.1 :=
    pairwise_map.mpr publication.outputs_sorted
  have hentries := outputEntries_outputLine publication.entries none (by simp) hsorted
    publication.safe_entries
  simp only [Manifest.parse, hends, hlines, decide_true, check_true, not_false_eq_true, and_self,
    bind, Except.bind]
  simp only [manifestLines, head?_cons, tail_cons, decide_true, check_true,
    recordValue_recordLine _ _ (GenerationId.text_ne_nil _), GenerationId.parse_text,
    digestValues_zipWith digestNames publication.inputDigests _ publication.digests_length.symm
      publication.digests_valid,
    Manifest.digestValue, recordValue_recordLine _ _ (digest_ne_nil (digestHex_valid _)),
    digestHex_valid, hentries, publication.entries_ne_nil, ne_eq, not_false_eq_true,
    bind, Except.bind, pure, Except.pure]
  rfl

/-- A tree holds what the publication of the generation writes and nothing else. -/
structure Written (tree : Tree) : Prop where
  manifest : tree.lookup [ascii "manifest"] =
    some (.file (publication.manifest generation (publication.receipt generation)))
  receipt : tree.lookup [ascii "receipt"] = some (.file (publication.receipt generation))
  seal_eq : tree.lookup [ascii "seal"] = some (.file
    (digestHex (publication.manifest generation (publication.receipt generation)) ++ [lf]))
  outputs : ∀ output ∈ publication.outputs,
    tree.lookup (components output.1) = some (.file output.2)
  entries : ∀ path node, tree.lookup path = some node → path ≠ [] →
    (∃ bytes, node = .file bytes ∧
      (path = [ascii "manifest"] ∨ path = [ascii "receipt"] ∨ path = [ascii "seal"] ∨
        ∃ output ∈ publication.outputs, path = components output.1)) ∨
    node = .directory ∧
      ∃ output ∈ publication.outputs, path ∈ leadingDirectories (components output.1)

theorem Written.validateV1Tree (h : publication.Written generation tree) :
    tree.validateV1Tree (publication.sealed generation).entries = .ok () := by
  rw [Tree.validateV1Tree, Tree.validateDirectoryEntries, Guard.forM_eq_ok]
  rintro ⟨path, node⟩ hmem
  dsimp only
  split_ifs with hpath
  · rfl
  rcases h.entries path node (Map.mem_entries.mp hmem) hpath with
    ⟨bytes, rfl, hfile⟩ | ⟨rfl, output, ho, hdirectory⟩
  · -- a listed file
    have hutf8 : path.all isUtf8 = true := by
      rw [all_eq_true]
      intro c hc
      rcases hfile with rfl | rfl | rfl | ⟨output, ho, rfl⟩
      · rw [mem_singleton.mp hc]
        decide +kernel
      · rw [mem_singleton.mp hc]
        decide +kernel
      · rw [mem_singleton.mp hc]
        decide +kernel
      · exact isUtf8_component (publication.outputs_safe output ho) hc
    have hlisted : joinPath path ∈ ascii "manifest" :: ascii "receipt" :: ascii "seal" ::
        (publication.sealed generation).entries.map (·.1) := by
      simp only [mem_cons, mem_map]
      rcases hfile with rfl | rfl | rfl | ⟨output, ho, rfl⟩
      · exact .inl (by decide +kernel)
      · exact .inr (.inl (by decide +kernel))
      · exact .inr (.inr (.inl (by decide +kernel)))
      · exact .inr (.inr (.inr ⟨(output.1, digestHex output.2), mem_map_of_mem ho,
          (joinPath_components output.1).symm⟩))
    simp only [Tree.validateEntry, hutf8, check_true, hlisted, if_true, bind, Except.bind]
  · -- a directory on the way to an output
    have hsafe := publication.outputs_safe output ho
    obtain ⟨hstart, hne, _⟩ := mem_leadingDirectories.mp hdirectory
    have hutf8 : path.all isUtf8 = true :=
      all_eq_true.mpr fun c hc => isUtf8_component hsafe (hstart.subset hc)
    have hunlisted : joinPath path ∉ ascii "manifest" :: ascii "receipt" :: ascii "seal" ::
        (publication.sealed generation).entries.map (·.1) := by
      simp only [mem_cons, mem_map, not_or]
      refine ⟨joinPath_leading_ne hsafe hdirectory (by decide +kernel),
        joinPath_leading_ne hsafe hdirectory (by decide +kernel),
        joinPath_leading_ne hsafe hdirectory (by decide +kernel), ?_⟩
      rintro ⟨entry, he, heq⟩
      obtain ⟨output', ho', rfl⟩ := mem_map.mp he
      exact publication.joinPath_leading_not_mem ho ho' hdirectory heq.symm
    have hleads : joinPath path ∈ (publication.sealed generation).entries.flatMap fun entry =>
        (leadingDirectories (components entry.1)).map joinPath :=
      mem_flatMap.mpr ⟨(output.1, digestHex output.2), mem_map_of_mem ho, mem_map_of_mem hdirectory⟩
    simp only [Tree.validateEntry, hutf8, check_true, hunlisted, hleads, if_true, if_false, bind,
      Except.bind]

theorem Written.verifyOpenedGeneration (h : publication.Written generation tree) :
    tree.verifyOpenedGeneration generation = .ok (publication.sealed generation) := by
  have hutf8 := (recordLines_eq_ok.mp
    (publication.recordLines_manifest generation "" (publication.receipt generation))).1
  have hmetadata : tree.verifyV1Metadata generation (publication.sealed generation) = .ok () := by
    simp [Tree.verifyV1Metadata, Tree.readRegularBytes, h.manifest, h.receipt, h.seal_eq, sealed,
      GenerationPublication.receipt, bind, Except.bind]
  have hdigests : tree.verifyDigests (publication.sealed generation).entries = .ok () := by
    rw [Tree.verifyDigests, Guard.forM_eq_ok]
    simp only [sealed, GenerationPublication.entries, forall_mem_map]
    intro output ho
    simp [Tree.readRegularBytes, h.outputs output ho, bind, Except.bind]
  simp only [Tree.verifyOpenedGeneration, Tree.readRegularBytes, h.manifest, hutf8, check_true,
    publication.parse_manifest generation, Tree.verifyOpened, hmetadata, h.validateV1Tree, hdigests,
    bind, Except.bind, pure, Except.pure]

end GenerationPublication

end Realm.Theme

import Realm.Theme.Staging

/-!
# Trees written and trees accepted

Staging a publication under a free name succeeds, and the tree it leaves passes validation with a
manifest that lists the outputs and their digests.  A tree that passes validation holds the three
records, the files its manifest lists and the directories that lead to them, and nothing else.
-/

namespace Realm.Theme

open Text Prog Machine Guard List

/-! ## Accepted trees -/

variable [Sha256] {tree : Tree} {path : List Bytes}

/-- The tree holds the three records, the listed files and the directories that lead to them. -/
structure Tree.Lists (tree : Tree) (manifest : Manifest) : Prop where
  manifest_eq : tree.lookup [ascii "manifest"] = some (.file manifest.raw)
  receipt_eq : tree.lookup [ascii "receipt"] =
    some (.file (receiptText manifest.generation manifest.inputDigests))
  seal_eq : tree.lookup [ascii "seal"] = some (.file (digestHex manifest.raw ++ [lf]))
  listed : ∀ entry ∈ manifest.entries, ∃ bytes,
    tree.lookup (components entry.1) = some (.file bytes) ∧ digestHex bytes = entry.2
  files : ∀ path bytes, tree.lookup path = some (.file bytes) →
    path ∈ [[ascii "manifest"], [ascii "receipt"], [ascii "seal"]] ∨
      ∃ entry ∈ manifest.entries, path = components entry.1
  directories : ∀ path, tree.lookup path = some .directory ↔
    path = [] ∨ ∃ entry ∈ manifest.entries, path ∈ leadingDirectories (components entry.1)
  plain : ∀ path, tree.lookup path ≠ some .other

omit [Sha256] in
theorem Tree.readRegularBytes_eq_ok {bytes : Bytes} :
    tree.readRegularBytes path = .ok bytes ↔ tree.lookup path = some (.file bytes) := by
  rw [Tree.readRegularBytes]
  split <;> simp_all

omit [Sha256] in
theorem Tree.validateV1Tree_eq_ok {entries : List (Bytes × Bytes)} (hgrounded : tree.Grounded)
    (h : tree.validateV1Tree entries = .ok ()) {node : Node}
    (hlookup : tree.lookup path = some node) (hpath : path ≠ []) : (∃ bytes, node = .file bytes) ∧
        (path ∈ [[ascii "manifest"], [ascii "receipt"], [ascii "seal"]] ∨
          ∃ entry ∈ entries, path = components entry.1) ∨
      node = .directory ∧ ∃ entry ∈ entries, path ∈ leadingDirectories (components entry.1) := by
  have hrecords : components (ascii "manifest") = [ascii "manifest"] ∧
      components (ascii "receipt") = [ascii "receipt"] ∧
      components (ascii "seal") = [ascii "seal"] := by decide +kernel
  have hcomponents := components_joinPath hpath (hgrounded.names path node hlookup)
  have hentry := forM_eq_ok.mp h ⟨path, node⟩ (AList.mem_lookup_iff.mp hlookup)
  simp only [if_neg hpath, Tree.validateEntry, bind_eq_ok] at hentry
  obtain ⟨-, -, hentry⟩ := hentry
  split_ifs at hentry with hfile hdirectory
  · refine .inl ⟨?_, ?_⟩
    · rw [check_eq_ok] at hentry
      cases node with
      | file bytes => exact ⟨bytes, rfl⟩
      | directory | other => cases hentry
    · rw [← hcomponents]
      simp only [mem_cons, mem_map] at hfile
      rcases hfile with heq | heq | heq | ⟨entry, hmem, heq⟩
      · simp [heq, hrecords]
      · simp [heq, hrecords]
      · simp [heq, hrecords]
      · exact .inr ⟨entry, hmem, by rw [heq]⟩
  · refine .inr ⟨?_, ?_⟩
    · rw [check_eq_ok] at hentry
      cases node with
      | file => cases hentry
      | directory => rfl
      | other => cases hentry
    · obtain ⟨entry, hmem, hdirectory⟩ := mem_flatMap.mp hdirectory
      obtain ⟨directory, hlead, heq⟩ := mem_map.mp hdirectory
      obtain ⟨hstart, hne, -⟩ := mem_leadingDirectories.mp hlead
      refine ⟨entry, hmem, ?_⟩
      rw [← hcomponents, ← heq, components_joinPath hne fun c hc =>
        slash_not_mem_component (hstart.subset hc)]
      exact hlead

theorem Tree.lists_of_verify {g : GenerationId} {manifest : Manifest} (hgrounded : tree.Grounded)
    (h : tree.verifyOpenedGeneration g = .ok manifest) :
    manifest.generation = g ∧ tree.Lists manifest := by
  simp only [Tree.verifyOpenedGeneration, Tree.verifyOpened, Tree.verifyV1Metadata,
    bind_eq_ok, pure_eq_ok, check_eq_ok, Tree.readRegularBytes_eq_ok, decide_eq_true_eq] at h
  obtain ⟨bytes, hmanifest, _, _, parsed, hparse, _, ⟨_, ⟨_, hgeneration, _, hraw, _, rfl, _,
    hreceipt, _, _, _, rfl, _, hseal, rfl⟩, _, htree, hdigests⟩, rfl⟩ := h
  have hlisted : ∀ entry ∈ parsed.entries, ∃ bytes,
      tree.lookup (components entry.1) = some (.file bytes) ∧ digestHex bytes = entry.2 := by
    intro entry hmem
    have hentry := forM_eq_ok.mp hdigests entry hmem
    simpa only [bind_eq_ok, Tree.readRegularBytes_eq_ok, check_eq_ok,
      decide_eq_true_eq] using hentry
  have hroot : tree.lookup [] = some .directory :=
    hgrounded.parent _ _ hmanifest (cons_ne_nil _ _)
  refine ⟨hgeneration.symm, hraw, hreceipt, hseal, hlisted, fun path bytes hlookup => ?_,
    fun path => ⟨fun hlookup => ?_, ?_⟩, fun path hlookup => ?_⟩
  · have hpath : path ≠ [] := by
      rintro rfl
      rw [hroot] at hlookup
      cases hlookup
    rcases Tree.validateV1Tree_eq_ok hgrounded htree hlookup hpath with hfile | hdirectory
    · exact hfile.2
    · cases hdirectory.1
  · by_cases hpath : path = []
    · exact .inl hpath
    · rcases Tree.validateV1Tree_eq_ok hgrounded htree hlookup hpath with
        ⟨⟨bytes, heq⟩, -⟩ | hdirectory
      · cases heq
      · exact .inr hdirectory.2
  · rintro (rfl | ⟨entry, hmem, hlead⟩)
    · exact hroot
    · obtain ⟨bytes, hlookup, -⟩ := hlisted entry hmem
      exact hgrounded.leading hlookup hlead
  · have hpath : path ≠ [] := by
      rintro rfl
      rw [hroot] at hlookup
      cases hlookup
    rcases Tree.validateV1Tree_eq_ok hgrounded htree hlookup hpath with
      ⟨⟨bytes, heq⟩, -⟩ | hdirectory
    · cases heq
    · cases hdirectory.1

omit [Sha256] in
theorem GenerationPublication.outputs_of_new {digests : List Bytes} {hlength : digests.length = 5}
    {outputs : List (Bytes × Bytes)} {publication : GenerationPublication}
    (h : GenerationPublication.new digests hlength outputs = .ok publication) :
    publication.inputDigests = digests ∧ publication.outputs.Perm outputs := by
  rw [GenerationPublication.new] at h
  split_ifs at h with hdigests hne hsorted
  split at h
  · cases h
    exact ⟨rfl, mergeSort_perm _ _⟩
  · cases h

/-- The tree that a publication writes is accepted and lists its outputs with their digests.  An
accepted tree holds the three records, the listed files, each with its listed digest, and the
directories that lead to them, and nothing else. -/
theorem accepted_trees :
    (∀ (digests : List Bytes) (hlength : digests.length = 5) (outputs : List (Bytes × Bytes))
      (publication : GenerationPublication) (g : GenerationId) (s : Store),
      GenerationPublication.new digests hlength outputs = .ok publication →
      stagingName g ∉ s.generations →
      ∃ s' tree manifest, (stageTree publication g).run Store.exec s = (.ok (), s') ∧
        s'.generations.lookup (stagingName g) = some tree ∧ tree.Grounded ∧
        tree.verifyOpenedGeneration g = .ok manifest ∧ manifest.inputDigests = digests ∧
        manifest.entries.Perm (outputs.map fun output => (output.1, digestHex output.2)) ∧
        ∀ t : Store, t.generations.lookup g.text = some tree → t.validateGeneration g = .ok ()) ∧
    ∀ (tree : Tree) (g : GenerationId) (manifest : Manifest), tree.Grounded →
      tree.verifyOpenedGeneration g = .ok manifest →
      manifest.generation = g ∧ tree.Lists manifest := by
  refine ⟨fun digests hlength outputs publication g s hnew hfree => ?_,
    fun tree g manifest => Tree.lists_of_verify⟩
  obtain ⟨hrun, tree, htree⟩ := (meets_stageTree_free publication g hfree).run
  obtain ⟨hdigests, hperm⟩ := GenerationPublication.outputs_of_new hnew
  have hverify := htree.staged.written.verifyOpenedGeneration
  refine ⟨_, tree, publication.sealed g, Prod.ext hrun rfl, htree.here, htree.grounded, hverify,
    hdigests, hperm.map _, fun t ht => ?_⟩
  simp only [Store.validateGeneration, Store.tree, ht, okOr, ok_bind, htree.staged.root,
    hverify]
  rfl

omit [Sha256] in
/-- Two outputs, given in the other order, one of them in a directory. -/
theorem accepted_trees_nested :
    letI := blankSha256
    ∃ (tree : Tree) (g : GenerationId) (manifest : Manifest),
      tree.verifyOpenedGeneration g = .ok manifest ∧ manifest.entries.Perm
        [(ascii "gtk/theme", digestHex [1]), (ascii "bar", digestHex [2])] ∧
      tree.Lists manifest := by
  let _ := blankSha256
  let digests : List Bytes := List.replicate 5 (List.replicate 64 48)
  let outputs : List (Bytes × Bytes) := [(ascii "gtk/theme", [1]), (ascii "bar", [2])]
  have hle : ascii "bar" ≤ ascii "gtk/theme" ∧ ¬ ascii "gtk/theme" ≤ ascii "bar" := by
    decide +kernel
  have hsort : (outputs.mergeSort fun a b => a.1 ≤ b.1) =
      [(ascii "bar", [2]), (ascii "gtk/theme", [1])] := by
    simp [outputs, mergeSort, MergeSort.Internal.splitInTwo, hle]
  obtain ⟨publication, hnew⟩ : ∃ publication,
      GenerationPublication.new digests rfl outputs = .ok publication := by
    have hcheck : (GenerationPublication.checkOutputs
        [(ascii "bar", [2]), (ascii "gtk/theme", [1])]).isOk = true := by decide +kernel
    unfold GenerationPublication.new
    rw [dif_pos (by decide +kernel), dif_pos (by simp [hsort]),
      dif_pos (by rw [hsort]; decide +kernel)]
    split
    · exact ⟨_, rfl⟩
    · rename_i herror
      rw [hsort] at herror
      rw [herror] at hcheck
      cases hcheck
  obtain ⟨_, tree, manifest, _, _, hgrounded, hverify, _, hentries, _⟩ := accepted_trees.1 digests
    rfl outputs publication ⟨List.replicate 32 48, by decide +kernel⟩ ⟨0, ∅, ∅, ∅⟩ hnew (by simp)
  exact ⟨tree, _, manifest, hverify, hentries, (accepted_trees.2 tree _ manifest hgrounded
    hverify).2⟩

end Realm.Theme

import Realm.Theme.Scope
import Realm.Theme.Sealing
import Realm.Theme.Inventory

/-!
# Staging a tree

The program that writes a publication's tree under its staging name leaves exactly the
files of the publication and the directories that lead to them; the tree then passes
validation under its final name.
-/

namespace Realm.Theme

open Text Prog Machine Guard List Store

variable {path : List Bytes} {tree tree' : Tree} {node : Node} {bytes : Bytes}
  {directory : List Bytes}

/-! ## One file -/

/-- The tree differs from another in one file. -/
def Tree.Adds (tree tree' : Tree) (path : List Bytes) (bytes : Bytes) : Prop :=
  ∀ q, tree'.lookup q = if q = path then some (.file bytes) else tree.lookup q

theorem Tree.add_eq_ok (h : tree.add path node = .ok tree') :
    tree.lookup path = none ∧ tree' = tree.insert path node := by
  simp only [Tree.add, bind_eq_ok, ite_error_eq_ok] at h
  obtain ⟨_, _, hpath, h⟩ := h
  cases h
  exact ⟨AList.lookup_eq_none.mpr hpath, rfl⟩

theorem Tree.Adds.append {tree'' : Tree} {byte : Byte} (h : tree.Adds tree' path bytes)
    (happend : tree'.append path byte = .ok tree'') : tree.Adds tree'' path (bytes ++ [byte]) := by
  have hpath : tree'.lookup path = some (.file bytes) := by rw [h, if_pos rfl]
  rw [Tree.append, hpath] at happend
  cases happend
  intro q
  rw [Tree.lookup_insert, h]
  split_ifs
  · rfl
  · rfl

theorem lookup_setTree (s : Store) (name : Bytes) (tree : Tree) :
    (s.setTree name tree).generations.lookup name = some tree :=
  AList.lookup_insert _

/-! ## Directories of a tree -/

theorem pairwise_length_inits {α : Type} (l : List α) :
    l.inits.Pairwise fun a b => a.length < b.length := by
  induction l with
  | nil => exact pairwise_singleton _ _
  | cons a l ih =>
    rw [inits_cons, pairwise_cons, pairwise_map]
    refine ⟨?_, ih.imp fun h => Nat.succ_lt_succ h⟩
    simp

theorem dropLast_leading (hstart : directory <+: path) (hne : directory ≠ []) :
    directory.dropLast = [] ∨ directory.dropLast ∈ leadingDirectories path := by
  by_cases hnil : directory.dropLast = []
  · exact .inl hnil
  · refine .inr (mem_leadingDirectories.mpr
      ⟨( dropLast_prefix directory).trans hstart, hnil, fun heq => ?_⟩)
    have hlength := hstart.length_le
    rw [← heq, length_dropLast] at hlength
    have hpos := length_pos_iff.mpr hne
    omega

theorem dropLast_mem_of_append {before after : List (List Bytes)}
    (h : before ++ directory :: after = leadingDirectories path) :
    directory.dropLast = [] ∨ directory.dropLast ∈ before := by
  have hsorted : (leadingDirectories path).Pairwise fun a b => a.length < b.length :=
    (pairwise_length_inits path).filter _
  have hmem : directory ∈ leadingDirectories path := by
    rw [← h]
    exact mem_append_right _ mem_cons_self
  obtain ⟨hstart, hne, -⟩ := mem_leadingDirectories.mp hmem
  refine (dropLast_leading hstart hne).imp_right fun hdrop => ?_
  rw [← h, mem_append, mem_cons] at hdrop
  have hpos := length_pos_iff.mpr hne
  have hlength : directory.dropLast.length = directory.length - 1 := length_dropLast
  rcases hdrop with hdrop | heq | hafter
  · exact hdrop
  · rw [heq] at hlength
    omega
  · rw [← h] at hsorted
    have hlt := (pairwise_cons.mp (pairwise_append.mp hsorted).2.1).1 _ hafter
    omega

namespace Tree

/-- Every entry lies in a directory and has a name. -/
structure Grounded (tree : Tree) : Prop where
  parent : ∀ path node, tree.lookup path = some node → path ≠ [] →
    tree.lookup path.dropLast = some .directory
  names : ∀ path node, tree.lookup path = some node → ∀ name ∈ path, slash ∉ name

variable {tree tree' : Tree} {path : List Bytes}

theorem lookup_emptyDirectory (h : path ≠ []) : emptyDirectory.lookup path = none := by
  rw [lookup, emptyDirectory, Map.lookup_insert_eq, if_neg h]
  rfl

theorem grounded_emptyDirectory : emptyDirectory.Grounded := by
  have hnil : ∀ path node, emptyDirectory.lookup path = some node → path = [] := by
    intro path node hlookup
    by_contra hpath
    cases (lookup_emptyDirectory hpath).symm.trans hlookup
  refine ⟨fun path node hlookup hpath => absurd (hnil path node hlookup) hpath,
    fun path node hlookup name hname => ?_⟩
  rw [hnil path node hlookup] at hname
  exact absurd hname not_mem_nil

theorem Grounded.leading (h : tree.Grounded) (hlookup : tree.lookup path = some node)
    (hleads : directory ∈ leadingDirectories path) : tree.lookup directory = some .directory := by
  induction path using reverseRecOn generalizing node with
  | nil => exact absurd hleads (by simp [leadingDirectories])
  | append_singleton path name ih =>
    obtain ⟨hstart, hne, hne'⟩ := mem_leadingDirectories.mp hleads
    have hparent := h.parent _ _ hlookup (by simp)
    rw [dropLast_concat] at hparent
    have hstart' : directory <+: path := (prefix_concat_iff.mp hstart).resolve_left hne'
    rcases eq_or_ne directory path with rfl | hproper
    · exact hparent
    · exact ih hparent (mem_leadingDirectories.mpr ⟨hstart', hne, hproper⟩)

/-- What is there stays when a free path is taken. -/
theorem kept {q : List Bytes} {node' : Node}
    (hextend : ∀ q, tree'.lookup q = if q = path then some node else tree.lookup q)
    (hfree : tree.lookup path = none) (hq : tree.lookup q = some node') :
    tree'.lookup q = some node' := by
  rw [hextend, if_neg, hq]
  rintro rfl
  cases hfree.symm.trans hq

theorem Grounded.extend (h : tree.Grounded)
    (hextend : ∀ q, tree'.lookup q = if q = path then some node else tree.lookup q)
    (hparent : tree.lookup path.dropLast = some .directory) (hfree : tree.lookup path = none)
    (hnames : ∀ name ∈ path, slash ∉ name) : tree'.Grounded := by
  refine ⟨fun q node' hq hne => ?_, fun q node' hq => ?_⟩
  · rw [hextend] at hq
    split_ifs at hq with heq
    · rw [heq]
      exact kept hextend hfree hparent
    · exact kept hextend hfree (h.parent q node' hq hne)
  · rw [hextend] at hq
    split_ifs at hq with heq
    · rw [heq]
      exact hnames
    · exact h.names q node' hq

theorem add_eq_of_free (hparent : tree.lookup path.dropLast = some .directory)
    (hfree : tree.lookup path = none) : tree.add path node = .ok (tree.insert path node) := by
  have hmem : path ∉ tree.entries := AList.lookup_eq_none.mp hfree
  simp only [add, requireDirectory, hparent, ok_bind, if_neg hmem]

end Tree

/-! ## The tree being staged -/

/-- The tree holds these files and, besides them, only directories that lead to outputs of
the publication. -/
structure Staged (publication : GenerationPublication) (files : List (List Bytes × Bytes))
    (tree : Tree) : Prop where
  root : tree.lookup [] = some .directory
  here : ∀ file ∈ files, tree.lookup file.1 = some (.file file.2)
  only : ∀ path node, tree.lookup path = some node → path ≠ [] →
    (∃ bytes, node = .file bytes ∧ (path, bytes) ∈ files) ∨
    node = .directory ∧
      ∃ output ∈ publication.outputs, path ∈ leadingDirectories (components output.1)

namespace Staged

variable {publication : GenerationPublication} {files : List (List Bytes × Bytes)}
  {tree tree' : Tree}

theorem empty (publication : GenerationPublication) :
    Staged publication [] Tree.emptyDirectory where
  root := AList.lookup_insert _
  here _ hfile := absurd hfile not_mem_nil
  only path node hlookup hpath := by
    cases (Tree.lookup_emptyDirectory hpath).symm.trans hlookup

theorem adds (h : Staged publication files tree) (hpath : tree.lookup path = none)
    (hadds : tree.Adds tree' path bytes) : Staged publication (files ++ [(path, bytes)]) tree' := by
  refine ⟨Tree.kept hadds hpath h.root, ?_, ?_⟩
  · intro file hfile
    rw [mem_append, mem_singleton] at hfile
    rcases hfile with hfile | rfl
    · exact Tree.kept hadds hpath (h.here file hfile)
    · rw [hadds, if_pos rfl]
  · intro q node hlookup hq
    rw [hadds] at hlookup
    split_ifs at hlookup with hqp
    · cases hlookup
      subst hqp
      exact .inl ⟨bytes, rfl, mem_append_right _ (mem_singleton_self _)⟩
    · rcases h.only q node hlookup hq with ⟨bytes', hnode, hmem⟩ | hdirectory
      · exact .inl ⟨bytes', hnode, mem_append_left _ hmem⟩
      · exact .inr hdirectory

theorem mkdir (h : Staged publication files tree)
    (hleads : ∃ output ∈ publication.outputs, path ∈ leadingDirectories (components output.1))
    (hadd : tree.add path .directory = .ok tree') : Staged publication files tree' := by
  obtain ⟨hpath, rfl⟩ := Tree.add_eq_ok hadd
  have hinsert := (Tree.lookup_insert tree path · .directory)
  refine ⟨Tree.kept hinsert hpath h.root,
    fun file hfile => Tree.kept hinsert hpath (h.here file hfile), fun q node hlookup hq => ?_⟩
  rw [Tree.lookup_insert] at hlookup
  split_ifs at hlookup with hqp
  · cases hlookup
    subst hqp
    exact .inr ⟨rfl, hleads⟩
  · exact h.only q node hlookup hq

end Staged

/-- The staged tree lies under this name. -/
def Holds (publication : GenerationPublication) (name : Bytes) (files : List (List Bytes × Bytes))
    (s : Store) : Prop :=
  ∃ tree, s.generations.lookup name = some tree ∧ Staged publication files tree

def GenerationPublication.files [Sha256] (publication : GenerationPublication) (g : GenerationId) :
    List (List Bytes × Bytes) :=
  publication.outputs.map (fun output => (components output.1, output.2)) ++
    [([ascii "receipt"], publication.receipt g),
     ([ascii "manifest"], publication.manifest g (publication.receipt g)),
     ([ascii "seal"], digestHex (publication.manifest g (publication.receipt g)) ++ [lf])]

/-! ## Writing a tree -/

section Writing

variable {publication : GenerationPublication} {name : Bytes}
  {files : List (List Bytes × Bytes)} {s : Store} {tree : Tree} {directory path : List Bytes}
  {bytes record : Bytes} {output : Bytes × Bytes} {written : List (Bytes × Bytes)}

theorem meets_writeSyncedFile_free (htree : s.generations.lookup name = some tree)
    (hparent : tree.lookup path.dropLast = some .directory) (hfree : tree.lookup path = none) :
    machine.Meets (fun r s' => r = .ok () ∧ ∃ tree', s'.generations.lookup name = some tree' ∧
        tree.Adds tree' path bytes)
      (fun _ _ => True) (writeSyncedFile (.tree name path) bytes) s := by
  have hcreate : Store.exec (.create (.tree name path)) s =
      .ok (s.setTree name (tree.insert path (.file []))) := by
    simp only [Store.exec, Store.tree, htree, okOr, ok_bind, Tree.add_eq_of_free hparent hfree]
    rfl
  rw [writeSyncedFile]
  refine (meets_issue_bind_of_ok hcreate).mpr ⟨trivial, ?_⟩
  rw [meets_bind]
  refine meets_forM (J := fun rest s' => ∃ tree' written, s'.generations.lookup name = some tree' ∧
    written ++ rest = bytes ∧ tree.Adds tree' path written) ?_ ?_ bytes
    ⟨_, [], lookup_setTree s name _, rfl, fun q => Tree.lookup_insert tree path q _⟩
  · rintro byte rest t ⟨tree', written, htree', hbytes, hadds⟩
    have hpath : tree'.lookup path = some (.file written) := by rw [hadds, if_pos rfl]
    have happend : tree'.append path byte =
        .ok (tree'.insert path (.file (written ++ [byte]))) := by
      rw [Tree.append, hpath]
    have hexec : Store.exec (.append (.tree name path) byte) t =
        .ok (t.setTree name (tree'.insert path (.file (written ++ [byte])))) := by
      simp only [Store.exec, Store.tree, htree', okOr, ok_bind, happend]
      rfl
    refine (meets_issue_of_ok hexec).mpr ⟨trivial, ?_⟩
    rw [then_ok]
    refine ⟨_, written ++ [byte], lookup_setTree t name _, ?_, hadds.append happend⟩
    rw [append_assoc, singleton_append, hbytes]
  · rintro t ⟨tree', written, htree', hbytes, hadds⟩
    rw [append_nil] at hbytes
    subst hbytes
    rw [then_ok]
    exact (meets_issue_of_ok (Store.exec_syncFile _ t)).mpr ⟨trivial, rfl, tree', htree', hadds⟩

/-- The tree staged so far. -/
structure Growing (publication : GenerationPublication) (name : Bytes)
    (files : List (List Bytes × Bytes)) (s : Store) (tree : Tree) : Prop where
  here : s.generations.lookup name = some tree
  staged : Staged publication files tree
  grounded : tree.Grounded

theorem Growing.writeSyncedFile (h : Growing publication name files s tree)
    (hparent : tree.lookup path.dropLast = some .directory) (hfree : tree.lookup path = none)
    (hnames : ∀ c ∈ path, slash ∉ c) : machine.Meets (fun r s' => r = .ok () ∧
        ∃ tree', Growing publication name (files ++ [(path, bytes)]) s' tree')
      (fun _ _ => True) (writeSyncedFile (.tree name path) bytes) s := by
  refine (meets_writeSyncedFile_free h.here hparent hfree).post ?_
  rintro r s' ⟨hr, tree', htree', hadds⟩
  exact ⟨hr, tree', htree', h.staged.adds hfree hadds, h.grounded.extend hadds hparent hfree hnames⟩

theorem Growing.makeDirectory (h : Growing publication name files s tree)
    (hleads : ∃ output ∈ publication.outputs, directory ∈ leadingDirectories (components output.1))
    (hparent : tree.lookup directory.dropLast = some .directory)
    (happart : ∀ bytes, (directory, bytes) ∉ files) :
    machine.Meets (fun r s' => r = .ok () ∧ ∃ tree', Growing publication name files s' tree' ∧
        tree'.lookup directory = some .directory ∧
        ∀ q, tree.lookup q = some .directory → tree'.lookup q = some .directory)
      (fun _ _ => True) (makeDirectory name directory) s := by
  obtain ⟨output, ho, hmem⟩ := hleads
  obtain ⟨hstart, hne, -⟩ := mem_leadingDirectories.mp hmem
  have hnames : ∀ c ∈ directory, slash ∉ c := fun c hc =>
    slash_not_mem_component (hstart.subset hc)
  obtain ⟨component, path, rfl⟩ := exists_cons_of_ne_nil hne
  rw [Theme.makeDirectory, meets_bind, meets_attempt]
  cases hlookup : tree.lookup (component :: path) with
  | none =>
    have hadd : tree.add (component :: path) .directory = _ :=
      Tree.add_eq_of_free hparent hlookup
    have hexec : Store.exec (.mkdir name (component :: path)) s =
        .ok (s.setTree name (tree.insert (component :: path) .directory)) := by
      simp only [Store.exec, Store.tree, h.here, okOr, ok_bind, hadd]
      rfl
    refine (meets_issue_of_ok hexec).mpr ⟨trivial, ?_⟩
    rw [then_ok]
    refine (meets_issue_of_ok (Store.exec_syncTree _ _ _)).mpr ⟨trivial, rfl, _,
      ⟨lookup_setTree s name _, h.staged.mkdir ⟨output, ho, hmem⟩ hadd,
        h.grounded.extend (Tree.lookup_insert tree _ · _) hparent hlookup hnames⟩, ?_,
      fun q => Tree.kept (Tree.lookup_insert tree _ · _) hlookup⟩
    rw [Tree.lookup_insert, if_pos rfl]
  | some =>
    -- an entry of the staged tree at this path is a directory
    have hnode : tree.lookup (component :: path) = some .directory := by
      rcases h.staged.only _ _ hlookup hne with ⟨bytes, -, hfile⟩ | ⟨rfl, -⟩
      · exact absurd hfile (happart bytes)
      · exact hlookup
    have hmem' : component :: path ∈ tree.entries := Map.mem_iff_lookup.mpr ⟨_, hlookup⟩
    have hexec : Store.exec (.mkdir name (component :: path)) s = .error Errno.exist := by
      simp only [Store.exec, Store.tree, h.here, okOr, ok_bind, Tree.add,
        Tree.requireDirectory, hparent, if_pos hmem']
      rfl
    refine (meets_issue_of_error hexec).mpr ⟨trivial, ?_⟩
    rw [then_ok]
    dsimp only
    rw [if_pos rfl]
    exact ⟨rfl, tree, h, hnode, fun _ hq => hq⟩

theorem Growing.writeOutput (h : Growing publication name files s tree)
    (ho : output ∈ publication.outputs) (hfree : ∀ bytes, (components output.1, bytes) ∉ files)
    (hleads : ∀ directory ∈ leadingDirectories (components output.1),
      ∀ bytes, (directory, bytes) ∉ files) : machine.Meets (fun r s' => r = .ok () ∧
        ∃ tree', Growing publication name (files ++ [(components output.1, output.2)]) s' tree')
      (fun _ _ => True) (writeOutput name output.1 output.2) s := by
  have hpath : components output.1 ≠ [] := splitOn_ne_nil _ _
  rw [Theme.writeOutput, meets_bind]
  -- the directories made so far are there, so the next one has a parent
  refine meets_forM (J := fun rest s' => ∃ tree' made, Growing publication name files s' tree' ∧
    made ++ rest = leadingDirectories (components output.1) ∧
    ∀ directory ∈ made, tree'.lookup directory = some .directory) ?_ ?_ _
    ⟨tree, [], h, rfl, fun _ hd => absurd hd not_mem_nil⟩
  · rintro directory rest t ⟨tree', made, ht, hmade, hdirectories⟩
    have hmem : directory ∈ leadingDirectories (components output.1) := by
      rw [← hmade]
      exact mem_append_right _ mem_cons_self
    have hparent : tree'.lookup directory.dropLast = some .directory := by
      rcases dropLast_mem_of_append hmade with hnil | hdrop
      · rw [hnil]
        exact ht.staged.root
      · exact hdirectories _ hdrop
    refine (ht.makeDirectory ⟨output, ho, hmem⟩ hparent (hleads directory hmem)).post ?_
    rintro r t' ⟨rfl, tree'', ht', hhere, hkept⟩
    rw [then_ok]
    refine ⟨tree'', made ++ [directory], ht', by rw [append_assoc, singleton_append, hmade],
      fun d hd => ?_⟩
    rcases mem_append.mp hd with hd | hd
    · exact hkept d (hdirectories d hd)
    · rw [mem_singleton.mp hd]
      exact hhere
  · rintro t ⟨tree', made, ht, hmade, hdirectories⟩
    rw [append_nil] at hmade
    subst hmade
    have hparent : tree'.lookup (components output.1).dropLast = some .directory := by
      rcases dropLast_leading List.prefix_rfl hpath with hnil | hdrop
      · rw [hnil]
        exact ht.staged.root
      · exact hdirectories _ hdrop
    have hfree' : tree'.lookup (components output.1) = none := by
      rw [Option.eq_none_iff_forall_ne_some]
      intro node hlookup
      rcases ht.staged.only _ _ hlookup hpath with ⟨bytes, -, hfile⟩ | ⟨-, output', ho', hlead⟩
      · exact hfree bytes hfile
      · refine publication.joinPath_leading_not_mem ho' ho hlead ?_
        exact joinPath_components output.1
    rw [then_ok]
    refine (ht.writeSyncedFile hparent hfree' fun c => slash_not_mem_component).bind_ok ?_
    rintro t' hgrowing
    exact (meets_issue_of_ok (exec_syncTree _ _ t')).mpr ⟨trivial, rfl, hgrowing⟩

theorem Growing.writeRecord
    (h : Growing publication name files s tree) (hreserved : record ∈ reservedComponents)
    (hfree : ∀ bytes, ([record], bytes) ∉ files) : machine.Meets (fun r s' => r = .ok () ∧
        ∃ tree', Growing publication name (files ++ [([record], bytes)]) s' tree')
      (fun _ _ => True) (Theme.writeSyncedFile (.tree name [record]) bytes) s := by
  have hslash : ∀ record ∈ reservedComponents, slash ∉ record := by decide +kernel
  refine h.writeSyncedFile h.staged.root ?_ ?_
  · rw [Option.eq_none_iff_forall_ne_some]
    intro node hlookup
    rcases h.staged.only _ _ hlookup (cons_ne_nil _ _) with ⟨b, -, hfile⟩ | ⟨-, output, ho, hlead⟩
    · exact hfree b hfile
    · refine component_not_reserved (publication.outputs_safe output ho) ?_ hreserved
      exact (mem_leadingDirectories.mp hlead).1.subset mem_cons_self
  · simpa using hslash record hreserved

theorem not_mem_outputs {rest : List (Bytes × Bytes)}
    (h : written ++ output :: rest = publication.outputs) (bytes : Bytes) :
    (components output.1, bytes) ∉ written.map (fun output => (components output.1, output.2)) := by
  intro hmem
  obtain ⟨output', ho', heq⟩ := mem_map.mp hmem
  have hpath : output'.1 = output.1 := by
    rw [← joinPath_components output'.1, ← joinPath_components output.1, (Prod.mk.inj heq).1]
  have hsorted := publication.outputs_sorted
  rw [← h] at hsorted
  have hlt := (pairwise_append.mp hsorted).2.2 output' ho' output mem_cons_self
  rw [hpath] at hlt
  exact lt_irrefl _ hlt

theorem leading_not_mem_outputs (hwritten : ∀ o ∈ written, o ∈ publication.outputs)
    (ho : output ∈ publication.outputs)
    (hlead : directory ∈ leadingDirectories (components output.1)) (bytes : Bytes) :
    (directory, bytes) ∉ written.map (fun output => (components output.1, output.2)) := by
  intro hmem
  obtain ⟨output', ho', heq⟩ := mem_map.mp hmem
  refine publication.joinPath_leading_not_mem ho (hwritten output' ho') hlead ?_
  rw [← (Prod.mk.inj heq).1, joinPath_components]

theorem reserved_not_mem_outputs (hreserved : record ∈ reservedComponents) (bytes : Bytes) :
    ([record], bytes) ∉
      publication.outputs.map (fun output => (components output.1, output.2)) := by
  intro hmem
  obtain ⟨output, ho, heq⟩ := mem_map.mp hmem
  refine component_not_reserved (publication.outputs_safe output ho) ?_ hreserved
  rw [(Prod.mk.inj heq).1]
  exact mem_cons_self

variable [Sha256]

/-- Staging under a free name succeeds and leaves the whole tree. -/
theorem meets_stageTree_free (publication : GenerationPublication) (g : GenerationId)
    (hfree : stagingName g ∉ s.generations) : machine.Meets (fun r s' => r = .ok () ∧
        ∃ tree, Growing publication (stagingName g) (publication.files g) s' tree)
      (fun _ _ => True) (stageTree publication g) s := by
  have hmkdir : exec (.mkdir (stagingName g) []) s =
      .ok (s.setTree (stagingName g) Tree.emptyDirectory) := if_neg hfree
  have hreserved : ascii "receipt" ∈ reservedComponents ∧ ascii "manifest" ∈ reservedComponents ∧
      ascii "seal" ∈ reservedComponents := by decide +kernel
  have hne : ascii "manifest" ≠ ascii "receipt" ∧ ascii "seal" ≠ ascii "receipt" ∧
      ascii "seal" ≠ ascii "manifest" := by decide +kernel
  rw [stageTree]
  refine (meets_issue_bind_of_ok hmkdir).mpr ⟨trivial, ?_⟩
  rw [meets_bind]
  refine meets_forM (J := fun rest s' => ∃ tree written, written ++ rest = publication.outputs ∧
    Growing publication (stagingName g)
      (written.map fun output => (components output.1, output.2)) s' tree) ?_ ?_ _
    ⟨_, [], rfl, lookup_setTree s _ _, .empty publication, Tree.grounded_emptyDirectory⟩
  · rintro output rest t ⟨tree, written, hwritten, ht⟩
    have hmem : ∀ o ∈ written ++ output :: rest, o ∈ publication.outputs :=
      fun o ho => hwritten ▸ ho
    have ho := hmem output (mem_append_right _ mem_cons_self)
    refine (ht.writeOutput ho (not_mem_outputs hwritten) fun directory hlead =>
      leading_not_mem_outputs (fun o h => hmem o (mem_append_left _ h)) ho hlead).post ?_
    rintro r t' ⟨rfl, tree', ht'⟩
    rw [then_ok]
    refine ⟨tree', written ++ [output], by rw [← hwritten, append_assoc]; rfl, ?_⟩
    rw [map_append]
    exact ht'
  · rintro t ⟨tree, written, hwritten, ht⟩
    rw [append_nil] at hwritten
    subst hwritten
    rw [then_ok]
    refine (ht.writeRecord hreserved.1 (reserved_not_mem_outputs hreserved.1)).bind_ok ?_
    rintro t1 ⟨tree1, ht1⟩
    rw [meets_bind]
    refine (ht1.writeRecord hreserved.2.1 fun bytes hmem => ?_).post ?_
    · simp only [mem_append, mem_singleton, Prod.mk.injEq, cons.injEq] at hmem
      rcases hmem with hmem | hmem
      · exact reserved_not_mem_outputs hreserved.2.1 bytes hmem
      · exact hne.1 hmem.1.1
    rintro r t2 ⟨rfl, tree2, ht2⟩
    rw [then_ok, meets_bind]
    refine (ht2.writeRecord hreserved.2.2 fun bytes hmem => ?_).post ?_
    · simp only [mem_append, mem_singleton, Prod.mk.injEq, cons.injEq] at hmem
      rcases hmem with (hmem | hmem) | hmem
      · exact reserved_not_mem_outputs hreserved.2.2 bytes hmem
      · exact hne.2.1 hmem.1.1
      · exact hne.2.2 hmem.1.1
    rintro r t3 ⟨rfl, tree3, ht3⟩
    rw [then_ok]
    refine (meets_issue_of_ok (exec_syncTree _ _ t3)).mpr ⟨trivial, rfl, tree3, ?_⟩
    simpa [GenerationPublication.files] using ht3

end Writing

section Programs

variable {publication : GenerationPublication} {name : Bytes}
  {files : List (List Bytes × Bytes)} {s : Store}

variable [Sha256] {g : GenerationId}

theorem Staged.written (h : Staged publication (publication.files g) tree) :
    publication.Written g tree where
  manifest := h.here ([ascii "manifest"], _)
    (mem_append_right _ (mem_cons_of_mem _ mem_cons_self))
  receipt := h.here ([ascii "receipt"], _) (mem_append_right _ mem_cons_self)
  seal_eq := h.here ([ascii "seal"], _)
    (mem_append_right _ (mem_cons_of_mem _ (mem_cons_of_mem _ mem_cons_self)))
  outputs output ho := by
    refine h.here (components output.1, output.2) ?_
    exact mem_append_left _ (mem_map_of_mem ho)
  entries path node hlookup hpath := by
    rcases h.only path node hlookup hpath with ⟨bytes, rfl, hmem⟩ | hdirectory
    · refine .inl ⟨bytes, rfl, ?_⟩
      simp only [GenerationPublication.files, mem_append, mem_map, mem_cons,
        Prod.mk.injEq, not_mem_nil, or_false] at hmem
      rcases hmem with ⟨output, ho, rfl, _⟩ | ⟨rfl, _⟩ | ⟨rfl, _⟩ | ⟨rfl, _⟩
      · exact .inr (.inr (.inr ⟨output, ho, rfl⟩))
      · exact .inr (.inl rfl)
      · exact .inl rfl
      · exact .inr (.inr (.inl rfl))
    · exact .inr hdirectory

theorem meets_stageTree (publication : GenerationPublication) (g : GenerationId) (s : Store) :
    machine.Meets (OnOk fun _ => Holds publication (stagingName g) (publication.files g))
      (fun _ _ => True) (stageTree publication g) s := by
  by_cases hfree : stagingName g ∈ s.generations
  · have hmkdir : exec (.mkdir (stagingName g) []) s = .error Errno.exist := if_pos hfree
    rw [stageTree, meets_bind]
    exact (meets_issue_of_error hmkdir).mpr ⟨trivial, trivial⟩
  · refine (meets_stageTree_free publication g hfree).post ?_
    rintro r s' ⟨rfl, tree, htree, hstaged, -⟩
    exact ⟨tree, htree, hstaged⟩

theorem Holds.sound (h : Holds publication g.text (publication.files g) s) : s.Sound g := by
  obtain ⟨tree, htree, hstaged⟩ := h
  simp only [Store.Sound, Store.validateGeneration, Store.tree, htree, okOr, ok_bind,
    hstaged.root, hstaged.written.verifyOpenedGeneration]
  rfl

end Programs

/-! ## The smallest generation -/

/-- A digest function with one digest. -/
@[reducible] def blankSha256 : Sha256 := ⟨fun _ => List.replicate 64 48, fun _ => by decide +kernel⟩

def blankPublication : GenerationPublication where
  inputDigests := List.replicate 5 (List.replicate 64 48)
  outputs := [(ascii "theme", [])]
  digests_length := rfl
  digests_valid := by decide +kernel
  outputs_ne_nil := cons_ne_nil _ _
  outputs_sorted := pairwise_singleton _ _
  outputs_safe := by decide +kernel
  outputs_apart := by decide +kernel

section Blank

variable [Sha256] (g : GenerationId)

def blankTree : Tree :=
  let receipt := blankPublication.receipt g
  let manifest := blankPublication.manifest g receipt
  (((Tree.emptyDirectory.insert [ascii "theme"] (.file [])).insert [ascii "receipt"]
    (.file receipt)).insert [ascii "manifest"] (.file manifest)).insert [ascii "seal"]
    (.file (digestHex manifest ++ [lf]))

theorem staged_blankTree : Staged blankPublication (blankPublication.files g) (blankTree g) := by
  have hpath : components (ascii "theme") = [ascii "theme"] := by decide +kernel
  have hne : ascii "receipt" ≠ ascii "theme" ∧ ascii "manifest" ∉ [ascii "theme", ascii "receipt"] ∧
      ascii "seal" ∉ [ascii "theme", ascii "receipt", ascii "manifest"] := by decide +kernel
  simp only [mem_cons, not_mem_nil, or_false, not_or] at hne
  have hstep : ∀ {files : List (List Bytes × Bytes)} {tree : Tree} (path : List Bytes)
      (bytes : Bytes), tree.lookup path = none → Staged blankPublication files tree →
      Staged blankPublication (files ++ [(path, bytes)]) (tree.insert path (.file bytes)) :=
    fun path bytes hnone h => h.adds hnone fun q => Tree.lookup_insert _ path q _
  have hfiles : blankPublication.files g =
      [([ascii "theme"], [])] ++ [([ascii "receipt"], blankPublication.receipt g)] ++
        [([ascii "manifest"], blankPublication.manifest g (blankPublication.receipt g))] ++
        [([ascii "seal"],
          digestHex (blankPublication.manifest g (blankPublication.receipt g)) ++ [lf])] := by
    rw [GenerationPublication.files, blankPublication, map_singleton, hpath]
    rfl
  rw [hfiles]
  refine hstep _ _ ?_ (hstep _ _ ?_ (hstep _ _ ?_ (hstep _ _ ?_ (.empty blankPublication))))
  all_goals simp [Tree.lookup_insert, Tree.lookup_emptyDirectory, hne]

end Blank

end Realm.Theme

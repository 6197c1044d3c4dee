import Mathlib.Data.List.MinMax
import Realm.Theme.Scope

/-!
# Removing trees

A removal that runs to its end succeeds and leaves nothing of the tree.
-/

namespace Realm.Theme

open Text Prog List Machine Store

variable {name : Bytes} {tree tree' : Tree} {path : List Bytes} {s s' : Store} {node : Node}

namespace Tree

theorem mem_children {name : Bytes} :
    name ∈ tree.children path ↔ ∃ node, tree.lookup (path ++ [name]) = some node := by
  have hmem : (∃ node, tree.lookup (path ++ [name]) = some node) ↔
      path ++ [name] ∈ tree.entries.keys := Map.mem_iff_lookup.symm
  rw [hmem, children, mem_filterMap]
  constructor
  · rintro ⟨key, hkey, hname⟩
    split at hname
    · rename_i last hlast
      split_ifs at hname with hpath
      cases hname
      rw [← hpath, dropLast_append_getLast? _ hlast]
      exact hkey
    · cases hname
  · intro hkey
    refine ⟨path ++ [name], hkey, ?_⟩
    simp

theorem nodup_children (tree : Tree) (path : List Bytes) : (tree.children path).Nodup := by
  refine tree.entries.keys_nodup.filterMap ?_
  intro key key' name hname hname'
  split at hname
  · rename_i hlast
    split at hname'
    · rename_i hlast'
      split_ifs at hname hname' with hpath hpath' <;> cases hname <;> cases hname'
      rw [← dropLast_append_getLast? _ hlast, hpath, ← dropLast_append_getLast? _ hlast', hpath']
    · cases hname'
  · cases hname

theorem length_lt_height (h : tree.lookup path = some node) : path.length < tree.height := by
  have hkey : path ∈ tree.entries.keys := Map.mem_iff_lookup.mpr ⟨node, h⟩
  rw [height, Nat.lt_succ_iff]
  exact le_max_of_le' 0 (mem_map_of_mem hkey) le_rfl

end Tree

/-- A tree with nothing left at or below a path, and otherwise unchanged or smaller
below it. -/
structure Cut (path : List Bytes) (tree tree' : Tree) : Prop where
  gone : tree'.lookup path = none
  rest : ∀ p, tree'.lookup p = tree.lookup p ∨ path <+: p ∧ tree'.lookup p = none

/-- The store after the removal of what lay at a path of a tree. -/
structure Removed (name : Bytes) (tree : Tree) (path : List Bytes) (s s' : Store) : Prop where
  same : SameOutside (.ofTrees (· = name)) s s'
  whole : path = [] → s'.generations.lookup name = none
  part : path ≠ [] → ∃ tree', s'.generations.lookup name = some tree' ∧ Cut path tree tree'

/-- The loop over the entries of a directory: those in `rest` are still there, the
others are gone. -/
structure Emptying (name : Bytes) (tree : Tree) (path : List Bytes) (s : Store)
    (rest : List Bytes) (s' : Store) (tree' : Tree) : Prop where
  same : SameOutside (.ofTrees (· = name)) s s'
  lookup : s'.generations.lookup name = some tree'
  directory : tree'.lookup path = some .directory
  below : ∀ p, tree'.lookup p = tree.lookup p ∨ path <+: p ∧ tree'.lookup p = none
  left : ∀ n ∈ rest, ∃ node, tree'.lookup (path ++ [n]) = some node
  only : ∀ n node, tree'.lookup (path ++ [n]) = some node → n ∈ rest
  nodup : rest.Nodup

theorem Emptying.step {s'' : Store}
    {n : Bytes} {rest : List Bytes} (h : Emptying name tree path s (n :: rest) s' tree')
    (hremoved : Removed name tree' (path ++ [n]) s' s'') :
    ∃ tree'', Emptying name tree path s rest s'' tree'' := by
  obtain ⟨tree'', hlookup, hcut⟩ := hremoved.part (by simp)
  obtain ⟨hn, hrest⟩ := nodup_cons.mp h.nodup
  have hpath : ¬ path ++ [n] <+: path := fun hp => by
    have := hp.length_le
    simp at this
  have hother : ∀ m, m ≠ n → ¬ path ++ [n] <+: path ++ [m] := by
    intro m hm hp
    have heq := hp.eq_of_length (by simp)
    simp only [append_cancel_left_eq, cons.injEq, and_true] at heq
    exact hm heq.symm
  refine ⟨tree'', h.same.trans hremoved.same, hlookup, ?_, ?_, ?_, ?_, hrest⟩
  · rcases hcut.rest path with heq | ⟨hp, _⟩
    · exact heq.trans h.directory
    · exact absurd hp hpath
  · intro p
    rcases hcut.rest p with heq | ⟨hp, hnone⟩
    · rw [heq]
      exact h.below p
    · exact .inr ⟨(prefix_append path [n]).trans hp, hnone⟩
  · intro m hm
    rcases hcut.rest (path ++ [m]) with heq | ⟨hp, _⟩
    · rw [heq]
      exact h.left m (mem_cons_of_mem _ hm)
    · exact absurd hp (hother m fun heq => hn (heq ▸ hm))
  · intro m node hm
    by_cases hmn : m = n
    · subst hmn
      rw [hcut.gone] at hm
      cases hm
    · rcases hcut.rest (path ++ [m]) with heq | ⟨hp, _⟩
      · rw [heq] at hm
        exact (mem_cons.mp (h.only m node hm)).resolve_left hmn
      · exact absurd hp (hother m hmn)

theorem removed_eraseAt (hsame : SameOutside (.ofTrees (· = name)) s s')
    (hbelow : ∀ p, tree'.lookup p = tree.lookup p ∨ path <+: p ∧ tree'.lookup p = none) :
    Removed name tree path s (s'.eraseAt name tree' path) := by
  have herase : SameOutside (.ofTrees (· = name)) s' (s'.eraseAt name tree' path) :=
    sameOutside_eraseAt (by rfl) s' tree' path
  refine ⟨hsame.trans herase, ?_, ?_⟩
  · rintro rfl
    simp [eraseAt]
  · intro hpath
    refine ⟨tree'.erase path hpath, ?_, ?_, ?_⟩
    · simp [eraseAt, hpath, setTree]
    · rw [Tree.lookup_erase, if_pos rfl]
    · intro p
      rw [Tree.lookup_erase]
      split_ifs with hp
      · exact .inr ⟨hp ▸ prefix_rfl, rfl⟩
      · exact hbelow p

theorem exec_unlink_tree (htree : s.tree name = .ok tree) (h : tree.unlinkable path = .ok ()) :
    Store.exec (.unlink (.tree name path)) s = .ok (s.eraseAt name tree path) := by
  simp only [exec, htree, Guard.ok_bind, h]
  rfl

theorem exec_rmdir (htree : s.tree name = .ok tree) (h : tree.removable path = .ok ()) :
    Store.exec (.rmdir name path) s = .ok (s.eraseAt name tree path) := by
  simp only [exec, htree, Guard.ok_bind, h]
  rfl

theorem meets_removeTreeAt {fuel : ℕ} (htree : s.generations.lookup name = some tree)
    (hnode : tree.lookup path = some node)
    (hfuel : ∀ p node, tree.lookup p = some node → path <+: p → p.length < path.length + fuel) :
    machine.Meets (fun r s' => r = .ok () ∧ Removed name tree path s s') (fun _ _ => True)
      (removeTreeAt name fuel path) s := by
  induction fuel generalizing path s tree node with
  | zero => exact absurd (hfuel path node hnode prefix_rfl) (lt_irrefl _)
  | succ fuel ih =>
    have hlift : s.tree name = .ok tree := by rw [Store.tree, htree, okOr]
    rw [removeTreeAt, meets_view_bind]
    refine (meets_lift_bind hlift).mpr ?_
    rw [hnode]
    cases node with
    | file | other =>
      have hexec := exec_unlink_tree hlift (by rw [Tree.unlinkable, hnode])
      refine (meets_issue_of_ok hexec).mpr ⟨trivial, rfl, ?_⟩
      exact removed_eraseAt (.refl _ s) fun p => .inl rfl
    | directory =>
      show machine.Meets _ _ (forM (tree.children path) _ >>= _) s
      rw [meets_bind]
      have hstart : Emptying name tree path s (tree.children path) s tree :=
        ⟨.refl _ s, htree, hnode, fun p => .inl rfl, fun n hn => Tree.mem_children.mp hn,
          fun n node hn => Tree.mem_children.mpr ⟨node, hn⟩, tree.nodup_children path⟩
      refine meets_forM
        (J := fun rest s' => ∃ tree', Emptying name tree path s rest s' tree') ?_ ?_ _
        ⟨tree, hstart⟩
      · rintro n rest s' ⟨tree', h⟩
        obtain ⟨node', hnode'⟩ := h.left n mem_cons_self
        refine (ih h.lookup hnode' fun p node'' hp hstart => ?_).post ?_
        · have hp' : tree.lookup p = some node'' := by
            rcases h.below p with heq | ⟨_, hnone⟩
            · rw [← heq, hp]
            · rw [hnone] at hp
              cases hp
          have hlength := hfuel p node'' hp' ((prefix_append path [n]).trans hstart)
          rw [length_append, length_singleton]
          omega
        · rintro r s'' ⟨rfl, hremoved⟩
          exact h.step hremoved
      · rintro s' ⟨tree', h⟩
        have hlift' : s'.tree name = .ok tree' := by rw [Store.tree, h.lookup, okOr]
        have hempty : tree'.children path = [] := by
          rw [eq_nil_iff_forall_not_mem]
          intro n hn
          obtain ⟨node, hn⟩ := Tree.mem_children.mp hn
          exact absurd (h.only n node hn) not_mem_nil
        have hexec : exec (.rmdir name path) s' = .ok (s'.eraseAt name tree' path) := by
          refine exec_rmdir hlift' ?_
          rw [Tree.removable, h.directory, hempty]
          rfl
        rw [then_ok]
        refine (meets_issue_bind_of_ok (exec_syncTree name path s')).mpr
          ⟨trivial, ?_⟩
        exact (meets_issue_of_ok hexec).mpr
          ⟨trivial, rfl, removed_eraseAt h.same h.below⟩

theorem meets_removeTree (htree : s.generations.lookup name = some tree) :
    machine.Meets (fun r s' => r = .ok () ∧ SameOutside (.ofTrees (· = name)) s s' ∧
        s'.generations.lookup name = none) (fun _ _ => True) (removeTree name) s := by
  obtain ⟨node, hnode⟩ := tree.exists_lookup_nil
  have hlift : s.tree name = .ok tree := by rw [Store.tree, htree, okOr]
  rw [removeTree, meets_view_bind]
  refine (meets_lift_bind hlift).mpr ?_
  refine (meets_removeTreeAt htree hnode fun p node hp _ => ?_).post ?_
  · rw [length_nil, Nat.zero_add]
    exact Tree.length_lt_height hp
  · rintro r s' ⟨rfl, hremoved⟩
    exact ⟨rfl, hremoved.same, hremoved.whole rfl⟩

theorem meets_cleanStaging (s : Store) :
    machine.Meets (fun r s' => r = .ok () ∧
        SameOutside (.ofTrees fun n => isStagingName n = true) s s' ∧
        ∀ n, isStagingName n = true → s'.generations.lookup n = none)
      (fun s' c => SameOutside (.ofTrees fun n => isStagingName n = true) s s' ∧
        c.Within (.ofTrees fun n => isStagingName n = true)) cleanStaging s := by
  have hsame := meets_sameOutside faithful_machine issues_cleanStaging s
  suffices hclean : machine.Meets (fun r s' => r = .ok () ∧
      ∀ n, isStagingName n = true → s'.generations.lookup n = none) (fun _ _ => True)
      cleanStaging s by
    refine (hsame.and hclean).mono ?_ fun s' c h => h.1
    rintro r s' ⟨hsame, hok, hnone⟩
    exact ⟨hok, hsame, hnone⟩
  rw [cleanStaging, meets_view_bind, meets_bind]
  -- the trees still to be removed are there, and no other staged tree is
  refine meets_forM (J := fun rest s' => rest.Nodup ∧
    (∀ n ∈ rest, ∃ tree, s'.generations.lookup n = some tree) ∧
    ∀ n, isStagingName n = true → n ∉ rest → s'.generations.lookup n = none) ?_ ?_ _ ?_
  · rintro n rest s' ⟨hnodup, hthere, hgone⟩
    obtain ⟨hn, hrest⟩ := nodup_cons.mp hnodup
    obtain ⟨tree, htree⟩ := hthere n mem_cons_self
    refine (meets_removeTree htree).post ?_
    rintro r s'' ⟨rfl, hsame, hnone⟩
    refine ⟨hrest, fun m hm => ?_, fun m hm hmem => ?_⟩
    · rw [hsame.trees m fun heq => hn (heq ▸ hm)]
      exact hthere m (mem_cons_of_mem _ hm)
    · by_cases hmn : m = n
      · rw [hmn]
        exact hnone
      · rw [hsame.trees m hmn]
        exact hgone m hm fun h => hmem ((mem_cons.mp h).resolve_left hmn)
  · rintro s' ⟨_, _, hgone⟩
    rw [then_ok]
    exact (meets_issue_of_ok (exec_sync .generations s')).mpr
      ⟨trivial, rfl, fun n hn => hgone n hn not_mem_nil⟩
  · refine ⟨s.generations.keys_nodup.filter _, fun n hn => ?_, fun n hn hmem => ?_⟩
    · exact Map.mem_iff_lookup.mp (mem_filter.mp hn).1
    · by_contra hsome
      obtain ⟨tree, htree⟩ := Option.ne_none_iff_exists'.mp hsome
      refine hmem (mem_filter.mpr ⟨Map.mem_iff_lookup.mpr ⟨tree, htree⟩, ?_⟩)
      simpa using hn

end Realm.Theme

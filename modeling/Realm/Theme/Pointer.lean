import Realm.Theme.Scope
import Realm.Theme.Inventory

/-!
# The pointer and its journals in the root

How the calls of a pointer change move the root from one arrangement of pointer and
journals to the next.
-/

namespace Realm.Theme

open Text Prog JournalKind Map AList Store

variable {g : GenerationId} {s : Store}

/-! ## Names recovery reads -/

/-- The root entries recovery reads: the pointer and the journals. -/
def Control (n : Bytes) : Prop := n = currentName ∨ journalKind n ≠ none

theorem control_name (kind : JournalKind) (g : GenerationId) : Control (kind.name g) := by
  refine .inr ?_
  rw [journalKind_name]
  exact Option.some_ne_none kind

theorem not_control_orderStagingName : ¬ Control orderStagingName := by
  rintro (h | h)
  · exact absurd h (by decide +kernel)
  · exact h journalKind_orderStagingName

theorem not_control_publicationOrderName : ¬ Control publicationOrderName := by
  rintro (h | h)
  · exact absurd h (by decide +kernel)
  · exact h journalKind_publicationOrderName

theorem not_dotted_text {start : Bytes} (hdot : (46 : Byte) ∈ start) (g : GenerationId) :
    ¬ start <+: g.text := by
  rintro ⟨rest, hrest⟩
  have hmem : (46 : Byte) ∈ g.text := by
    rw [← hrest]
    exact List.mem_append_left _ hdot
  exact absurd (List.all_eq_true.mp g.isHex.2 _ hmem) (by decide +kernel)

theorem not_staging_text (g : GenerationId) : isStagingName g.text = false := by
  cases h : isStagingName g.text with
  | false => rfl
  | true =>
    simp only [isStagingName, Bool.and_eq_true, decide_eq_true_eq] at h
    exact absurd h.1.2 (not_dotted_text (by decide +kernel) g)

theorem isStagingName_stagingName (g : GenerationId) : isStagingName (stagingName g) = true := by
  have hdrop : (stagingName g).drop stagingPrefix.length = g.text := List.drop_left
  have hprintable : Printable (stagingName g) :=
    Printable.append (by decide +kernel) (printable_id g)
  have hutf8 : isUtf8 (stagingName g) = true := isUtf8_of_ascii fun b hb => (hprintable b hb).2
  have hstart : stagingPrefix <+: stagingName g := List.prefix_append _ _
  simp [isStagingName, hutf8, hstart, hdrop, GenerationId.parse_text, Except.isOk, Except.toBool]

theorem stagingName_ne_text (g g' : GenerationId) : stagingName g ≠ g'.text := by
  intro h
  have hstaging := isStagingName_stagingName g
  rw [h, not_staging_text] at hstaging
  cases hstaging

/-! ## Root entries of a pointer change -/

section Roots

variable {root root' : Map Bytes File} {kind : JournalKind} {c g : GenerationId} {f fc : File}

theorem Quiet.congr (h : Quiet root) (hroot : ∀ n, Control n → root'.lookup n = root.lookup n) :
    Quiet root' := by
  intro n f hlookup
  by_contra hkind
  rw [hroot n (.inr hkind)] at hlookup
  exact hkind (h n f hlookup)

theorem Quiet.lookup_name (h : Quiet root) (kind : JournalKind) (g : GenerationId) :
    root.lookup (kind.name g) = none := by
  cases hlookup : root.lookup (kind.name g) with
  | none => rfl
  | some f =>
    have hkind := h _ f hlookup
    rw [journalKind_name] at hkind
    cases hkind

theorem Lone.congr (h : Lone root kind g f)
    (hroot : ∀ n, Control n → root'.lookup n = root.lookup n) : Lone root' kind g f := by
  refine ⟨(hroot _ (control_name kind g)).trans h.here, fun n f' hlookup hne => ?_⟩
  by_contra hkind
  rw [hroot n (.inr hkind)] at hlookup
  exact hkind (h.only n f' hlookup hne)

theorem Lone.lookup_name (h : Lone root kind g f) {kind' : JournalKind} {g' : GenerationId}
    (hne : kind'.name g' ≠ kind.name g) : root.lookup (kind'.name g') = none := by
  cases hlookup : root.lookup (kind'.name g') with
  | none => rfl
  | some f' =>
    have hkind := h.only _ f' hlookup hne
    rw [journalKind_name] at hkind
    cases hkind

@[simp] theorem name_ne_currentName (kind : JournalKind) (g : GenerationId) :
    kind.name g ≠ currentName :=
  name_ne_of_journalKind journalKind_currentName kind g

@[simp] theorem currentName_ne_name (kind : JournalKind) (g : GenerationId) :
    currentName ≠ kind.name g := (name_ne_currentName kind g).symm

theorem Quiet.lone (h : Quiet root) (hlookup : root'.lookup (kind.name g) = some f)
    (hroot : ∀ n, n ≠ kind.name g → root'.lookup n = root.lookup n) : Lone root' kind g f :=
  ⟨hlookup, fun n f' hn hne => h n f' ((hroot n hne).symm.trans hn)⟩

theorem Lone.erase (h : Lone root kind g f) : Quiet (root.erase (kind.name g)) := by
  intro n f' hlookup
  rw [lookup_erase_eq] at hlookup
  split_ifs at hlookup with hn
  exact h.only n f' hlookup hn

theorem Quiet.insert_current (h : Quiet root) : Quiet (root.insert currentName f) := by
  intro n f' hlookup
  rw [lookup_insert_eq] at hlookup
  split_ifs at hlookup with hn
  · rw [hn, journalKind_currentName]
  · exact h n f' hlookup

theorem Lone.rename (h : Lone root kind g f) (kind' : JournalKind) (g' : GenerationId) :
    Lone ((root.erase (kind.name g)).insert (kind'.name g') f) kind' g' f :=
  h.erase.lone (lookup_insert _) fun n hn => by rw [lookup_insert_eq, if_neg hn]

theorem Lone.exchange (h : Lone root kind g f) :
    Lone ((root.insert (kind.name g) fc).insert currentName f) kind g fc := by
  refine ⟨?_, fun n f' hlookup hn => ?_⟩
  · rw [lookup_insert_eq, if_neg (currentName_ne_name kind g).symm, lookup_insert]
  · rw [lookup_insert_eq, lookup_insert_eq] at hlookup
    split_ifs at hlookup with hcurrent
    · rw [hcurrent, journalKind_currentName]
    · exact h.only n f' hlookup hn

theorem names_insert_current (h : f.PointsTo g) : Names (root.insert currentName f) g :=
  ⟨f, lookup_insert _, h⟩

theorem Names.congr (h : Names root g)
    (hroot : root'.lookup currentName = root.lookup currentName) : Names root' g := by
  obtain ⟨f, hlookup, hpoints⟩ := h
  exact ⟨f, hroot.trans hlookup, hpoints⟩

theorem Names.erase_name (h : Names root c) (kind : JournalKind) (g : GenerationId) :
    Names (root.erase (kind.name g)) c :=
  h.congr (by rw [lookup_erase_eq, if_neg (currentName_ne_name kind g)])

theorem Names.insert_name (h : Names root c) (kind : JournalKind) (g : GenerationId) :
    Names (root.insert (kind.name g) f) c :=
  h.congr (by rw [lookup_insert_eq, if_neg (currentName_ne_name kind g)])

end Roots

/-! ## Calls on the root -/

section Calls

variable {s : Store} {n m : Bytes} {f f' : File}

theorem exec_unlink_root (h : s.root.lookup n = some f) (hf : f.fileType ≠ .directory) :
    Store.exec (.unlink (.root n)) s = .ok { s with root := s.root.erase n } := by
  simp only [exec, Files.unlink, h, if_neg hf, Except.map]

theorem exec_rename_root (h : s.root.lookup n = some f)
    (hreplace : ∀ f' ∈ s.root.lookup m, f'.fileType ≠ .directory) :
    Store.exec (.rename .root n m) s = .ok { s with root := (s.root.erase n).insert m f } := by
  have hwhen : whenSome (s.root.lookup m) File.replaceable = .ok () := by
    cases hlookup : s.root.lookup m with
    | none => rfl
    | some f' =>
      rw [whenSome, File.replaceable, check_eq_ok, decide_eq_true_eq]
      exact hreplace f' hlookup
  have hrename := renameEntry_eq_ok.mpr ⟨f, h, hwhen, rfl⟩
  simp only [exec, hrename, Except.map]

theorem exec_exchange_root (h : s.root.lookup n = some f) (h' : s.root.lookup m = some f') :
    Store.exec (.exchange .root n m) s =
      .ok { s with root := (s.root.insert n f').insert m f } := by
  have hexchange := exchangeEntries_eq_ok.mpr ⟨f, f', h, h', rfl⟩
  simp only [exec, hexchange, Except.map]

theorem File.PointsTo.not_directory (h : f.PointsTo g) : f.fileType ≠ .directory := by
  rw [h.regular]
  exact nofun

end Calls

/-! ## A pointer being staged -/

/-- The file of a staged pointer once some of its bytes are written. -/
def stagedFile (uid : ℕ) (written : Bytes) : File := ⟨.regularFile, uid, 0o600, written⟩

/-- The store with a journal of the staged pointer, so far written, beside it. -/
def Staging (s : Store) (g : GenerationId) (written : Bytes) (s' : Store) : Prop :=
  ∃ root, s' = { s with root } ∧
    root.lookup (current.name g) = some (stagedFile s.uid written) ∧
    ∀ n, n ≠ current.name g → root.lookup n = s.root.lookup n

theorem exec_create_pointer (hfree : s.root.lookup (current.name g) = none) :
    ∃ s', Store.exec (.create (.root (current.name g))) s = .ok s' ∧ Staging s g [] s' := by
  have hfree' : current.name g ∉ s.root := lookup_eq_none.mp hfree
  have hexec : exec (.create (.root (current.name g))) s =
      .ok { s with root := s.root.insert (current.name g) (stagedFile s.uid []) } := by
    simp only [exec, Files.create, if_neg hfree', Except.map]
    rfl
  exact ⟨_, hexec, _, rfl, lookup_insert _, fun n hn => by
    rw [lookup_insert_eq, if_neg hn]⟩

theorem Staging.append {s' : Store} {written : Bytes} (h : Staging s g written s') (byte : Byte) :
    ∃ s'', Store.exec (.append (.root (current.name g)) byte) s' = .ok s'' ∧
      Staging s g (written ++ [byte]) s'' := by
  obtain ⟨root, rfl, hlookup, hother⟩ := h
  have happend : Files.append root (current.name g) byte =
      .ok (root.insert (current.name g) (stagedFile s.uid (written ++ [byte]))) := by
    rw [Files.append, hlookup]
    rfl
  have hexec : exec (.append (.root (current.name g)) byte)
      { s with root } = .ok { s with
        root := root.insert (current.name g) (stagedFile s.uid (written ++ [byte])) } := by
    simp only [exec, happend, Except.map]
  refine ⟨_, hexec, _, rfl, lookup_insert _, ?_⟩
  intro n hn
  rw [lookup_insert_eq, if_neg hn, hother n hn]

/-! ## What recovery does not read -/

/-- Everything recovery does not read. -/
def aside : Scope where
  root n := ¬ Control n
  leases _ := True
  trees n := ∀ g : GenerationId, n ≠ g.text

/-- The call writes to the record of a staged pointer. -/
def Call.WritesPointer : Call → Prop
  | .append (.root n) _ => ∃ g, n = current.name g
  | _ => False

theorem Call.Within.not_writesPointer {call : Call} (h : call.Within aside) :
    ¬ call.WritesPointer := by
  intro hcall
  cases call with
  | append place =>
    cases place with
    | root =>
      obtain ⟨g, rfl⟩ := hcall
      exact h (control_name _ g)
    | lease | tree => exact hcall
  | _ => exact hcall

theorem staging_le_aside : (Scope.ofTrees fun n => isStagingName n = true).Le aside where
  root _ := False.elim
  leases _ := False.elim
  trees n hn g hng := by
    have hstaging : isStagingName n = true := hn
    rw [hng, not_staging_text] at hstaging
    cases hstaging

end Realm.Theme

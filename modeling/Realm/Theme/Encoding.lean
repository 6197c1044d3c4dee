import Realm.Theme.Records

/-!
# The records read back as they were written

Every record the store writes is printable ASCII in lines, so it passes the checks
of its own parser and parses back to itself.
-/

namespace Realm.Theme

open Text Guard List SortedMap GenerationId

variable {value raw bytes : Bytes} {name : String} {ls : List Bytes} {n : U64} {g : GenerationId}

/-- Printable ASCII, so no line end and valid UTF-8. -/
def Printable (text : Bytes) : Prop := ∀ b ∈ text, 32 ≤ b ∧ b < 128

theorem printable_iff_all {text : Bytes} :
    (text.all fun b => Nat.ble 32 b.val && Nat.ble b.val 127) = true ↔ Printable text := by
  simp only [all_eq_true, Bool.and_eq_true, Nat.ble_eq, Printable, Fin.le_def, Fin.lt_def]
  exact forall₂_congr fun b _ => and_congr Iff.rfl Nat.lt_succ_iff.symm

-- compared as numbers, so that a literal is decided fast
instance (text : Bytes) : Decidable (Printable text) := decidable_of_iff _ printable_iff_all

namespace Printable

variable {text text' : Bytes}

theorem append (h : Printable text) (h' : Printable text') : Printable (text ++ text') := by
  intro b hb
  rcases mem_append.mp hb with hb | hb
  · exact h b hb
  · exact h' b hb

theorem of_all {p : Byte → Bool} (hp : ∀ b, p b = true → 32 ≤ b ∧ b < 128)
    (h : text.all p = true) : Printable text := fun b hb =>
  hp b (all_eq_true.mp h b hb)

theorem not_mem_lf (h : Printable text) : lf ∉ text := fun hmem =>
  absurd (h lf hmem).1 (by decide)

theorem not_mem_cr (h : Printable text) : cr ∉ text := fun hmem =>
  absurd (h cr hmem).1 (by decide)

end Printable

theorem printable_of_isLowerHex : ∀ b, isLowerHex b = true → 32 ≤ b ∧ b < 128 := by
  decide +kernel

theorem printable_of_isDigit : ∀ b, isDigit b = true → 32 ≤ b ∧ b < 128 := by
  decide +kernel

theorem printable_id (g : GenerationId) : Printable g.text :=
  .of_all printable_of_isLowerHex g.isHex.2

theorem printable_decimal (n : ℕ) : Printable (decimal n) := fun b hb =>
  printable_of_isDigit b (isDigit_of_mem_decimal hb)

theorem printable_bootId (h : canonicalBootId value = true) : Printable value := by
  intro b hb
  obtain ⟨i, hi⟩ := mem_iff_getElem?.mp hb
  have hmem : (b, i) ∈ value.zipIdx := mk_mem_zipIdx_iff_getElem?.mpr hi
  simp only [canonicalBootId, Bool.and_eq_true, all_eq_true] at h
  have hb := h.2 (b, i) hmem
  simp only at hb
  split_ifs at hb with hindex
  · have hhyphen : b = 45 := by simpa using hb
    subst hhyphen
    decide
  · exact printable_of_isLowerHex b hb

theorem printable_recordLine (hname : Printable (ascii name)) (h : Printable value) :
    Printable (recordLine name value) :=
  (hname.append (by decide +kernel)).append h

theorem recordLines_eq_ok {record : String} : recordLines record raw = .ok ls ↔
      isUtf8 raw = true ∧ (cr ∉ raw ∧ raw.getLast? = some lf) ∧ lines raw = ls := by
  simp only [recordLines, bind_eq_ok, check_eq_ok, pure_eq_ok, exists_const, decide_eq_true_eq]

theorem recordLines_unlines (record : String) (hne : ls ≠ []) (h : ∀ line ∈ ls, Printable line) :
    recordLines record (unlines ls) = .ok ls := by
  have hutf8 : isUtf8 (unlines ls) = true := by
    apply isUtf8_of_ascii
    intro b hb
    obtain ⟨line, hline, hmem | rfl⟩ := mem_unlines.mp hb
    · exact (h line hline b hmem).2
    · decide
  have hcr : cr ∉ unlines ls := by
    intro hmem
    obtain ⟨line, hline, hmem | heq⟩ := mem_unlines.mp hmem
    · exact (h line hline).not_mem_cr hmem
    · exact absurd heq (by decide)
  exact recordLines_eq_ok.mpr ⟨hutf8, ⟨hcr, getLast?_unlines hne⟩,
    lines_unlines hne fun line hline => (h line hline).not_mem_lf⟩

@[simp] theorem recordValue_recordLine (name : String) (rest : List Bytes) (h : value ≠ []) :
    recordValue name (recordLine name value :: rest) = .ok (value, rest) := by
  simp only [recordValue, recordLine, stripPrefix_append, h, if_false]

theorem hasLeadingZero_decimal (n : ℕ) : hasLeadingZero (decimal n) = false := by
  by_cases hn : n = 0
  · subst hn
    decide
  · simp [hasLeadingZero, head?_decimal hn]

@[simp] theorem parsed_decimal {bound : ℕ} (n : Fin bound) (field : String) :
    parsed (decimal n) field = .ok n := by
  simp only [parsed, parseUnsigned_decimal n.isLt, n.isLt, dif_pos]

@[simp] theorem canonicalU32_decimal (n : U32) (field : String) :
    canonicalU32 (decimal n) field = .ok n := by
  rw [canonicalU32, if_neg, parsed_decimal]
  simp [decimal_ne_nil, hasLeadingZero_decimal]

@[simp] theorem canonicalU64_decimal (n : U64) (field : String) :
    canonicalU64 (decimal n) field = .ok n := by
  have hdigits : (decimal n).all isDigit = true :=
    all_eq_true.mpr fun b hb => isDigit_of_mem_decimal hb
  rw [canonicalU64, if_neg, parsed_decimal]
  simp [decimal_ne_nil, hasLeadingZero_decimal, hdigits]

theorem canonicalPositiveU64_decimal (h : n ≠ 0) (field : String) :
    canonicalPositiveU64 (decimal n) field = .ok n := by
  rw [canonicalPositiveU64, canonicalU64_decimal]
  exact if_neg h

/-! ## Pointers -/

theorem parsePointerRecord_pointerRecord (g : GenerationId) (name : String) :
    parsePointerRecord g.pointerRecord name = .ok g := by
  have hutf8 : isUtf8 g.pointerRecord = true := by
    apply isUtf8_of_ascii
    intro b hb
    rcases mem_append.mp hb with hb | hb
    · exact (printable_id g b hb).2
    · rw [mem_singleton.mp hb]
      decide
  rw [parsePointerRecord, hutf8, if_neg (by decide), pointerRecord,
    List.getLast?_concat, if_pos rfl, dropLast_concat, parse_text]

theorem parsePointerRecord_eq_ok :
    parsePointerRecord bytes name = .ok g ↔ bytes = g.pointerRecord := by
  constructor
  · intro h
    rw [parsePointerRecord] at h
    split_ifs at h with hutf8 hlast
    rw [parse_eq_ok] at h
    rw [pointerRecord, ← h]
    exact (dropLast_append_getLast? lf hlast).symm
  · rintro rfl
    exact parsePointerRecord_pointerRecord g name

theorem pointerRecord_injective : Function.Injective GenerationId.pointerRecord := by
  intro g g' h
  exact text_injective (append_cancel_right h)

theorem parsePointerRecord_of_start (h : bytes <+: g.pointerRecord)
    (hne : bytes ≠ g.pointerRecord) : ∃ e, parsePointerRecord bytes name = .error e := by
  cases hparse : parsePointerRecord bytes name with
  | error e => exact ⟨e, rfl⟩
  | ok g' =>
    rw [parsePointerRecord_eq_ok] at hparse
    subst hparse
    have hlength : g'.pointerRecord.length = g.pointerRecord.length := by
      simp [pointerRecord, g.isHex.1, g'.isHex.1]
    exact absurd (h.eq_of_length hlength) hne

/-! ## Leases -/

variable (record : LeaseRecord)

theorem LeaseRecord.printable_lines :
    ∀ line ∈ [ascii "realm-generation-lease-v1",
      recordLine "generation" record.generation.text, recordLine "pid" (decimal record.pid),
      recordLine "start-time" (decimal record.startTime), recordLine "boot-id" record.bootId,
      recordLine "owner-uid" (decimal record.ownerUid)], Printable line := by
  simp only [forall_mem_cons, not_mem_nil, false_implies, implies_true, and_true]
  exact ⟨by decide +kernel, printable_recordLine (by decide +kernel) (printable_id _),
    printable_recordLine (by decide +kernel) (printable_decimal _),
    printable_recordLine (by decide +kernel) (printable_decimal _),
    printable_recordLine (by decide +kernel) (printable_bootId record.bootId_canonical),
    printable_recordLine (by decide +kernel) (printable_decimal _)⟩

theorem LeaseRecord.parse_encode : parse record.encode = .ok record := by
  have hbootId : record.bootId ≠ [] := by
    intro hnil
    have hcanonical := record.bootId_canonical
    rw [hnil] at hcanonical
    exact absurd hcanonical (by decide)
  rw [parse, encode, recordLines_unlines _ (cons_ne_nil _ _) record.printable_lines]
  simp [bind, Except.bind, text_ne_nil, decimal_ne_nil, hbootId,
    record.bootId_canonical, pure, Except.pure]

/-! ## The publication order -/

namespace PublicationOrder

variable {order : PublicationOrder} {next : U64} {scan : Scan}

/-- What a scan of generation records has checked: a sequence is given once. -/
structure Scan.Valid (scan : Scan) : Prop where
  used : ∀ e ∈ scan.sequences.entries, e.2 ∈ scan.usedSequences
  injective : ∀ e ∈ scan.sequences.entries, ∀ e' ∈ scan.sequences.entries, e.2 = e'.2 → e = e'

theorem canonicalPositiveU64_ne_zero {field : String}
    (h : canonicalPositiveU64 value field = .ok n) : n ≠ 0 := by
  rw [canonicalPositiveU64, bind_eq_ok] at h
  obtain ⟨m, _, hm⟩ := h
  split_ifs at hm with hzero
  cases hm
  exact hzero

theorem Scan.Valid.scanRecord {scan' : Scan} {line : Bytes} (h : scan.Valid)
    (hscan : scanRecord next scan line = .ok scan') : scan'.Valid := by
  simp only [PublicationOrder.scanRecord, bind_eq_ok, check_eq_ok, pure_eq_ok,
    decide_eq_true_eq] at hscan
  obtain ⟨_, _, _, _, generation, _, _, _, sequence, _, _, _, _, _, _, _, _, hused,
    _, _, rfl⟩ := hscan
  constructor
  · intro e he
    rcases mem_entries_insert.mp he with rfl | ⟨he, _⟩
    · exact mem_cons_self
    · exact mem_cons_of_mem _ (h.used e he)
  · intro e he e' he' heq
    rcases mem_entries_insert.mp he with rfl | ⟨he, _⟩
    · rcases mem_entries_insert.mp he' with rfl | ⟨he', _⟩
      · rfl
      · have hmem := h.used e' he'
        rw [← heq] at hmem
        exact absurd hmem hused
    · rcases mem_entries_insert.mp he' with rfl | ⟨he', _⟩
      · have hmem := h.used e he
        rw [heq] at hmem
        exact absurd hmem hused
      · exact h.injective e he e' he' heq

theorem nodup_of_parse (h : parse raw = .ok order) :
    (order.sequences.entries.map Prod.snd).Nodup := by
  simp only [parse, bind_eq_ok, pure_eq_ok] at h
  obtain ⟨_, _, _, _, ⟨_, rest⟩, _, next, _, scan, hscan, rfl⟩ := h
  have hempty : (⟨.empty, [], none⟩ : Scan).Valid :=
    ⟨fun e he => absurd he not_mem_nil, fun e he => absurd he not_mem_nil⟩
  have hvalid : scan.Valid :=
    foldlM_rel (R := fun a b => Scan.Valid a → Scan.Valid b) (fun _ h => h)
      (fun hab hbc ha => hbc (hab ha)) (fun hstep ha => ha.scanRecord hstep) hscan hempty
  exact (nodup_entries _).map_on hvalid.injective

end PublicationOrder

end Realm.Theme

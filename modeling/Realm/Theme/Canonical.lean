import Mathlib.Data.List.Pairwise
import Realm.Theme.Registry

/-!
# The spelling of the records

A record has one spelling for each of its fields, with one exception: a 32-bit number may be
written with a plus sign.  A record that is accepted is its own encoding exactly when none of its
numbers is written so.
-/

namespace Realm.Theme

open Text Guard List ActivationId

variable {ls ls' : List Bytes} {value line encoded raw : Bytes} {α : Type} {a : α}
  {message field : String} {n : U32} {length : ℕ}

/-! ## Readers of fields -/

theorem recordValue_eq_ok {name : String} {rest : List Bytes} :
    recordValue name ls = .ok (value, rest) ↔ value ≠ [] ∧ ls = recordLine name value :: rest := by
  constructor
  · intro h
    cases ls with
    | nil => cases h
    | cons =>
      simp only [recordValue] at h
      split at h
      · rename_i hvalue
        split_ifs at h with hne
        cases h
        exact ⟨hne, by rw [stripPrefix_eq_some.mp hvalue, recordLine]⟩
      · cases h
  · rintro ⟨hne, rfl⟩
    exact recordValue_recordLine name rest hne

theorem of_bind_recordValue {name : String} {f : Bytes × List Bytes → Except String α}
    (h : (recordValue name ls >>= f) = .ok a) :
    ∃ value rest, ls = recordLine name value :: rest ∧ f (value, rest) = .ok a := by
  obtain ⟨⟨value, rest⟩, hvalue, h⟩ := bind_eq_ok.mp h
  exact ⟨value, rest, (recordValue_eq_ok.mp hvalue).2, h⟩

theorem of_bind_readField {β : Type} {name : String} {read : Bytes → Except String α}
    {f : α × List Bytes → Except String β} {b : β} (h : (readField name read ls >>= f) = .ok b) :
    ∃ value a rest, ls = recordLine name value :: rest ∧ read value = .ok a ∧
      f (a, rest) = .ok b := by
  obtain ⟨⟨a, rest⟩, hread, h⟩ := bind_eq_ok.mp h
  obtain ⟨value, rest', hls, hread⟩ := of_bind_recordValue hread
  obtain ⟨a', ha, hread⟩ := bind_eq_ok.mp hread
  obtain ⟨rfl, rfl⟩ := Prod.mk.inj (pure_eq_ok.mp hread)
  exact ⟨value, a', rest', hls, ha, h⟩

theorem readField_recordLine (name : String) (read : Bytes → Except String α) (rest : List Bytes)
    (hne : value ≠ []) : readField name read (recordLine name value :: rest) =
      read value >>= fun a => .ok (a, rest) := by
  simp only [readField, recordValue_recordLine name rest hne, ok_bind]
  rfl

theorem tested_eq_ok {test : Bytes → Bool} {text : Bytes} :
    tested test message value = .ok text ↔ value = text ∧ test text = true := by
  simp only [tested, bind_eq_ok, check_eq_ok, pure_eq_ok, exists_const]
  constructor
  · rintro ⟨h, rfl⟩
    exact ⟨rfl, h⟩
  · rintro ⟨rfl, h⟩
    exact ⟨h, rfl⟩

theorem positiveU32_eq_ok :
    positiveU32 value field = .ok n ↔ canonicalU32 value field = .ok n ∧ n ≠ 0 := by
  simp only [positiveU32, bind_eq_ok, check_eq_ok, pure_eq_ok, exists_const, decide_eq_true_eq]
  constructor
  · rintro ⟨m, h, hne, rfl⟩
    exact ⟨h, hne⟩
  · rintro ⟨h, hne⟩
    exact ⟨n, h, hne, rfl⟩

theorem unlines_lines (h : raw.getLast? = some lf) : unlines (lines raw) = raw := by
  have hne : lines raw ≠ [] := splitOn_ne_nil _ _
  rw [unlines_eq_intercalate hne, lines, intercalate_splitOn]
  exact dropLast_append_getLast? lf h

theorem recordLine_inj {name : String} {value' : Bytes} :
    recordLine name value = recordLine name value' ↔ value = value' :=
  append_right_inj _

theorem decimal_of_parsed {bound : ℕ} {n : Fin bound} (hdigits : value.all isDigit = true)
    (hne : value ≠ []) (hzero : hasLeadingZero value = false) (h : parsed value field = .ok n) :
    value = decimal n := by
  have hall : ∀ b ∈ value, isDigit b = true := all_eq_true.mp hdigits
  rw [parsed, parseUnsigned_of_digits hne hall] at h
  split at h
  · rename_i m hm
    split_ifs at hm h with hlt hbound
    cases hm
    cases h
    refine (decimal_numeral hne hall fun hhead => ?_).symm
    simp only [hasLeadingZero, hhead, decide_true, Bool.and_true, decide_eq_false_iff_not,
      not_lt] at hzero
    exact le_antisymm hzero (length_pos_iff.mpr hne)
  · cases h

theorem canonicalU64_eq_ok {n : U64} : canonicalU64 value field = .ok n ↔ value = decimal n := by
  constructor
  · intro h
    rw [canonicalU64] at h
    split_ifs at h with hbad
    simp only [not_or, Bool.not_eq_false, Bool.not_eq_true] at hbad
    exact decimal_of_parsed hbad.2.1 hbad.1 hbad.2.2 h
  · rintro rfl
    exact canonicalU64_decimal n field

theorem canonicalPositiveU64_eq_ok {n : U64} :
    canonicalPositiveU64 value field = .ok n ↔ value = decimal n ∧ n ≠ 0 := by
  constructor
  · intro h
    have hne := PublicationOrder.canonicalPositiveU64_ne_zero h
    rw [canonicalPositiveU64, bind_eq_ok] at h
    obtain ⟨m, hm, h⟩ := h
    split_ifs at h
    cases h
    exact ⟨canonicalU64_eq_ok.mp hm, hne⟩
  · rintro ⟨rfl, hne⟩
    exact canonicalPositiveU64_decimal hne field

/-- A 32-bit number is read from its numeral, and from digits behind a plus sign. -/
theorem canonicalU32_eq_decimal (h : canonicalU32 value field = .ok n) :
    value = decimal n ↔ value.head? ≠ some 43 := by
  rw [canonicalU32] at h
  split_ifs at h with hbad
  simp only [not_or, Bool.not_eq_true] at hbad
  constructor
  · rintro rfl hhead
    exact absurd (isDigit_of_mem_decimal (mem_of_mem_head? hhead)) (by decide)
  · intro hhead
    have hsign : afterSign value = value := if_neg hhead
    refine decimal_of_parsed ?_ hbad.1 hbad.2 h
    rw [parsed] at h
    split at h
    · rename_i m hm
      rw [parseUnsigned, hsign] at hm
      split_ifs at hm with hdigits
      exact hdigits.2.1
    · cases h

theorem length_decimal_of_canonicalU32 (h : canonicalU32 value field = .ok n) :
    (decimal n).length ≤ value.length := by
  rw [canonicalU32] at h
  split_ifs at h with hbad
  rw [parsed] at h
  split at h
  · rename_i m hm
    split_ifs at h with hbound
    cases h
    rw [parseUnsigned] at hm
    split_ifs at hm with hdigits
    cases hm
    have hsign : (afterSign value).length ≤ value.length := by
      rw [afterSign]
      split_ifs
      · rw [length_tail]
        exact Nat.sub_le _ _
      · exact le_rfl
    exact (length_decimal_numeral_le hdigits.1 (all_eq_true.mp hdigits.2.1)).trans hsign
  · cases h

/-- The names of an enumeration: every value is listed, and its name tells it from the others and
can stand in a record. -/
structure NameTable {α : Type} (all : List α) (name : α → String) : Prop where
  mem : ∀ a, a ∈ all
  inj : ∀ a ∈ all, ∀ b ∈ all, ascii (name a) = ascii (name b) → a = b
  text : ∀ a ∈ all, ascii (name a) ≠ [] ∧ Printable (ascii (name a))

theorem NameTable.parseName_eq_ok {all : List α} {name : α → String} (h : NameTable all name) :
    parseName all name value message = .ok a ↔ value = ascii (name a) := by
  rw [parseName, okOr_eq_ok]
  constructor
  · intro hfind
    have ha := find?_some hfind
    exact (of_decide_eq_true ha).symm
  · rintro rfl
    cases hfind : all.find? fun b => ascii (name b) = ascii (name a) with
    | none => exact absurd (decide_eq_true rfl) (find?_eq_none.mp hfind a (h.mem a))
    | some b =>
      have hb := find?_some hfind
      rw [h.inj b (h.mem b) a (h.mem a) (of_decide_eq_true hb)]

theorem NameTable.printable {all : List α} {name : α → String} (h : NameTable all name) (a : α) :
    ascii (name a) ≠ [] ∧ Printable (ascii (name a)) :=
  h.text a (h.mem a)

theorem SessionState.table : NameTable all name :=
  ⟨fun a => by cases a <;> decide, by decide, by decide⟩

theorem HelperMode.table : NameTable all name :=
  ⟨fun a => by cases a <;> decide, by decide, by decide⟩

theorem LaunchState.table : NameTable all name :=
  ⟨fun a => by cases a <;> decide, by decide, by decide⟩

theorem LaunchResult.table : NameTable all name :=
  ⟨fun a => by cases a <;> decide, by decide, by decide⟩

theorem LeaseKind.table : NameTable all name :=
  ⟨fun a => by cases a <;> decide, by decide, by decide⟩

theorem OwnershipMode.table : NameTable all name :=
  ⟨fun a => by cases a <;> decide, by decide, by decide⟩

theorem table_yesNo : NameTable [false, true] yesNo :=
  ⟨fun a => by cases a <;> decide, by decide, by decide⟩

theorem parseYesNo_eq_ok {flag : Bool} :
    parseYesNo value field = .ok flag ↔ value = ascii (yesNo flag) :=
  table_yesNo.parseName_eq_ok

theorem none_text : ascii "none" ≠ [] ∧ Printable (ascii "none") := by decide

theorem ActivationId.encodeByte_pair (high low : Byte) (hhigh : isLowerHex high = true)
    (hlow : isLowerHex low = true) :
    encodeByte (Fin.ofNat 256 (hexNibble high * 16 + hexNibble low)) = [high, low] := by
  have hdigit : ∀ b, isLowerHex b = true → hexDigit (hexNibble b) = b ∧ hexNibble b < 16 := by
    decide +kernel
  obtain ⟨hh, hhlt⟩ := hdigit high hhigh
  obtain ⟨hl, hllt⟩ := hdigit low hlow
  have hval : (Fin.ofNat 256 (hexNibble high * 16 + hexNibble low)).val =
      hexNibble high * 16 + hexNibble low := by
    rw [Fin.val_ofNat, Nat.mod_eq_of_lt (by omega)]
  have hdiv : (hexNibble high * 16 + hexNibble low) / 16 = hexNibble high := by omega
  have hmod : (hexNibble high * 16 + hexNibble low) % 16 = hexNibble low := by omega
  rw [encodeByte, hval, hdiv, hmod, hh, hl]

theorem ActivationId.flatMap_ofPairs : ∀ {text : Bytes}, text.all isLowerHex = true →
    text.length % 2 = 0 → (ofPairs text).flatMap encodeByte = text
  | [], _, _ => rfl
  | [_], _, hlength => by simp at hlength
  | high :: low :: rest, hhex, hlength => by
    simp only [all_cons, Bool.and_eq_true] at hhex
    have hrest : rest.length % 2 = 0 := by
      simp only [length_cons] at hlength
      omega
    rw [ofPairs, flatMap_cons, encodeByte_pair high low hhex.1 hhex.2.1,
      flatMap_ofPairs hhex.2.2 hrest]
    rfl

theorem ActivationId.ofPairs_flatMap : ∀ bytes : Bytes, ofPairs (bytes.flatMap encodeByte) = bytes
  | [] => rfl
  | b :: rest => by
    have hbyte : ∀ b : Byte, Fin.ofNat 256 (hexNibble (hexDigit (b.val / 16)) * 16 +
        hexNibble (hexDigit (b.val % 16))) = b := by
      decide +kernel
    simp only [flatMap_cons, encodeByte, cons_append, nil_append, ofPairs,
      hbyte b, ofPairs_flatMap rest]

theorem ActivationId.lowerHex32_encode (id : ActivationId) : lowerHex32 id.encode = true := by
  have hbyte : ∀ b : Byte, (encodeByte b).all isLowerHex = true := by decide +kernel
  have hlength : ∀ bytes : Bytes, (bytes.flatMap encodeByte).length = 2 * bytes.length := by
    intro bytes
    simp [length_flatMap, encodeByte, mul_comm]
  simp only [lowerHex32, encode, Bool.and_eq_true, decide_eq_true_eq, hlength, id.length_eq,
    true_and, all_eq_true, mem_flatMap, forall_exists_index, and_imp]
  intro b _ _ hb
  exact all_eq_true.mp (hbyte _) b hb

theorem ActivationId.parse_eq_ok {id : ActivationId} :
    parse value field = .ok id ↔ value = id.encode := by
  constructor
  · intro h
    rw [parse] at h
    split_ifs at h with hhex
    cases h
    simp only [lowerHex32, Bool.and_eq_true, decide_eq_true_eq] at hhex
    exact (flatMap_ofPairs hhex.2 (by rw [hhex.1])).symm
  · rintro rfl
    rw [parse, dif_pos id.lowerHex32_encode]
    congr 1
    cases id
    simp only [mk.injEq]
    exact ofPairs_flatMap _

@[simp] theorem ActivationId.parse_encode (id : ActivationId) (field : String) :
    parse id.encode field = .ok id :=
  parse_eq_ok.mpr rfl

/-! ## Plain numbers -/

/-- The fields that hold a 32-bit number: process and user ids and process groups. -/
def isNumberField (field : Bytes) : Bool :=
  ["pid", "uid", "process-group"].any fun ending => (ascii ending).isSuffixOf field

/-- The line does not hold a 32-bit number behind a plus sign. -/
def plainLine (line : Bytes) : Bool :=
  match splitOnce space line with
  | some (field, value) => !(isNumberField field && value.head? = some 43)
  | none => true

/-- No 32-bit number is written with a plus sign. -/
def Plain (raw : Bytes) : Prop := (lines raw).all plainLine = true

variable {name : String}

theorem plainLine_recordLine (value : Bytes) (h : space ∉ ascii name) :
    plainLine (recordLine name value) = !(isNumberField (ascii name) && value.head? = some 43) := by
  rw [plainLine, recordLine, append_assoc, singleton_append, splitOnce_append _ h]

theorem plainLine_number (value : Bytes)
    (h : space ∉ ascii name ∧ isNumberField (ascii name) = true) :
    plainLine (recordLine name value) = !(value.head? = some 43) := by
  rw [plainLine_recordLine value h.1, h.2, Bool.true_and]

theorem plainLine_other (value : Bytes)
    (h : space ∉ ascii name ∧ isNumberField (ascii name) = false) :
    plainLine (recordLine name value) = true := by
  rw [plainLine_recordLine value h.1, h.2, Bool.false_and, Bool.not_false]

theorem plainLine_header (h : splitOnce space line = none) : plainLine line = true := by
  rw [plainLine, h]

/-- A line and its plain spelling. -/
structure Spelled (line plain : Bytes) : Prop where
  length_le : plain.length ≤ line.length
  not_mem_lf : lf ∉ line → lf ∉ plain
  eq_iff : plain = line ↔ plainLine line = true

theorem Spelled.refl (h : plainLine line = true) : Spelled line line :=
  ⟨le_rfl, id, iff_of_true rfl h⟩

theorem spelled_header (h : splitOnce space line = none) : Spelled line line :=
  .refl (plainLine_header h)

theorem spelled_other (value : Bytes)
    (h : space ∉ ascii name ∧ isNumberField (ascii name) = false) :
    Spelled (recordLine name value) (recordLine name value) :=
  .refl (plainLine_other value h)

theorem spelled_number (h : canonicalU32 value field = .ok n)
    (hname : space ∉ ascii name ∧ isNumberField (ascii name) = true) :
    Spelled (recordLine name value) (recordLine name (decimal n)) where
  length_le := by
    have hlength := length_decimal_of_canonicalU32 h
    simp only [recordLine, length_append]
    omega
  not_mem_lf hline := by
    have hdecimal := (printable_decimal n.val).not_mem_lf
    simp_all [recordLine]
  eq_iff := by
    rw [recordLine_inj, eq_comm, canonicalU32_eq_decimal h, plainLine_number value hname]
    simp

/-- The lines of a text are those of an encoding, up to their spelling. -/
def Spelling (raw encoded : Bytes) : Prop :=
  raw.getLast? = some lf ∧ ∃ ls, encoded = unlines ls ∧ List.Forall₂ Spelled (lines raw) ls

theorem Spelling.length_le (h : Spelling raw encoded) :
    encoded.length ≤ raw.length := by
  obtain ⟨hlast, ls, rfl, hls⟩ := h
  rw [← unlines_lines hlast]
  exact length_unlines_le (hls.flip.imp fun _ _ hline => hline.length_le)

theorem forall_not_mem_lf (h : List.Forall₂ Spelled ls ls') (hls : ∀ line ∈ ls, lf ∉ line) :
    ∀ line ∈ ls', lf ∉ line := by
  induction h with
  | nil => exact hls
  | cons hline _ ih =>
    rw [forall_mem_cons] at hls ⊢
    exact ⟨hline.not_mem_lf hls.1, ih hls.2⟩

theorem spelled_eq_iff (h : List.Forall₂ Spelled ls ls') : ls' = ls ↔ ls.all plainLine = true := by
  induction h with
  | nil => simp
  | cons hline _ ih => rw [cons.injEq, hline.eq_iff, ih, all_cons, Bool.and_eq_true]

/-- Spellings of one record are the same exactly when the numbers are plain. -/
theorem Spelling.eq_iff_plain (h : Spelling raw encoded) :
    encoded = raw ↔ Plain raw := by
  obtain ⟨hlast, ls, rfl, hls⟩ := h
  have hlf : ∀ line ∈ ls, lf ∉ line :=
    forall_not_mem_lf hls fun line hline hmem => (of_mem_splitOn hline hmem).2 rfl
  have hne : ls ≠ [] := by
    rintro rfl
    exact splitOn_ne_nil _ _ (forall₂_nil_right_iff.mp hls)
  rw [Plain, ← spelled_eq_iff hls]
  constructor
  · rintro rfl
    exact (lines_unlines hne hlf).symm
  · rintro rfl
    exact unlines_lines hlast

/-! ## Process leases -/

theorem LeaseRecord.spelling_of_parse {r : LeaseRecord} (h : parse raw = .ok r) :
    Spelling raw r.encode := by
  simp only [parse, bind_eq_ok, recordLines_eq_ok, check_eq_ok, decide_eq_true_eq,
    Prod.exists, recordValue_eq_ok, GenerationId.parse_eq_ok, canonicalU64_eq_ok] at h
  obtain ⟨ls, ⟨-, ⟨-, hlast⟩, hlines⟩, -, hhead, _, _, ⟨-, htail⟩, g, rfl, pid, _, ⟨-, rfl⟩, n,
    hpid, _, _, ⟨-, rfl⟩, t, rfl, boot, _, ⟨-, rfl⟩, h⟩ := h
  split_ifs at h with hboot
  simp only [bind_eq_ok, Prod.exists, recordValue_eq_ok, check_eq_ok,
    decide_eq_true_eq, pure_eq_ok] at h
  obtain ⟨uid, _, ⟨-, rfl⟩, m, huid, -, rfl, rfl⟩ := h
  refine ⟨hlast, _, rfl, ?_⟩
  rw [hlines, ← cons_head?_tail hhead, htail]
  simp (disch := decide) only [forall₂_cons, forall₂_nil_left_iff,
    spelled_header, spelled_other, spelled_number hpid, spelled_number huid, and_self]

/-! ## Lifecycle leases -/

theorem printable_recordLine_iff (hname : Printable (ascii name)) :
    Printable (recordLine name value) ↔ Printable value :=
  ⟨fun h b hb => h b (mem_append_right _ hb), printable_recordLine hname⟩

theorem lowerHex_ne_nil (h : lowerHex value (length + 1) = true) : value ≠ [] := by
  rintro rfl
  simp [lowerHex] at h

theorem printable_lowerHex (h : lowerHex value length = true) : Printable value := by
  simp only [lowerHex, Bool.and_eq_true] at h
  exact .of_all printable_of_isLowerHex h.2

theorem bootId_ne_nil (h : canonicalBootId value = true) : value ≠ [] := by
  rintro rfl
  exact absurd h (by decide)

theorem cgroup_ne_nil (h : normalizedCgroupPath value = true) : value ≠ [] := by
  rintro rfl
  exact absurd h (by decide)

theorem mem_intercalate {separator b : Byte} {parts : List Bytes}
    (h : b ∈ [separator].intercalate parts) (hne : b ≠ separator) : ∃ part ∈ parts, b ∈ part := by
  induction parts with
  | nil => simp [intercalate] at h
  | cons part parts ih =>
    cases parts with
    | nil => exact ⟨part, mem_cons_self, by simpa [intercalate] using h⟩
    | cons next parts =>
      have hcons : [separator].intercalate (part :: next :: parts) =
          part ++ separator :: [separator].intercalate (next :: parts) := by
        simp [intercalate, intersperse]
      rw [hcons, mem_append, mem_cons] at h
      rcases h with h | h | h
      · exact ⟨part, mem_cons_self, h⟩
      · exact absurd h hne
      · obtain ⟨p, hp, hb⟩ := ih h
        exact ⟨p, mem_cons_of_mem _ hp, hb⟩

theorem printable_cgroup (h : normalizedCgroupPath value = true) : Printable value := by
  have hbyte : ∀ b, isCgroupByte b = true → 32 ≤ b ∧ b < 128 := by decide +kernel
  have hslash : 32 ≤ slash ∧ slash < 128 := by decide
  simp only [normalizedCgroupPath, Bool.and_eq_true, all_eq_true] at h
  intro b hb
  by_cases hb' : b = slash
  · rw [hb']
    exact hslash
  · have hvalue : [slash].intercalate (value.splitOn slash) = value :=
      intercalate_splitOn slash
    rw [← hvalue] at hb
    obtain ⟨part, hpart, hb⟩ := mem_intercalate hb hb'
    exact hbyte b ((h.2 part hpart).2 b hb)

theorem printable_scope {launch : Bytes} (h : Printable launch) :
    Printable (ascii "realm-launch-" ++ launch ++ ascii ".scope") :=
  (Printable.append (by decide) h).append (by decide)

theorem scope_ne_nil (launch : Bytes) : ascii "realm-launch-" ++ launch ++ ascii ".scope" ≠ [] := by
  simp [show ascii "realm-launch-" ≠ [] by decide]

namespace LifecycleLeaseRecord

variable {r : LifecycleLeaseRecord}

/-- The records that the checks of the parser let pass. -/
structure Valid (r : LifecycleLeaseRecord) : Prop where
  pid : r.pid ≠ 0
  startTime : r.startTime ≠ 0
  bootId : canonicalBootId r.bootId = true
  owner : r.checkOwner = .ok ()

theorem Valid.texts (h : r.Valid) :
    (r.unit ≠ [] ∧ Printable r.unit) ∧ (r.unitInvocation ≠ [] ∧ Printable r.unitInvocation) ∧
      r.cgroup ≠ [] ∧ Printable r.cgroup := by
  have howner := h.owner
  unfold checkOwner at howner
  split at howner
  · simp only [check_eq_ok, decide_eq_true_eq] at howner
    obtain ⟨-, hunit, hinvocation, hcgroup, -, -⟩ := howner
    rw [hunit]
    exact ⟨⟨scope_ne_nil _, printable_scope (printable_id _)⟩,
      ⟨lowerHex_ne_nil hinvocation, printable_lowerHex hinvocation⟩, cgroup_ne_nil hcgroup,
      printable_cgroup hcgroup⟩
  · simp only [check_eq_ok, decide_eq_true_eq] at howner
    obtain ⟨hunit, hinvocation, -, hcgroup, -, -⟩ := howner
    rw [hunit, hinvocation, hcgroup]
    exact ⟨none_text, none_text, none_text⟩

theorem parseOwnerKind_eq_ok {kind : LifecycleOwnerKind} :
    parseOwnerKind value = .ok kind ↔ value = ownerKindText kind := by
  have hne : ascii "process-group" ≠ ascii "systemd-scope" := by decide
  unfold parseOwnerKind
  cases kind with
  | systemdScope => split_ifs <;> simp_all [ownerKindText]
  | processGroup => split_ifs <;> simp_all [ownerKindText, hne.symm]

theorem of_parse (h : parse raw = .ok r) :
    r.Valid ∧ Spelling raw r.encode := by
  obtain ⟨ls, hls, h⟩ := bind_eq_ok.mp h
  obtain ⟨-, ⟨-, hlast⟩, hlines⟩ := recordLines_eq_ok.mp hls
  obtain ⟨_, hhead, h⟩ := bind_eq_ok.mp h
  obtain ⟨_, _, h₁, h⟩ := of_bind_recordValue h
  obtain ⟨_, hgeneration, h⟩ := bind_eq_ok.mp h
  obtain ⟨_, _, h₂, h⟩ := of_bind_recordValue h
  obtain ⟨_, hlaunch, h⟩ := bind_eq_ok.mp h
  obtain ⟨_, _, h₃, h⟩ := of_bind_recordValue h
  obtain ⟨_, hpid, h⟩ := bind_eq_ok.mp h
  obtain ⟨_, hpos, h⟩ := bind_eq_ok.mp h
  obtain ⟨_, _, h₄, h⟩ := of_bind_recordValue h
  obtain ⟨_, hstart, h⟩ := bind_eq_ok.mp h
  obtain ⟨_, _, h₅, h⟩ := of_bind_recordValue h
  obtain ⟨_, hboot, h⟩ := bind_eq_ok.mp h
  obtain ⟨_, _, h₆, h⟩ := of_bind_recordValue h
  obtain ⟨_, huid, h⟩ := bind_eq_ok.mp h
  obtain ⟨_, _, h₇, h⟩ := of_bind_recordValue h
  obtain ⟨_, hkind, h⟩ := bind_eq_ok.mp h
  obtain ⟨_, _, h₈, h⟩ := of_bind_recordValue h
  obtain ⟨_, _, h₉, h⟩ := of_bind_recordValue h
  obtain ⟨_, _, h₁₀, h⟩ := of_bind_recordValue h
  obtain ⟨_, hgroup, h⟩ := bind_eq_ok.mp h
  obtain ⟨_, _, h₁₁, h⟩ := of_bind_recordValue h
  obtain ⟨_, _, h₁₂, h⟩ := of_bind_recordValue h
  obtain ⟨_, hdevice, h⟩ := bind_eq_ok.mp h
  obtain ⟨_, _, h₁₃, h⟩ := of_bind_recordValue h
  obtain ⟨_, hinode, h⟩ := bind_eq_ok.mp h
  obtain ⟨_, hend, h⟩ := bind_eq_ok.mp h
  obtain ⟨⟨⟩, howner, h⟩ := bind_eq_ok.mp h
  obtain rfl := pure_eq_ok.mp h
  simp only [check_eq_ok, decide_eq_true_eq] at hhead hpos hboot hend
  simp only [GenerationId.parse_eq_ok, canonicalPositiveU64_eq_ok, canonicalU64_eq_ok,
    parseOwnerKind_eq_ok] at hgeneration hlaunch hstart hdevice hinode hkind
  refine ⟨⟨hpos, hstart.2, hboot, howner⟩, hlast, _, rfl, ?_⟩
  rw [hlines, ← cons_head?_tail hhead, h₁, h₂, h₃, h₄, h₅, h₆, h₇, h₈, h₉, h₁₀, h₁₁, h₁₂, h₁₃,
    hend, hgeneration, hlaunch, hstart.1, hkind, hdevice, hinode]
  simp (disch := decide) only [forall₂_cons, forall₂_nil_left_iff,
    spelled_header, spelled_other, spelled_number hpid, spelled_number huid, spelled_number hgroup,
    and_self]

theorem Valid.parse_encode (h : r.Valid) : parse r.encode = .ok r := by
  obtain ⟨⟨hunit, hunit'⟩, ⟨hinvocation, hinvocation'⟩, hcgroup, hcgroup'⟩ := h.texts
  have hkind : ownerKindText r.ownerKind ≠ [] ∧ Printable (ownerKindText r.ownerKind) := by
    cases r.ownerKind <;> decide
  have hparse : parseOwnerKind (ownerKindText r.ownerKind) = .ok r.ownerKind :=
    parseOwnerKind_eq_ok.mpr rfl
  rw [parse, encode, recordLines_unlines]
  · simp [bind, Except.bind, GenerationId.text_ne_nil, decimal_ne_nil, hunit, hinvocation,
      hcgroup, hkind, bootId_ne_nil h.bootId, h.pid, canonicalPositiveU64_decimal h.startTime,
      h.bootId, hparse, h.owner, pure, Except.pure]
  · exact cons_ne_nil _ _
  · refine forall_mem_cons.mpr ⟨by decide, ?_⟩
    simp (disch := decide) only [forall_mem_cons,
      printable_recordLine_iff, printable_id, printable_decimal, printable_bootId h.bootId, hkind,
      hunit', hinvocation', hcgroup', not_mem_nil, false_implies, implies_true, and_self]

end LifecycleLeaseRecord

/-! ## Sessions -/

theorem ActivationId.printable_encode (id : ActivationId) : id.encode ≠ [] ∧ Printable id.encode :=
  ⟨lowerHex_ne_nil id.lowerHex32_encode, printable_lowerHex id.lowerHex32_encode⟩

namespace SessionRecord

/-- The fields that the parser checks one by one. -/
structure Checked (r : SessionRecord) : Prop where
  sequence : r.sequence ≠ 0
  bootId : canonicalBootId r.bootId = true
  entryPid : r.entryPid ≠ 0
  entryStartTime : r.entryStartTime ≠ 0
  identities : r.checkIdentities = .ok ()

/-- The records that the checks of the parser let pass. -/
structure Valid (r : SessionRecord) : Prop extends Checked r where
  length : r.encode.length ≤ maxRecordBytes

theorem of_parse {r : SessionRecord} (h : parse raw = .ok r) :
    r.Valid ∧ Spelling raw r.encode := by
  obtain ⟨_, hlength, h⟩ := bind_eq_ok.mp h
  obtain ⟨ls, hls, h⟩ := bind_eq_ok.mp h
  obtain ⟨-, ⟨-, hlast⟩, hlines⟩ := recordLines_eq_ok.mp hls
  obtain ⟨_, hhead, h⟩ := bind_eq_ok.mp h
  obtain ⟨_, _, _, h₁, hsession, h⟩ := of_bind_readField h
  obtain ⟨_, _, _, h₂, hsequence, h⟩ := of_bind_readField h
  obtain ⟨_, _, _, h₃, hstate, h⟩ := of_bind_readField h
  obtain ⟨_, _, _, h₄, huid, h⟩ := of_bind_readField h
  obtain ⟨_, _, _, h₅, hboot, h⟩ := of_bind_readField h
  obtain ⟨_, _, _, h₆, hentry, h⟩ := of_bind_readField h
  obtain ⟨_, _, _, h₇, hentryStart, h⟩ := of_bind_readField h
  obtain ⟨_, _, _, h₈, hcompositor, h⟩ := of_bind_readField h
  obtain ⟨_, _, _, h₉, hcompositorStart, h⟩ := of_bind_readField h
  obtain ⟨_, _, _, h₁₀, hmode, h⟩ := of_bind_readField h
  obtain ⟨_, _, _, h₁₁, hwm, h⟩ := of_bind_readField h
  obtain ⟨_, _, _, h₁₂, hwmStart, h⟩ := of_bind_readField h
  obtain ⟨_, _, _, h₁₃, hwmGroup, h⟩ := of_bind_readField h
  obtain ⟨_, _, _, h₁₄, hbar, h⟩ := of_bind_readField h
  obtain ⟨_, _, _, h₁₅, hbarStart, h⟩ := of_bind_readField h
  obtain ⟨_, _, _, h₁₆, hbarGroup, h⟩ := of_bind_readField h
  obtain ⟨_, hend, h⟩ := bind_eq_ok.mp h
  obtain ⟨⟨⟩, hidentities, h⟩ := bind_eq_ok.mp h
  have hr := pure_eq_ok.mp h
  simp only [check_eq_ok, decide_eq_true_eq, tested_eq_ok, positiveU32_eq_ok,
    canonicalPositiveU64_eq_ok] at hlength hhead hend hboot hentry hsequence hentryStart
  simp only [parse_eq_ok, canonicalU64_eq_ok, SessionState.table.parseName_eq_ok,
    HelperMode.table.parseName_eq_ok] at hsession hcompositorStart hwmStart hbarStart hstate hmode
  have hspelling : Spelling raw r.encode := by
    rw [← hr]
    refine ⟨hlast, _, rfl, ?_⟩
    rw [hlines, ← cons_head?_tail hhead, h₁, h₂, h₃, h₄, h₅, h₆, h₇, h₈, h₉, h₁₀, h₁₁, h₁₂,
      h₁₃, h₁₄, h₁₅, h₁₆, hend, hsession, hsequence.1, hstate, hboot.1, hentryStart.1,
      hcompositorStart, hmode, hwmStart, hbarStart]
    simp (disch := decide) only [forall₂_cons, forall₂_nil_left_iff,
      spelled_header, spelled_other, spelled_number huid, spelled_number hentry.1,
      spelled_number hcompositor, spelled_number hwm, spelled_number hwmGroup, spelled_number hbar,
      spelled_number hbarGroup, and_self]
  refine ⟨⟨?_, hspelling.length_le.trans hlength⟩, hspelling⟩
  rw [← hr]
  exact ⟨hsequence.2, hboot.2, hentry.2, hentryStart.2, hidentities⟩

theorem Valid.parse_encode {r : SessionRecord} (h : r.Valid) : parse r.encode = .ok r := by
  simp only [parse, h.length, decide_true, check_true, ok_bind]
  rw [encode, recordLines_unlines]
  · simp [readField_recordLine, decimal_ne_nil, bootId_ne_nil h.bootId,
      printable_encode, SessionState.table.printable, HelperMode.table.printable,
      SessionState.table.parseName_eq_ok.mpr rfl, HelperMode.table.parseName_eq_ok.mpr rfl,
      canonicalPositiveU64_decimal h.sequence, canonicalPositiveU64_decimal h.entryStartTime,
      positiveU32_eq_ok.mpr ⟨canonicalU32_decimal _ _, h.entryPid⟩,
      tested_eq_ok.mpr ⟨rfl, h.bootId⟩, h.identities]
  · exact cons_ne_nil _ _
  · refine forall_mem_cons.mpr ⟨by decide, ?_⟩
    simp (disch := decide) only [forall_mem_cons,
      printable_recordLine_iff, printable_encode, printable_decimal,
      SessionState.table.printable, printable_bootId h.bootId, HelperMode.table.printable,
      not_mem_nil, false_implies, implies_true, and_self]

end SessionRecord

/-! ## Launches -/

namespace LaunchRecord

variable {r : LaunchRecord}

/-- The fields that the parser checks one by one. -/
structure Checked (r : LaunchRecord) : Prop where
  sequence : r.sequence ≠ 0
  bootId : canonicalBootId r.bootId = true
  manifestSha256 : lowerHex r.manifestSha256 64 = true
  lease : lowerHex32 r.lease = true
  ownerPid : r.ownerPid ≠ 0
  ownerStartTime : r.ownerStartTime ≠ 0
  tuple : r.checkTuple = .ok ()

/-- The records that the checks of the parser let pass. -/
structure Valid (r : LaunchRecord) : Prop extends Checked r where
  length : r.encode.length ≤ maxRecordBytes

theorem Checked.texts (h : r.Checked) :
    (r.unit ≠ [] ∧ Printable r.unit) ∧ (r.unitInvocation ≠ [] ∧ Printable r.unitInvocation) ∧
      r.cgroup ≠ [] ∧ Printable r.cgroup := by
  have htuple := h.tuple
  simp only [checkTuple, bind_eq_ok, checkOwnership] at htuple
  obtain ⟨-, -, htuple⟩ := htuple
  split at htuple
  · simp only [bind_eq_ok, check_eq_ok, Bool.and_eq_true, decide_eq_true_eq] at htuple
    obtain ⟨-, ⟨⟨⟨⟨⟨hunit, hinvocation⟩, -⟩, hcgroup⟩, -⟩, -⟩, -⟩ := htuple
    rw [hunit, hinvocation, hcgroup]
    exact ⟨none_text, none_text, none_text⟩
  · simp only [bind_eq_ok, check_eq_ok, Bool.and_eq_true, decide_eq_true_eq] at htuple
    obtain ⟨-, ⟨⟨hunit, -⟩, -⟩, htuple⟩ := htuple
    rw [hunit]
    refine ⟨⟨scope_ne_nil _, printable_scope (printable_encode _).2⟩, ?_⟩
    split_ifs at htuple
    · simp only [check_eq_ok, Bool.and_eq_true, decide_eq_true_eq] at htuple
      obtain ⟨⟨⟨hinvocation, hcgroup⟩, -⟩, -⟩ := htuple
      rw [hinvocation, hcgroup]
      exact ⟨none_text, none_text⟩
    · simp only [check_eq_ok, Bool.and_eq_true, decide_eq_true_eq] at htuple
      obtain ⟨⟨⟨hinvocation, hcgroup⟩, -⟩, -⟩ := htuple
      exact ⟨⟨lowerHex_ne_nil hinvocation, printable_lowerHex hinvocation⟩, cgroup_ne_nil hcgroup,
        printable_cgroup hcgroup⟩

theorem of_parse (h : parse raw = .ok r) :
    r.Valid ∧ Spelling raw r.encode := by
  obtain ⟨_, hlength, h⟩ := bind_eq_ok.mp h
  obtain ⟨ls, hls, h⟩ := bind_eq_ok.mp h
  obtain ⟨-, ⟨-, hlast⟩, hlines⟩ := recordLines_eq_ok.mp hls
  obtain ⟨_, hhead, h⟩ := bind_eq_ok.mp h
  obtain ⟨_, _, _, h₁, hlaunch, h⟩ := of_bind_readField h
  obtain ⟨_, _, _, h₂, hsession, h⟩ := of_bind_readField h
  obtain ⟨_, _, _, h₃, hsequence, h⟩ := of_bind_readField h
  obtain ⟨_, _, _, h₄, hstate, h⟩ := of_bind_readField h
  obtain ⟨_, _, _, h₅, hresult, h⟩ := of_bind_readField h
  obtain ⟨_, _, _, h₆, huid, h⟩ := of_bind_readField h
  obtain ⟨_, _, _, h₇, hboot, h⟩ := of_bind_readField h
  obtain ⟨_, _, _, h₈, hgeneration, h⟩ := of_bind_readField h
  obtain ⟨_, _, _, h₉, hmanifest, h⟩ := of_bind_readField h
  obtain ⟨_, _, _, h₁₀, hlease, h⟩ := of_bind_readField h
  obtain ⟨_, _, _, h₁₁, hkind, h⟩ := of_bind_readField h
  obtain ⟨_, _, _, h₁₂, hpid, h⟩ := of_bind_readField h
  obtain ⟨_, _, _, h₁₃, hstart, h⟩ := of_bind_readField h
  obtain ⟨_, _, _, h₁₄, hmode, h⟩ := of_bind_readField h
  obtain ⟨_, _, h₁₅, h⟩ := of_bind_recordValue h
  obtain ⟨_, _, h₁₆, h⟩ := of_bind_recordValue h
  obtain ⟨_, _, _, h₁₇, hgroup, h⟩ := of_bind_readField h
  obtain ⟨_, _, h₁₈, h⟩ := of_bind_recordValue h
  obtain ⟨_, _, _, h₁₉, hdevice, h⟩ := of_bind_readField h
  obtain ⟨_, _, _, h₂₀, hinode, h⟩ := of_bind_readField h
  obtain ⟨_, _, _, h₂₁, hexec, h⟩ := of_bind_readField h
  obtain ⟨_, _, _, h₂₂, hdrained, h⟩ := of_bind_readField h
  obtain ⟨_, hend, h⟩ := bind_eq_ok.mp h
  obtain ⟨⟨⟩, htuple, h⟩ := bind_eq_ok.mp h
  have hr := pure_eq_ok.mp h
  simp only [check_eq_ok, decide_eq_true_eq, tested_eq_ok, positiveU32_eq_ok,
    canonicalPositiveU64_eq_ok] at hlength hhead hend hboot hmanifest hlease hpid hsequence hstart
  simp only [GenerationId.parse_eq_ok, parse_eq_ok, canonicalU64_eq_ok,
    parseYesNo_eq_ok] at hgeneration hlaunch hsession hdevice hinode hexec hdrained
  simp only [LaunchState.table.parseName_eq_ok, LaunchResult.table.parseName_eq_ok,
    LeaseKind.table.parseName_eq_ok,
    OwnershipMode.table.parseName_eq_ok] at hstate hresult hkind hmode
  have hspelling : Spelling raw r.encode := by
    rw [← hr]
    refine ⟨hlast, _, rfl, ?_⟩
    rw [hlines, ← cons_head?_tail hhead, h₁, h₂, h₃, h₄, h₅, h₆, h₇, h₈, h₉, h₁₀, h₁₁, h₁₂,
      h₁₃, h₁₄, h₁₅, h₁₆, h₁₇, h₁₈, h₁₉, h₂₀, h₂₁, h₂₂, hend, hlaunch, hsession, hsequence.1,
      hstate, hresult, hboot.1, hgeneration, hmanifest.1, hlease.1, hkind, hstart.1, hmode, hdevice,
      hinode, hexec, hdrained]
    simp (disch := decide) only [forall₂_cons, forall₂_nil_left_iff,
      spelled_header, spelled_other, spelled_number huid, spelled_number hpid.1,
      spelled_number hgroup, and_self]
  refine ⟨⟨?_, hspelling.length_le.trans hlength⟩, hspelling⟩
  rw [← hr]
  exact ⟨hsequence.2, hboot.2, hmanifest.2, hlease.2, hpid.2, hstart.2, htuple⟩

theorem Valid.parse_encode (h : r.Valid) : parse r.encode = .ok r := by
  obtain ⟨⟨hunit, hunit'⟩, ⟨hinvocation, hinvocation'⟩, hcgroup, hcgroup'⟩ := h.texts
  have hmanifest : tested (lowerHex · 64) "launch manifest digest is malformed" r.manifestSha256 =
      .ok r.manifestSha256 := tested_eq_ok.mpr ⟨rfl, h.manifestSha256⟩
  simp only [parse, h.length, decide_true, check_true, ok_bind]
  rw [encode, recordLines_unlines]
  · simp [readField_recordLine, decimal_ne_nil, bootId_ne_nil h.bootId, hunit, hinvocation,
      hcgroup, GenerationId.text_ne_nil, lowerHex_ne_nil h.manifestSha256, lowerHex_ne_nil h.lease,
      printable_encode, LaunchState.table.printable, LaunchResult.table.printable,
      LeaseKind.table.printable, OwnershipMode.table.printable, table_yesNo.printable,
      LaunchState.table.parseName_eq_ok.mpr rfl, LaunchResult.table.parseName_eq_ok.mpr rfl,
      LeaseKind.table.parseName_eq_ok.mpr rfl, OwnershipMode.table.parseName_eq_ok.mpr rfl,
      parseYesNo_eq_ok.mpr rfl, canonicalPositiveU64_decimal h.sequence,
      canonicalPositiveU64_decimal h.ownerStartTime,
      positiveU32_eq_ok.mpr ⟨canonicalU32_decimal _ _, h.ownerPid⟩,
      tested_eq_ok.mpr ⟨rfl, h.bootId⟩, tested_eq_ok.mpr ⟨rfl, h.lease⟩, hmanifest, h.tuple]
  · exact cons_ne_nil _ _
  · refine forall_mem_cons.mpr ⟨by decide, ?_⟩
    simp (disch := decide) only [forall_mem_cons,
      printable_recordLine_iff, printable_encode, printable_decimal,
      LaunchState.table.printable, LaunchResult.table.printable, printable_bootId h.bootId,
      printable_id, printable_lowerHex h.manifestSha256, printable_lowerHex h.lease,
      LeaseKind.table.printable, OwnershipMode.table.printable, hunit', hinvocation', hcgroup',
      table_yesNo.printable, not_mem_nil, false_implies, implies_true, and_self]

end LaunchRecord

/-! ## One spelling of each fact -/

/-- How a record format reads a text and spells its records: what it accepts is valid, a valid
record is read back from its encoding, and an accepted text is that encoding exactly when its
numbers are plain. -/
structure Spells {R : Type} (parse : Bytes → Except String R) (encode : R → Bytes)
    (Valid : R → Prop) (raw : Bytes) : Prop where
  valid_of_parse {r : R} : parse raw = .ok r → Valid r
  parse_encode {r : R} : Valid r → parse (encode r) = .ok r
  encode_eq_iff_plain {r : R} : parse raw = .ok r → (encode r = raw ↔ Plain raw)

/-- The four record formats of leases and lifecycles spell their records in one way, up to a plus
sign before a 32-bit number. -/
theorem records_spelled_once (raw : Bytes) :
    Spells LeaseRecord.parse LeaseRecord.encode (fun _ => True) raw ∧
      Spells LifecycleLeaseRecord.parse LifecycleLeaseRecord.encode LifecycleLeaseRecord.Valid raw ∧
      Spells SessionRecord.parse SessionRecord.encode SessionRecord.Valid raw ∧
      Spells LaunchRecord.parse LaunchRecord.encode LaunchRecord.Valid raw :=
  ⟨⟨fun _ => trivial, fun {r} _ => r.parse_encode, fun h =>
      (LeaseRecord.spelling_of_parse h).eq_iff_plain⟩,
    ⟨fun h => (LifecycleLeaseRecord.of_parse h).1, LifecycleLeaseRecord.Valid.parse_encode,
      fun h => (LifecycleLeaseRecord.of_parse h).2.eq_iff_plain⟩,
    ⟨fun h => (SessionRecord.of_parse h).1, SessionRecord.Valid.parse_encode,
      fun h => (SessionRecord.of_parse h).2.eq_iff_plain⟩,
    ⟨fun h => (LaunchRecord.of_parse h).1, LaunchRecord.Valid.parse_encode,
      fun h => (LaunchRecord.of_parse h).2.eq_iff_plain⟩⟩

def leaseText (pid : String) : Bytes :=
  unlines [ascii "realm-generation-lease-v1",
    recordLine "generation" (ascii "0123456789abcdef0123456789abcdef"),
    recordLine "pid" (ascii pid),
    recordLine "start-time" (ascii "7"),
    recordLine "boot-id" (ascii "01234567-89ab-cdef-0123-456789abcdef"),
    recordLine "owner-uid" (ascii "1000")]

/-- A process id behind a plus sign, and one padded with zeros behind it, are read as the number
and written back without it. -/
theorem lease_pid_behind_plus :
    (LeaseRecord.parse (leaseText "+1")).map LeaseRecord.encode = .ok (leaseText "1") ∧
      (LeaseRecord.parse (leaseText "+001")).map LeaseRecord.encode = .ok (leaseText "1") ∧
      leaseText "1" ≠ leaseText "+1" ∧ leaseText "1" ≠ leaseText "+001" := by
  decide +kernel

end Realm.Theme

import Mathlib.Data.List.Induction
import Mathlib.Data.List.Lex
import Mathlib.Data.Fin.Basic
import Mathlib.Order.Fin.Basic
import Mathlib.Data.Nat.Digits.Defs
import Mathlib.Tactic.IntervalCases

/-!
# Text as bytes

Text is a list of bytes, as it lies in a file.  The file gives the pieces a
line-oriented record format is read and written with: lines and their ends,
prefixes, a split at the first separator, decimal numerals and the check that
bytes are UTF-8.  Each reader comes with the lemma that it undoes its writer.
-/

abbrev Byte := Fin 256

abbrev Bytes := List Byte

instance byteNeZero : NeZero 256 := ⟨by decide⟩

instance byteLawful : LawfulBEq Byte := inferInstance

instance bytesLawful : LawfulBEq Bytes := inferInstance

namespace Text

open List

variable {digits text : Bytes} {ls : List Bytes} {b separator : Byte} {c : Char} {n bound : ℕ}

def byte (c : Char) : Byte := Fin.ofNat 256 c.toNat

def ascii (literal : String) : Bytes := literal.toList.map byte

def lf : Byte := 10

def cr : Byte := 13

def space : Byte := 32

def slash : Byte := 47

def isDigit (b : Byte) : Bool := 48 ≤ b && b ≤ 57

def isLowerHex (b : Byte) : Bool := isDigit b || (97 ≤ b && b ≤ 102)

/-! ## UTF-8 -/

/-- The ranges of the bytes that must follow a leading byte. -/
def continuation (lead : Byte) : Option (List (Byte × Byte)) :=
  if lead < 0x80 then some []
  else if 0xC2 ≤ lead ∧ lead ≤ 0xDF then some [(0x80, 0xBF)]
  else if lead = 0xE0 then some [(0xA0, 0xBF), (0x80, 0xBF)]
  else if lead = 0xED then some [(0x80, 0x9F), (0x80, 0xBF)]
  else if 0xE1 ≤ lead ∧ lead ≤ 0xEF then some [(0x80, 0xBF), (0x80, 0xBF)]
  else if lead = 0xF0 then some [(0x90, 0xBF), (0x80, 0xBF), (0x80, 0xBF)]
  else if 0xF1 ≤ lead ∧ lead ≤ 0xF3 then some [(0x80, 0xBF), (0x80, 0xBF), (0x80, 0xBF)]
  else if lead = 0xF4 then some [(0x80, 0x8F), (0x80, 0xBF), (0x80, 0xBF)]
  else none

/-- The bytes complete a character whose remaining bytes lie in these ranges, and
go on as UTF-8. -/
def isUtf8After : List (Byte × Byte) → Bytes → Bool
  | [], [] => true
  | _ :: _, [] => false
  | (low, high) :: ranges, b :: rest => low ≤ b && b ≤ high && isUtf8After ranges rest
  | [], b :: rest =>
    match continuation b with
    | some ranges => isUtf8After ranges rest
    | none => false

def isUtf8 (text : Bytes) : Bool := isUtf8After [] text

theorem isUtf8_of_ascii (h : ∀ b ∈ text, b < 0x80) : isUtf8 text = true := by
  unfold isUtf8
  induction text with
  | nil => rfl
  | cons b rest ih =>
    have hb : continuation b = some [] := if_pos (h b mem_cons_self)
    simp only [isUtf8After, hb]
    exact ih fun b' hb' => h b' (mem_cons_of_mem _ hb')

/-! ## Lines -/

/-- Lines, each with its line feed. -/
def unlines (lines : List Bytes) : Bytes := lines.flatMap fun line => line ++ [lf]

/-- The lines of a text that ends in a line feed. -/
def lines (text : Bytes) : List Bytes := text.dropLast.splitOn lf

theorem unlines_eq_intercalate (h : ls ≠ []) : unlines ls = [lf].intercalate ls ++ [lf] := by
  induction ls with
  | nil => exact absurd rfl h
  | cons line ls ih =>
    cases ls with
    | nil => simp [unlines, intercalate]
    | cons line' ls =>
      have hcons : unlines (line :: line' :: ls) = line ++ [lf] ++ unlines (line' :: ls) := rfl
      rw [hcons, ih (cons_ne_nil _ _)]
      simp [intercalate, intersperse]

theorem lines_unlines (hne : ls ≠ []) (h : ∀ line ∈ ls, lf ∉ line) : lines (unlines ls) = ls := by
  rw [lines, unlines_eq_intercalate hne, dropLast_concat]
  exact splitOn_intercalate lf h hne

theorem getLast?_unlines (hne : ls ≠ []) : (unlines ls).getLast? = some lf := by
  rw [unlines_eq_intercalate hne, getLast?_concat]

theorem mem_unlines : b ∈ unlines ls ↔ ∃ line ∈ ls, b ∈ line ∨ b = lf := by
  simp [unlines]

/-! ## Prefixes and separators -/

def stripPrefix (start text : Bytes) : Option Bytes :=
  if start <+: text then some (text.drop start.length) else none

@[simp] theorem stripPrefix_append (start rest : Bytes) :
    stripPrefix start (start ++ rest) = some rest := by
  rw [stripPrefix, if_pos (prefix_append start rest), drop_left]

theorem stripPrefix_eq_some {start rest : Bytes} :
    stripPrefix start text = some rest ↔ text = start ++ rest := by
  constructor
  · intro h
    rw [stripPrefix] at h
    split_ifs at h with hp
    obtain ⟨tail, rfl⟩ := hp
    rw [drop_left, Option.some_inj] at h
    rw [h]
  · rintro rfl
    exact stripPrefix_append start rest

/-- What precedes and what follows the first separator. -/
def splitOnce (separator : Byte) (text : Bytes) : Option (Bytes × Bytes) :=
  match text.dropWhile (· ≠ separator) with
  | _ :: after => some (text.takeWhile (· ≠ separator), after)
  | [] => none

theorem splitOnce_append {before : Bytes} (after : Bytes) (h : separator ∉ before) :
    splitOnce separator (before ++ separator :: after) = some (before, after) := by
  have hall : ∀ b ∈ before, (decide (b ≠ separator)) = true := by
    intro b hb
    exact decide_eq_true fun heq => h (heq ▸ hb)
  rw [splitOnce, takeWhile_append_of_pos hall, dropWhile_append_of_pos hall]
  simp

/-- The parts between separators hold the bytes of the text without the separators. -/
theorem of_mem_splitOn {part : Bytes}
    (hpart : part ∈ text.splitOn separator) (hb : b ∈ part) : b ∈ text ∧ b ≠ separator := by
  induction text generalizing part with
  | nil =>
    rw [splitOn_nil, mem_singleton] at hpart
    subst hpart
    exact absurd hb not_mem_nil
  | cons x text ih =>
    rw [splitOn_cons_eq_if_modifyHead] at hpart
    split_ifs at hpart with hx
    · rcases mem_cons.mp hpart with rfl | hpart
      · exact absurd hb not_mem_nil
      · exact (ih hpart hb).imp_left (mem_cons_of_mem x)
    · cases hsplit : text.splitOn separator with
      | nil => exact absurd hsplit (splitOn_ne_nil _ _)
      | cons =>
        rw [hsplit] at hpart ih
        rcases mem_cons.mp hpart with rfl | hpart
        · rcases mem_cons.mp hb with rfl | hb
          · exact ⟨mem_cons_self, by simpa using hx⟩
          · exact (ih mem_cons_self hb).imp_left (mem_cons_of_mem x)
        · exact (ih (mem_cons_of_mem _ hpart) hb).imp_left (mem_cons_of_mem x)

/-! ## Decimal numerals -/

def decimal (n : ℕ) : Bytes := (Nat.toDigits 10 n).map byte

def char (b : Byte) : Char := Char.ofNat b.val

/-- The numeral after an optional plus sign. -/
def afterSign (value : Bytes) : Bytes :=
  if value.head? = some 43 then value.tail else value

/-- Read an unsigned number below `bound`; one plus sign may stand before it. -/
def parseUnsigned (bound : ℕ) (value : Bytes) : Option ℕ :=
  let digits := afterSign value
  if digits ≠ [] ∧ digits.all isDigit ∧ Nat.ofDigitChars 10 (digits.map char) 0 < bound then
    some (Nat.ofDigitChars 10 (digits.map char) 0)
  else none

theorem toNat_of_isDigit (h : c.isDigit = true) : 48 ≤ c.toNat ∧ c.toNat ≤ 57 :=
  Char.isDigit_iff_toNat.mp h

theorem char_byte_of_isDigit (h : c.isDigit = true) : char (byte c) = c := by
  have hrange := toNat_of_isDigit h
  have hval : c.toNat < 256 := by omega
  rw [char, byte, Fin.val_ofNat, Nat.mod_eq_of_lt hval, Char.ofNat_toNat]

theorem isDigit_byte (h : c.isDigit = true) : isDigit (byte c) = true := by
  have hrange := toNat_of_isDigit h
  have hval : (byte c).val = c.toNat := by
    rw [byte, Fin.val_ofNat]
    omega
  simp only [isDigit, Bool.and_eq_true, decide_eq_true_eq, Fin.le_def, hval]
  exact hrange

theorem isDigit_of_mem_decimal (h : b ∈ decimal n) : isDigit b = true := by
  obtain ⟨c, hc, rfl⟩ := mem_map.mp h
  exact isDigit_byte (Nat.isDigit_of_mem_toDigits (b := 10) (by decide) (by decide) hc)

theorem decimal_ne_nil (n : ℕ) : decimal n ≠ [] := by
  rw [decimal, ne_eq, map_eq_nil_iff]
  exact Nat.toDigits_ne_nil

theorem map_char_decimal (n : ℕ) : (decimal n).map char = Nat.toDigits 10 n := by
  rw [decimal, map_map]
  refine (map_congr_left fun c hc => ?_).trans (map_id _)
  exact char_byte_of_isDigit (Nat.isDigit_of_mem_toDigits (b := 10) (by decide) (by decide) hc)

theorem parseUnsigned_of_digits {value : Bytes} (hne : value ≠ [])
    (hdigits : ∀ b ∈ value, isDigit b = true) : parseUnsigned bound value =
      if Nat.ofDigitChars 10 (value.map char) 0 < bound then
        some (Nat.ofDigitChars 10 (value.map char) 0) else none := by
  have hplus : afterSign value = value := by
    refine if_neg fun hhead => ?_
    have hmem : (43 : Byte) ∈ value := mem_of_mem_head? hhead
    exact absurd (hdigits 43 hmem) (by decide)
  have hall : value.all isDigit = true := all_eq_true.mpr hdigits
  simp only [parseUnsigned, hplus, hne, hall, ne_eq, not_false_eq_true, true_and]

theorem parseUnsigned_decimal (h : n < bound) : parseUnsigned bound (decimal n) = some n := by
  rw [parseUnsigned_of_digits (decimal_ne_nil n) fun b hb => isDigit_of_mem_decimal hb,
    map_char_decimal, Nat.ofDigitChars_ten_toDigits, if_pos h]

theorem head?_decimal (h : n ≠ 0) : (decimal n).head? ≠ some 48 := by
  induction n using Nat.strong_induction_on with
  | _ n ih =>
    by_cases hlt : n < 10
    · rw [decimal, Nat.toDigits_of_lt_base hlt]
      interval_cases n <;> first | exact absurd rfl h | decide
    · have hle : 10 ≤ n := by omega
      have hsplit : decimal n = decimal (n / 10) ++ [byte (n % 10).digitChar] := by
        rw [decimal, Nat.toDigits_of_base_le (by decide) hle, map_append]
        rfl
      rw [hsplit, head?_append_of_ne_nil _ (decimal_ne_nil _)]
      exact ih (n / 10) (Nat.div_lt_self (by omega) (by decide)) (by omega)

theorem decimal_zero : decimal 0 = [48] := by decide

def numeral (digits : Bytes) : ℕ := Nat.ofDigitChars 10 (digits.map char) 0

theorem numeral_decimal (n : ℕ) : numeral (decimal n) = n := by
  rw [numeral, map_char_decimal, Nat.ofDigitChars_ten_toDigits]

theorem decimal_injective : Function.Injective decimal :=
  Function.LeftInverse.injective numeral_decimal

theorem numeral_concat (digits : Bytes) (b : Byte) :
    numeral (digits ++ [b]) = 10 * numeral digits + numeral [b] := by
  rw [numeral, map_append, Nat.ofDigitChars_append, map_singleton, numeral, numeral,
    map_singleton, Nat.ofDigitChars_cons, Nat.ofDigitChars_cons, Nat.ofDigitChars_nil,
    Nat.ofDigitChars_nil]
  omega

/-- Digits without a leading zero are the numeral of the number they spell. -/
theorem decimal_numeral (hne : digits ≠ []) (hdigits : ∀ b ∈ digits, isDigit b = true)
    (hzero : digits.head? = some 48 → digits.length = 1) : decimal (numeral digits) = digits := by
  have hdigit : ∀ b, isDigit b = true → decimal (numeral [b]) = [b] ∧ numeral [b] < 10 := by
    decide +kernel
  induction digits using reverseRecOn with
  | nil => exact absurd rfl hne
  | append_singleton digits b ih =>
    obtain ⟨hb, hlt⟩ := hdigit b (hdigits b (by simp))
    by_cases hnil : digits = []
    · rw [hnil, nil_append, hb]
    · have hhead : digits.head? ≠ some 48 := by
        intro h
        have hlength := hzero (by rw [head?_append_of_ne_nil _ hnil, h])
        rw [length_append, length_singleton] at hlength
        exact hnil (length_eq_zero_iff.mp (by omega))
      have hih := ih hnil (fun c hc => hdigits c (by simp [hc])) fun h => absurd h hhead
      have hpos : numeral digits ≠ 0 := by
        intro h
        rw [h, decimal_zero] at hih
        exact hhead (by rw [← hih]; rfl)
      have hdigitChar : [byte (numeral [b]).digitChar] = decimal (numeral [b]) := by
        rw [decimal, Nat.toDigits_of_lt_base hlt]
        rfl
      have hdiv : (10 * numeral digits + numeral [b]) / 10 = numeral digits := by omega
      have hmod : (10 * numeral digits + numeral [b]) % 10 = numeral [b] := by omega
      rw [numeral_concat, decimal, Nat.toDigits_of_base_le (by decide) (by omega),
        map_append, hdiv, hmod, map_singleton, hdigitChar, hb, ← decimal, hih]

theorem length_decimal_numeral_le (hne : digits ≠ []) (hdigits : ∀ b ∈ digits, isDigit b = true) :
    (decimal (numeral digits)).length ≤ digits.length := by
  induction digits with
  | nil => exact absurd rfl hne
  | cons b digits ih =>
    by_cases hzero : b = 48 ∧ digits ≠ []
    · obtain ⟨rfl, hne'⟩ := hzero
      have hnumeral : numeral (48 :: digits) = numeral digits := by
        rw [numeral, map_cons, Nat.ofDigitChars_cons]
        rfl
      rw [hnumeral, length_cons]
      exact (ih hne' fun b hb => hdigits b (mem_cons_of_mem _ hb)).trans (Nat.le_succ _)
    · refine (congrArg length (decimal_numeral hne hdigits fun hhead => ?_)).le
      rw [head?_cons, Option.some.injEq] at hhead
      simpa [hhead] using hzero

theorem length_unlines_le {ls' : List Bytes}
    (h : List.Forall₂ (fun line line' => line.length ≤ line'.length) ls ls') :
    (unlines ls).length ≤ (unlines ls').length := by
  induction h with
  | nil => exact le_rfl
  | cons hline _ ih =>
    simp only [unlines, flatMap_cons, length_append] at ih ⊢
    omega

end Text

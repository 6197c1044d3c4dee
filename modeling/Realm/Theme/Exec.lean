import Mathlib.Data.List.ReduceOption
import Mathlib.Data.List.TakeDrop
import Mathlib.Data.List.TakeWhile
import Realm.Lib.Guard
import Realm.Lib.Pattern
import Realm.Lib.Text

/-!
# The command of a desktop entry

The value of `Exec` is read in three passes: its escapes are decoded, the text is cut into
arguments at spaces, and the field codes of the arguments are expanded.
-/

namespace Realm.Theme.DesktopExec

open Text Guard List
open Pattern (span_eq_iff)

variable {token : Token} {text rest value : Bytes} {tokens : List Token}

inductive DesktopExecError where
  | empty
  | staticArgument
  | unsupportedFieldCode
  | malformedEscape
  | unsafeByte
deriving DecidableEq

/-- An argument as it stands in the text. -/
structure Token where
  bytes : Bytes
  quoted : Bool

def quote : Byte := 34

def percent : Byte := 37

def equals : Byte := 61

def backslash : Byte := 92

def isSafeAscii (b : Byte) : Bool := 32 ≤ b && b ≤ 126

def isUnquotedReserved (b : Byte) : Bool := b ∈ ascii "\\'><~|&;$*?#()`"

/-! ## Reading -/

def escapedByte (escaped : Byte) : Option Byte :=
  [(byte 's', space), (byte 'n', lf), (byte 't', 9), (byte 'r', cr),
    (backslash, backslash)].lookup escaped

/-- The bytes of a text in which a mark stands only before a code of the table. -/
def decode (mark : Byte) (table : Byte → Option Byte) (e : DesktopExecError) :
    Bytes → Except DesktopExecError Bytes
  | [] => .ok []
  | b :: value =>
    if b ≠ mark then return b :: (← decode mark table e value)
    else
      match value with
      | [] => .error e
      | code :: value =>
        match table code with
        | none => .error e
        | some b => return b :: (← decode mark table e value)

def generalUnescape (value : Bytes) : Except DesktopExecError Bytes := do
  let unescaped ← decode backslash escapedByte .malformedEscape value
  if unescaped.all isSafeAscii then .ok unescaped else .error .unsafeByte

/-- The next whole argument and what follows it. -/
def nextArgument (value : Bytes) : Except DesktopExecError (Option (Token × Bytes)) :=
  match value.span (· = space) with
  | (_, []) => .ok none
  | (_, b :: value) =>
    if b = quote then
      match value.span (· ≠ quote) with
      | (_, []) => .error .staticArgument
      | (bytes, _ :: rest) =>
        if rest.head?.all (· = space) then .ok (some (⟨bytes, true⟩, rest))
        else .error .staticArgument
    else
      match (b :: value).span (· ≠ space) with
      | (run, rest) =>
        if run.any fun b => b = quote || isUnquotedReserved b then .error .staticArgument
        else .ok (some (⟨run, false⟩, rest))

def literal (code : Byte) : Option Byte := if code = percent then some percent else none

/-- A payload field code stands alone: an unquoted token of two bytes. -/
def isPayload (token : Token) : Bool :=
  !token.quoted && (ascii "fFuU").any fun code => token.bytes = [percent, code]

/-- What is left of a token: nothing of a payload. -/
def expandToken (token : Token) : Except DesktopExecError (Option Bytes) :=
  if token.quoted && token.bytes.contains percent then .error .unsupportedFieldCode
  else if isPayload token then .ok none
  else (decode percent literal .unsupportedFieldCode token.bytes).map some

/-- The arguments that are left, when there were so many payload field codes. -/
def expandTokens (payloadFieldCodes : ℕ) : List Token → Except DesktopExecError (List Bytes)
  | [] => .ok []
  | token :: tokens => do
    match ← expandToken token with
    | some bytes => return bytes :: (← expandTokens payloadFieldCodes tokens)
    | none =>
      if payloadFieldCodes + 1 > 1 then throw .unsupportedFieldCode
      else expandTokens (payloadFieldCodes + 1) tokens

/-! ## Arguments in a text -/

namespace Token

def written (token : Token) : Bytes :=
  if token.quoted then quote :: token.bytes ++ [quote] else token.bytes

/-- A token can be told from what stands around it. -/
def Valid (token : Token) : Prop :=
  if token.quoted then quote ∉ token.bytes
  else token.bytes ≠ [] ∧
    ∀ b ∈ token.bytes, b ≠ space ∧ b ≠ quote ∧ isUnquotedReserved b = false

theorem Valid.written_ne_nil (h : token.Valid) : token.written ≠ [] := by
  unfold Valid at h
  unfold written
  split_ifs at h ⊢
  · simp
  · exact h.1

end Token

def Blank (gap : Bytes) : Prop := ∀ b ∈ gap, b = space

/-- The text begins with an argument, that ends where it ends or before a space. -/
structure Begins (value : Bytes) (token : Token) (rest : Bytes) : Prop where
  valid : token.Valid
  whole : ∀ b ∈ rest.head?, b = space
  gap : ∃ gap, Blank gap ∧ value = gap ++ token.written ++ rest

theorem of_nextArgument {next : Option (Token × Bytes)} (h : nextArgument value = .ok next) :
    next.elim (Blank value) fun (token, rest) => Begins value token rest := by
  rw [nextArgument] at h
  split at h
  · rename_i gap hspan
    cases h
    obtain ⟨rfl, hgap, -⟩ := span_eq_iff.mp hspan
    simpa [Blank] using hgap
  · rename_i gap b text hspan
    obtain ⟨rfl, hgap, hb⟩ := span_eq_iff.mp hspan
    simp only [decide_eq_true_eq] at hgap
    split_ifs at h with hquote
    · split at h
      · cases h
      · rename_i bytes c rest hbytes
        obtain ⟨hwhole, h⟩ := else_error_eq_ok.mp h
        cases h
        obtain ⟨rfl, hbytes, hc⟩ := span_eq_iff.mp hbytes
        have hclose : c = quote := by simpa using hc
        refine ⟨fun hmem => by simpa using hbytes _ hmem, ?_, gap, hgap, ?_⟩
        · simpa using (Option.all_eq_true _ _).mp hwhole
        · simp [Token.written, hquote, hclose]
    · split at h
      rename_i run rest hrun
      obtain ⟨hplain, h⟩ := ite_error_eq_ok.mp h
      cases h
      obtain ⟨htext, hrun, hrest⟩ := span_eq_iff.mp hrun
      have hne : run ≠ [] := by
        rintro rfl
        rw [nil_append] at htext
        simp [← htext] at hrest hb
        exact hb hrest
      refine ⟨⟨hne, fun c hc => ?_⟩, by simpa using hrest, gap, hgap,
        by simp [Token.written, htext]⟩
      simp only [any_eq_true, not_exists, not_and, Bool.or_eq_true, not_or] at hplain
      exact ⟨by simpa using hrun c hc, by simpa using hplain c hc⟩

theorem Blank.nextArgument (h : Blank value) : nextArgument value = .ok none := by
  have hspan : value.span (· = space) = (value, []) :=
    span_eq_iff.mpr ⟨(append_nil _).symm, by simpa [Blank] using h, by simp⟩
  rw [DesktopExec.nextArgument, hspan]

theorem Begins.nextArgument (h : Begins value token rest) :
    nextArgument value = .ok (some (token, rest)) := by
  obtain ⟨hvalid, hwhole, gap, hgap, rfl⟩ := h
  obtain ⟨bytes, quoted⟩ := token
  have hgap' : ∀ b ∈ gap, decide (b = space) = true := by simpa [Blank] using hgap
  cases quoted with
  | true =>
    have hspan : (gap ++ Token.written ⟨bytes, true⟩ ++ rest).span (· = space) =
        (gap, quote :: (bytes ++ quote :: rest)) :=
      span_eq_iff.mpr ⟨by simp [Token.written], hgap', by simp [quote, space]⟩
    have hbytes : (bytes ++ quote :: rest).span (· ≠ quote) = (bytes, quote :: rest) := by
      refine span_eq_iff.mpr ⟨rfl, fun b hb => ?_, by simp⟩
      simpa using ne_of_mem_of_not_mem hb hvalid
    have hend : rest.head?.all (· = space) = true :=
      (Option.all_eq_true _ _).mpr (by simpa using hwhole)
    simp only [nextArgument, hspan, hbytes, hend, if_true]
  | false =>
    obtain ⟨hne, hplain⟩ := hvalid
    obtain ⟨b, run, rfl⟩ := exists_cons_of_ne_nil hne
    have hspan : (gap ++ Token.written ⟨b :: run, false⟩ ++ rest).span (· = space) =
        (gap, b :: (run ++ rest)) :=
      span_eq_iff.mpr ⟨by simp [Token.written], hgap', by simpa using (hplain b mem_cons_self).1⟩
    have hrun : (b :: (run ++ rest)).span (· ≠ space) = (b :: run, rest) :=
      span_eq_iff.mpr ⟨rfl, fun c hc => by simpa using (hplain c hc).1, by simpa using hwhole⟩
    have hsafe : (b :: run).any (fun b => b = quote || isUnquotedReserved b) = false :=
      any_eq_false.mpr fun c hc => by simp [(hplain c hc).2]
    simp only [nextArgument, hspan, (hplain b mem_cons_self).2.1, if_false, hrun, hsafe,
      Bool.false_eq_true]

theorem Begins.length_lt (h : Begins value token rest) : rest.length < value.length := by
  obtain ⟨hvalid, -, gap, -, rfl⟩ := h
  have hpos := length_pos_iff.mpr hvalid.written_ne_nil
  simp only [length_append]
  omega

def arguments (value : Bytes) : Except DesktopExecError (List Token) :=
  match _h : nextArgument value with
  | .error e => .error e
  | .ok none => .ok []
  | .ok (some (token, rest)) => return token :: (← arguments rest)
termination_by value.length
decreasing_by exact (of_nextArgument _h).length_lt

def tokenizeWholeArguments (value : Bytes) : Except DesktopExecError (List Token) := do
  let tokens ← arguments value
  if tokens.isEmpty then .error .empty else .ok tokens

def tokenizeAndExpandOnce (value : Bytes) : Except DesktopExecError (List Bytes) := do
  let value ← generalUnescape value
  let tokens ← tokenizeWholeArguments value
  expandTokens 0 tokens

def parseExec (value : Bytes) : Except DesktopExecError (List Bytes) := do
  match ← tokenizeAndExpandOnce value with
  | [token] =>
    if token.isEmpty || token.contains equals then throw .staticArgument else return [token]
  | _ => throw .staticArgument

/-- The text splits at spaces into whole arguments. -/
inductive Splits : Bytes → List Token → Prop where
  | nil {gap : Bytes} (blank : Blank gap) : Splits gap []
  | cons {value rest : Bytes} {token : Token} {tokens : List Token}
      (begins : Begins value token rest) (tail : Splits rest tokens) :
      Splits value (token :: tokens)

theorem arguments_eq_ok : arguments value = .ok tokens ↔ Splits value tokens := by
  constructor
  · intro h
    induction hlength : value.length using Nat.strong_induction_on generalizing value tokens with
    | _ n ih =>
      rw [arguments] at h
      split at h
      · cases h
      · rename_i hnext
        cases h
        exact .nil (of_nextArgument hnext)
      · rename_i token rest hnext
        obtain ⟨tokens, hrest, h⟩ := bind_eq_ok.mp h
        obtain rfl := pure_eq_ok.mp h
        have hbegins : Begins value token rest := of_nextArgument hnext
        exact .cons hbegins (ih _ (hlength ▸ hbegins.length_lt) hrest rfl)
  · intro h
    induction h with
    | nil blank =>
      rw [arguments]
      split <;> simp_all [blank.nextArgument]
    | cons begins tail ih =>
      rw [arguments]
      split <;> simp_all [begins.nextArgument, pure, Except.pure]

/-! ## Escapes and field codes -/

/-- What a text says when each mark and the code after it are read as one byte. -/
inductive Decodes (mark : Byte) (table : Byte → Option Byte) : Bytes → Bytes → Prop where
  | nil : Decodes mark table [] []
  | plain {b : Byte} {value text : Bytes} (h : b ≠ mark) (tail : Decodes mark table value text) :
      Decodes mark table (b :: value) (b :: text)
  | coded {code b : Byte} {value text : Bytes} (h : table code = some b)
      (tail : Decodes mark table value text) :
      Decodes mark table (mark :: code :: value) (b :: text)

section Decode

variable {mark : Byte} {table : Byte → Option Byte} {e : DesktopExecError} {value text : Bytes}

theorem decode_eq_ok : decode mark table e value = .ok text ↔ Decodes mark table value text := by
  constructor
  · intro h
    fun_induction decode mark table e value generalizing text with
    | case1 =>
      cases h
      exact .nil
    | case2 b value hb ih =>
      obtain ⟨tail, htail, h⟩ := bind_eq_ok.mp h
      obtain rfl := pure_eq_ok.mp h
      exact .plain hb (ih htail)
    | case3 | case4 => cases h
    | case5 b hb code value b' hcode ih =>
      obtain ⟨tail, htail, h⟩ := bind_eq_ok.mp h
      obtain rfl := pure_eq_ok.mp h
      rw [not_not.mp hb]
      exact .coded hcode (ih htail)
  · intro h
    induction h with
    | nil => rfl
    | plain h tail ih =>
      unfold decode
      simp [h, ih, pure, Except.pure]
    | coded h tail ih => simp [decode, h, ih, pure, Except.pure]

theorem Decodes.of_not_mem (h : mark ∉ text) : Decodes mark table text text := by
  induction text with
  | nil => exact .nil
  | cons b text ih =>
    obtain ⟨hb, htext⟩ := not_or.mp (mt mem_cons.mpr h)
    exact .plain (Ne.symm hb) (ih htext)

end Decode

/-- What an argument means: the bytes that are left of it, or nothing. -/
inductive Expands : Token → Option Bytes → Prop where
  | quoted {bytes : Bytes} (h : percent ∉ bytes) : Expands ⟨bytes, true⟩ (some bytes)
  | plain {bytes left : Bytes} (h : Decodes percent literal bytes left) :
      Expands ⟨bytes, false⟩ (some left)
  | payload {code : Byte} (h : code ∈ ascii "fFuU") : Expands ⟨[percent, code], false⟩ none

theorem expandToken_eq_ok {left : Option Bytes} :
    expandToken token = .ok left ↔ Expands token left := by
  obtain ⟨bytes, quoted⟩ := token
  constructor
  · intro h
    obtain ⟨hquoted, h⟩ := ite_error_eq_ok.mp h
    split at h
    · rename_i hpayload
      cases h
      simp only [isPayload, Bool.and_eq_true, any_eq_true, decide_eq_true_eq] at hpayload
      obtain ⟨hplain, code, hcode, rfl⟩ := hpayload
      obtain rfl : quoted = false := by simpa using hplain
      exact .payload hcode
    · obtain ⟨expanded, hexpanded, rfl⟩ := map_eq_ok.mp h
      cases quoted with
      | false => exact .plain (decode_eq_ok.mp hexpanded)
      | true =>
        have hliteral : percent ∉ bytes := by simpa using hquoted
        rw [decode_eq_ok.mpr (.of_not_mem hliteral)] at hexpanded
        cases hexpanded
        exact .quoted hliteral
  · intro h
    cases h with
    | quoted h =>
      simp [expandToken, isPayload, h, decode_eq_ok.mpr (.of_not_mem h)]
      rfl
    | plain h =>
      have hpayload : isPayload ⟨bytes, false⟩ = false := by
        refine any_eq_false.mpr fun code hcode hbytes => ?_
        obtain rfl : bytes = [percent, code] := of_decide_eq_true hbytes
        have hne : code ≠ percent := ne_of_mem_of_not_mem hcode (by decide)
        cases h with
        | plain h => exact h rfl
        | coded h => simp [literal, hne] at h
      rw [expandToken, hpayload]
      simp [decode_eq_ok.mpr h]
      rfl
    | payload h => simp [expandToken, isPayload, h]

theorem expandTokens_eq_ok {codes : ℕ} {left : List Bytes} (h : codes ≤ 1) :
    expandTokens codes tokens = .ok left ↔ ∃ values, Forall₂ Expands tokens values ∧
      codes + values.count none ≤ 1 ∧ values.reduceOption = left := by
  induction tokens generalizing codes left with
  | nil => simp [expandTokens, h, eq_comm, reduceOption_nil]
  | cons token tokens ih =>
    rw [expandTokens, bind_eq_ok]
    simp only [expandToken_eq_ok, forall₂_cons_left_iff]
    constructor
    · rintro ⟨value, hvalue, htail⟩
      cases value with
      | some bytes =>
        simp only [bind_eq_ok, pure_eq_ok] at htail
        obtain ⟨left, htail, rfl⟩ := htail
        obtain ⟨values, hvalues, hcount, rfl⟩ := (ih h).mp htail
        exact ⟨_, ⟨_, _, hvalue, hvalues, rfl⟩, by simpa using hcount,
          reduceOption_cons_of_some _ _⟩
      | none =>
        obtain ⟨hcodes, htail⟩ := ite_error_eq_ok.mp htail
        obtain ⟨values, hvalues, hcount, rfl⟩ := (ih (by omega)).mp htail
        refine ⟨_, ⟨_, _, hvalue, hvalues, rfl⟩, ?_, reduceOption_cons_of_none _⟩
        rw [count_cons_self]
        omega
    · rintro ⟨_, ⟨value, values, hvalue, hvalues, rfl⟩, hcount, rfl⟩
      refine ⟨value, hvalue, ?_⟩
      cases value with
      | some bytes =>
        have htail := (ih h).mpr ⟨values, hvalues, by simpa using hcount, rfl⟩
        simp [htail, pure, Except.pure, reduceOption_cons_of_some]
      | none =>
        rw [count_cons_self] at hcount
        obtain rfl : codes = 0 := by omega
        simpa [reduceOption_cons_of_none] using (ih le_rfl).mpr ⟨values, hvalues, by omega, rfl⟩

/-! ## Commands -/

theorem generalUnescape_eq_ok : generalUnescape value = .ok text ↔
    Decodes backslash escapedByte value text ∧ ∀ b ∈ text, isSafeAscii b := by
  rw [generalUnescape, bind_eq_ok]
  simp [decode_eq_ok, else_error_eq_ok, and_comm, and_left_comm]

theorem tokenizeWholeArguments_eq_ok :
    tokenizeWholeArguments value = .ok tokens ↔ Splits value tokens ∧ tokens ≠ [] := by
  rw [tokenizeWholeArguments, bind_eq_ok]
  simp [arguments_eq_ok, ite_error_eq_ok, and_comm]

/-- The accepted commands: whole arguments, one of which is left, without `=`, and at most one
payload. -/
theorem parseExec_eq_ok {value : Bytes} {argv : List Bytes} :
    parseExec value = .ok argv ↔ ∃ text tokens values bytes,
      Decodes backslash escapedByte value text ∧ (∀ b ∈ text, isSafeAscii b) ∧
      Splits text tokens ∧ Forall₂ Expands tokens values ∧ values.count none ≤ 1 ∧
      values.reduceOption = [bytes] ∧ bytes ≠ [] ∧ equals ∉ bytes ∧ argv = [bytes] := by
  simp only [parseExec, tokenizeAndExpandOnce, bind_eq_ok, generalUnescape_eq_ok,
    tokenizeWholeArguments_eq_ok, expandTokens_eq_ok zero_le_one, zero_add]
  constructor
  · rintro ⟨left, ⟨text, ⟨hdecodes, hsafe⟩, tokens, ⟨hsplits, -⟩, values, hvalues, hcount, rfl⟩, h⟩
    split at h
    · rename_i bytes hbytes
      obtain ⟨hfit, h⟩ := ite_error_eq_ok.mp h
      obtain ⟨hne, hequals⟩ : bytes ≠ [] ∧ equals ∉ bytes := by simpa using hfit
      exact ⟨text, tokens, values, bytes, hdecodes, hsafe, hsplits, hvalues, hcount, hbytes, hne,
        hequals, (pure_eq_ok.mp h).symm⟩
    · cases h
  · rintro ⟨text, tokens, values, bytes, hdecodes, hsafe, hsplits, hvalues, hcount, hbytes, hne,
      hequals, rfl⟩
    have htokens : tokens ≠ [] := by
      rintro rfl
      rw [forall₂_nil_left_iff.mp hvalues] at hbytes
      cases hbytes
    refine ⟨[bytes], ⟨text, ⟨hdecodes, hsafe⟩, tokens, ⟨hsplits, htokens⟩, values, hvalues, hcount,
      hbytes⟩, ?_⟩
    simp [hne, hequals]
    rfl

end Realm.Theme.DesktopExec

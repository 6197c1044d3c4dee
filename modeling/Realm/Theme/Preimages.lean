import Mathlib.Data.List.Sort
import Realm.Lib.Delimited
import Realm.Lib.SortedMap
import Realm.Theme.Manifest

/-!
# What the input digests stand for

A publication records a digest of each of its inputs.  The digested text of the templates and of
the renderer options is a row of entries, each of them fields behind their lengths, so that two
inputs with the same text are the same.
-/

namespace Realm.Theme

open Text Guard List

variable {bytes : Bytes} {template : Template}

/-- What is to be told of a new output.  A signal is an `i32`. -/
inductive Reload where
  | none
  | signal (process : Bytes) (signal : ℤ)
  | command (argv : List Bytes)
  | realmClients
  deriving DecidableEq

structure Template where
  id : Bytes
  source : Bytes
  target : Bytes
  reload : Reload
  deriving DecidableEq

/-! ## The texts -/

def colon : Byte := 58

def canonicalLengthPrefixed (value : Bytes) : Bytes :=
  decimal value.length ++ [colon] ++ value

def validateCatalogueText (value : Bytes) (description : String) : Except String Unit :=
  check (value ≠ [] && value.all isPathByte) (description ++ " is not manifest-safe")

def validateReloadText (value : Bytes) (description : String) : Except String Unit :=
  check (!value.any fun b => b = 0 || b = cr || b = lf)
    (description ++ " contains a forbidden control byte")

def normalizedGenerationTarget (target : Bytes) : Except String Bytes := do
  check (isUtf8 target) "template target is not UTF-8"
  check (target ≠ [] && target.all isPathByte) "template target is not a manifest-safe path"
  return target

def reloadKind : Reload → Except String Bytes
  | .none => return ascii "none"
  | .realmClients => return ascii "realm-clients"
  | .signal process signal => do
    validateReloadText process "reload process"
    check (0 ≤ signal) "reload signal must be unsigned"
    return ascii "signal:" ++ decimal process.length ++ [colon] ++ process ++ decimal signal.toNat
  | .command argv =>
    argv.foldlM (fun encoded argument => do
      return encoded ++ (← (do
        validateReloadText argument "reload command argument"
        return canonicalLengthPrefixed argument)))
      (ascii "command:" ++ decimal argv.length ++ [colon])

/-- In the order of the identities, those of one identity as they come. -/
def sortById (templates : List Template) : List Template :=
  templates.mergeSort fun left right => left.id ≤ right.id

def catalogueEntry (template : Template) : Except String Bytes := do
  validateCatalogueText template.id "template ID"
  let target ← normalizedGenerationTarget template.target
  let reload ← reloadKind template.reload
  return canonicalLengthPrefixed template.id ++ canonicalLengthPrefixed target ++
    canonicalLengthPrefixed reload ++ [lf]

def cataloguePreimage (templates : List Template) : Except String Bytes := do
  let templates := sortById templates
  check (!(templates.zip templates.tail).any fun pair => pair.1.id = pair.2.id)
    "template IDs must be unique"
  templates.foldlM (fun encoded template => do return encoded ++ (← catalogueEntry template)) []

def templateEntry (template : Template) : Except String Bytes := do
  validateCatalogueText template.id "template ID"
  return canonicalLengthPrefixed template.id ++ canonicalLengthPrefixed template.source ++ [lf]

def templatesPreimage (templates : List Template) : Except String Bytes :=
  (sortById templates).foldlM
    (fun encoded template => do return encoded ++ (← templateEntry template)) []

def rendererEntry (option : Bytes × Bytes) : Except String Bytes := do
  validateCatalogueText option.1 "renderer option name"
  return canonicalLengthPrefixed option.1 ++ canonicalLengthPrefixed option.2 ++ [lf]

def rendererPreimage (options : SortedMap Bytes Bytes) : Except String Bytes :=
  (options.entries.mergeSort fun left right => left.1 ≤ right.1).foldlM
    (fun encoded option => do return encoded ++ (← rendererEntry option))
    (ascii "realm-theme-renderer-v1\n")

/-- The inputs of a publication. -/
structure ThemeSnapshot where
  palette : Bytes
  launchProfile : Bytes
  rendererOptions : SortedMap Bytes Bytes
  templates : List Template

namespace ThemeSnapshot

/-- The texts whose digests a publication of the snapshot records. -/
def preimages (snapshot : ThemeSnapshot) : Except String (List Bytes) := do
  let catalogue ← cataloguePreimage snapshot.templates
  let templates ← templatesPreimage snapshot.templates
  let renderer ← rendererPreimage snapshot.rendererOptions
  return [snapshot.palette, catalogue, templates, renderer, snapshot.launchProfile]

def inputDigests [Sha256] (snapshot : ThemeSnapshot) : Except String (List Bytes) := do
  return (← snapshot.preimages).map digestHex

end ThemeSnapshot

/-! ## Fields behind their lengths -/

theorem delimits_canonicalLengthPrefixed : Delimits canonicalLengthPrefixed := by
  intro value value' rest rest' heq
  have hcolon : ∀ n, colon ∉ decimal n := fun n hmem =>
    absurd (isDigit_of_mem_decimal hmem) (by decide)
  have hsplit : ∀ value rest, splitOnce colon (canonicalLengthPrefixed value ++ rest) =
      some (decimal value.length, value ++ rest) := by
    intro value rest
    rw [canonicalLengthPrefixed, append_assoc, append_assoc]
    exact splitOnce_append _ (hcolon _)
  have hpair := (hsplit value rest).symm.trans (heq ▸ hsplit value' rest')
  simp only [Option.some.injEq, Prod.mk.injEq] at hpair
  exact append_inj hpair.2 (decimal_injective hpair.1)

/-! ## Reloads -/

namespace Reload

variable {reload reload' : Reload}

/-- The text of a reload that passes its checks. -/
def text : Reload → Bytes
  | none => ascii "none"
  | realmClients => ascii "realm-clients"
  | signal process number =>
    ascii "signal:" ++ (canonicalLengthPrefixed process ++ decimal number.toNat)
  | command argv =>
    ascii "command:" ++ (decimal argv.length ++ colon :: argv.flatMap canonicalLengthPrefixed)

/-- Only unsigned signals have a text. -/
def Unsigned : Reload → Prop
  | signal _ number => 0 ≤ number
  | _ => True

theorem text_of_reloadKind (h : reloadKind reload = .ok bytes) :
    bytes = reload.text ∧ reload.Unsigned := by
  cases reload with
  | none | realmClients => exact ⟨(pure_eq_ok.mp h).symm, trivial⟩
  | signal =>
    simp only [reloadKind, bind_eq_ok, check_eq_ok, decide_eq_true_eq, pure_eq_ok] at h
    obtain ⟨_, -, _, hsignal, rfl⟩ := h
    exact ⟨by simp [text, canonicalLengthPrefixed], hsignal⟩
  | command argv =>
    obtain ⟨parts, hparts, rfl⟩ := foldlM_append_eq_ok h
    have hflatten : parts.flatten = argv.flatMap canonicalLengthPrefixed := by
      clear h
      induction hparts with
      | nil => rfl
      | cons hpart _ ih =>
        simp only [bind_eq_ok, pure_eq_ok] at hpart
        obtain ⟨-, -, rfl⟩ := hpart
        rw [flatten_cons, flatMap_cons, ih]
    refine ⟨?_, trivial⟩
    rw [hflatten, text]
    simp

/-- The first byte of the text, which tells the kind. -/
def tag : Reload → Byte
  | none => 110
  | realmClients => 114
  | signal _ _ => 115
  | command _ => 99

theorem head?_text (reload : Reload) : reload.text.head? = some reload.tag := by
  cases reload with
  | none | realmClients => decide +kernel
  | signal =>
    rw [text, head?_append, show (ascii "signal:").head? = some 115 by decide +kernel]
    rfl
  | command =>
    rw [text, head?_append, show (ascii "command:").head? = some 99 by decide +kernel]
    rfl

theorem eq_of_text_eq (h : reload.Unsigned) (h' : reload'.Unsigned)
    (heq : reload.text = reload'.text) : reload = reload' := by
  have hhead := congrArg head? heq
  rw [head?_text, head?_text] at hhead
  have hcolon : ∀ n, colon ∉ decimal n := fun n hmem =>
    absurd (isDigit_of_mem_decimal hmem) (by decide)
  -- two kinds have two tags
  cases reload <;> cases reload' <;> simp [tag] at hhead
  case none.none => rfl
  case realmClients.realmClients => rfl
  case signal.signal process number process' number' =>
    obtain ⟨rfl, hsignal⟩ := delimits_canonicalLengthPrefixed (append_cancel_left heq)
    have hnat : number.toNat = number'.toNat := decimal_injective hsignal
    rw [← Int.toNat_of_nonneg h, hnat, Int.toNat_of_nonneg h']
  case command.command argv argv' =>
    have hsplit := congrArg (splitOnce colon) (append_cancel_left heq)
    rw [splitOnce_append _ (hcolon _), splitOnce_append _ (hcolon _)] at hsplit
    simp only [Option.some.injEq, Prod.mk.injEq] at hsplit
    have hlength : argv.length = argv'.length := decimal_injective hsplit.1
    have happend : argv.flatMap canonicalLengthPrefixed ++ [] =
        argv'.flatMap canonicalLengthPrefixed ++ [] := by rw [hsplit.2]
    rw [(delimits_canonicalLengthPrefixed.flatMap hlength happend).1]

theorem eq_of_reloadKind (h : reloadKind reload = .ok bytes) (h' : reloadKind reload' = .ok bytes) :
    reload = reload' := by
  obtain ⟨htext, hunsigned⟩ := text_of_reloadKind h
  obtain ⟨htext', hunsigned'⟩ := text_of_reloadKind h'
  exact eq_of_text_eq hunsigned hunsigned' (htext.symm.trans htext')

end Reload

/-! ## Rows of entries -/

theorem map_eq_of_preimage_eq {α κ ε : Type} {entry : α → Except String Bytes} {code : ε → Bytes}
    {key : α → κ} (hcode : Delimits code) (hne : ∀ e, code e ≠ [])
    (hentry : ∀ a bytes, entry a = .ok bytes → ∃ e, bytes = code e)
    (hkey : ∀ a b bytes, entry a = .ok bytes → entry b = .ok bytes → key a = key b)
    {l l' : List α} {head text : Bytes}
    (h : l.foldlM (fun encoded a => do return encoded ++ (← entry a)) head = .ok text)
    (h' : l'.foldlM (fun encoded a => do return encoded ++ (← entry a)) head = .ok text) :
    l.map key = l'.map key := by
  have hcodes : ∀ {l : List α} {parts : List Bytes},
      List.Forall₂ (fun a part => entry a = .ok part) l parts →
        ∃ es : List ε, parts = es.map code := by
    intro l parts hparts
    induction hparts with
    | nil => exact ⟨[], rfl⟩
    | cons hpart _ ih =>
      obtain ⟨e, rfl⟩ := hentry _ _ hpart
      obtain ⟨es, rfl⟩ := ih
      exact ⟨e :: es, rfl⟩
  obtain ⟨parts, hparts, htext⟩ := foldlM_append_eq_ok h
  obtain ⟨parts', hparts', htext'⟩ := foldlM_append_eq_ok h'
  obtain ⟨es, rfl⟩ := hcodes hparts
  obtain ⟨es', rfl⟩ := hcodes hparts'
  have hflatten := append_cancel_left (htext.symm.trans htext')
  rw [← flatMap_def, ← flatMap_def] at hflatten
  rw [hcode.flatMap_injective hne hflatten] at hparts
  clear h h' htext htext' hflatten hcodes
  generalize es'.map code = parts at hparts hparts'
  induction hparts generalizing l' with
  | nil =>
    cases hparts'
    rfl
  | cons hpart _ ih =>
    cases hparts' with
    | cons hpart' hrest' =>
      rw [map_cons, map_cons, hkey _ _ _ hpart hpart', ih hrest']

theorem delimits_entry : Delimits fun fields : Bytes × Bytes =>
    canonicalLengthPrefixed fields.1 ++ canonicalLengthPrefixed fields.2 ++ [lf] :=
  (delimits_canonicalLengthPrefixed.pair delimits_canonicalLengthPrefixed).append [lf]

theorem delimits_catalogueEntry : Delimits fun fields : (Bytes × Bytes) × Bytes =>
    canonicalLengthPrefixed fields.1.1 ++ canonicalLengthPrefixed fields.1.2 ++
      canonicalLengthPrefixed fields.2 ++ [lf] :=
  ((delimits_canonicalLengthPrefixed.pair delimits_canonicalLengthPrefixed).pair
    delimits_canonicalLengthPrefixed).append [lf]

theorem catalogueEntry_eq_ok (h : catalogueEntry template = .ok bytes) :
    ∃ reload, reloadKind template.reload = .ok reload ∧
      bytes = canonicalLengthPrefixed template.id ++ canonicalLengthPrefixed template.target ++
        canonicalLengthPrefixed reload ++ [lf] := by
  simp only [catalogueEntry, normalizedGenerationTarget, bind_eq_ok, pure_eq_ok] at h
  obtain ⟨_, -, _, ⟨_, -, _, -, rfl⟩, reload, hreload, rfl⟩ := h
  exact ⟨reload, hreload, rfl⟩

theorem templateEntry_eq_ok (h : templateEntry template = .ok bytes) :
    bytes = canonicalLengthPrefixed template.id ++ canonicalLengthPrefixed template.source ++
      [lf] := by
  simp only [templateEntry, bind_eq_ok, pure_eq_ok] at h
  obtain ⟨_, -, rfl⟩ := h
  rfl

theorem rendererEntry_eq_ok {option : Bytes × Bytes} (h : rendererEntry option = .ok bytes) :
    bytes = canonicalLengthPrefixed option.1 ++ canonicalLengthPrefixed option.2 ++ [lf] := by
  simp only [rendererEntry, bind_eq_ok, pure_eq_ok] at h
  obtain ⟨_, -, rfl⟩ := h
  rfl

section Inputs

variable {templates templates' : List Template} {options options' : SortedMap Bytes Bytes}
  {text : Bytes}

theorem catalogue_of_preimage_eq (h : cataloguePreimage templates = .ok text)
    (h' : cataloguePreimage templates' = .ok text) :
    ((sortById templates).map fun t => (t.id, t.target, t.reload)) =
      (sortById templates').map fun t => (t.id, t.target, t.reload) := by
  obtain ⟨_, -, h⟩ := bind_eq_ok.mp h
  obtain ⟨_, -, h'⟩ := bind_eq_ok.mp h'
  refine map_eq_of_preimage_eq delimits_catalogueEntry (fun e => by simp) ?_ ?_ h h'
  · intro t bytes ht
    obtain ⟨reload, -, rfl⟩ := catalogueEntry_eq_ok ht
    exact ⟨((t.id, t.target), reload), rfl⟩
  · intro t t' bytes ht ht'
    obtain ⟨reload, hreload, rfl⟩ := catalogueEntry_eq_ok ht
    obtain ⟨reload', hreload', heq⟩ := catalogueEntry_eq_ok ht'
    have hfields := (delimits_catalogueEntry (a := ((t.id, t.target), reload))
      (b := ((t'.id, t'.target), reload')) (congrArg (· ++ []) heq)).1
    simp only [Prod.mk.injEq] at hfields
    obtain ⟨⟨hid, htarget⟩, rfl⟩ := hfields
    rw [hid, htarget, Reload.eq_of_reloadKind hreload hreload']

theorem templates_of_preimage_eq (h : templatesPreimage templates = .ok text)
    (h' : templatesPreimage templates' = .ok text) :
    ((sortById templates).map fun t => (t.id, t.source)) =
      (sortById templates').map fun t => (t.id, t.source) := by
  refine map_eq_of_preimage_eq delimits_entry (fun e => by simp) ?_ ?_ h h'
  · intro t bytes ht
    exact ⟨(t.id, t.source), templateEntry_eq_ok ht⟩
  · intro t t' bytes ht ht'
    have heq := (templateEntry_eq_ok ht).symm.trans (templateEntry_eq_ok ht')
    exact (delimits_entry (a := (t.id, t.source)) (b := (t'.id, t'.source))
      (congrArg (· ++ []) heq)).1

theorem mergeSort_entries (options : SortedMap Bytes Bytes) :
    (options.entries.mergeSort fun left right => left.1 ≤ right.1) = options.entries :=
  mergeSort_of_pairwise (options.sorted.imp fun hlt => decide_eq_true hlt.le)

theorem options_of_preimage_eq (h : rendererPreimage options = .ok text)
    (h' : rendererPreimage options' = .ok text) : options = options' := by
  rw [rendererPreimage, mergeSort_entries] at h h'
  refine SortedMap.ext_entries ?_
  rw [← map_id options.entries, ← map_id options'.entries]
  refine map_eq_of_preimage_eq delimits_entry (fun e => by simp) ?_ ?_ h h'
  · intro option bytes hoption
    exact ⟨option, rendererEntry_eq_ok hoption⟩
  · intro option option' bytes hoption hoption'
    have heq := (rendererEntry_eq_ok hoption).symm.trans (rendererEntry_eq_ok hoption')
    exact (delimits_entry (congrArg (· ++ []) heq)).1

/-- The templates name the same identities, targets and reloads. -/
def SameCatalogue (templates templates' : List Template) : Prop :=
  ∀ id target reload,
    (∃ t ∈ templates, t.id = id ∧ t.target = target ∧ t.reload = reload) ↔
      ∃ t ∈ templates', t.id = id ∧ t.target = target ∧ t.reload = reload

/-- The templates have the same identities and sources, in the order of the identities. -/
def SameSources (templates templates' : List Template) : Prop :=
  ((sortById templates).map fun t => (t.id, t.source)) =
    (sortById templates').map fun t => (t.id, t.source)

theorem sameCatalogue_of_map_eq
    (h : ((sortById templates).map fun t => (t.id, t.target, t.reload)) =
      (sortById templates').map fun t => (t.id, t.target, t.reload)) :
    SameCatalogue templates templates' := by
  have hmem : ∀ {templates : List Template} {id target reload},
      (∃ t ∈ templates, t.id = id ∧ t.target = target ∧ t.reload = reload) ↔
        (id, target, reload) ∈ (sortById templates).map fun t => (t.id, t.target, t.reload) := by
    intro templates id target reload
    simp [sortById]
  intro id target reload
  rw [hmem, hmem, h]

/-- Snapshots that no input tells apart. -/
structure ThemeSnapshot.SameInputs (snapshot snapshot' : ThemeSnapshot) : Prop where
  palette : snapshot.palette = snapshot'.palette
  launchProfile : snapshot.launchProfile = snapshot'.launchProfile
  rendererOptions : snapshot.rendererOptions = snapshot'.rendererOptions
  catalogue : SameCatalogue snapshot.templates snapshot'.templates
  sources : SameSources snapshot.templates snapshot'.templates

/-- The digested texts tell the inputs.  If no two of the texts of two snapshots collide, snapshots
with the same digests have the same inputs. -/
theorem preimages_tell_inputs :
    (∀ templates templates' text, cataloguePreimage templates = .ok text →
      cataloguePreimage templates' = .ok text → SameCatalogue templates templates') ∧
    (∀ templates templates' text, templatesPreimage templates = .ok text →
      templatesPreimage templates' = .ok text → SameSources templates templates') ∧
    (∀ options options' text, rendererPreimage options = .ok text →
      rendererPreimage options' = .ok text → options = options') ∧
    ∀ [Sha256] (snapshot snapshot' : ThemeSnapshot) texts texts' digests,
      snapshot.preimages = .ok texts → snapshot'.preimages = .ok texts' →
      (∀ text ∈ texts, ∀ text' ∈ texts', digestHex text = digestHex text' → text = text') →
      snapshot.inputDigests = .ok digests → snapshot'.inputDigests = .ok digests →
      snapshot.SameInputs snapshot' := by
  refine ⟨fun templates templates' text h h' =>
      sameCatalogue_of_map_eq (catalogue_of_preimage_eq h h'),
    fun templates templates' text => templates_of_preimage_eq,
    fun options options' text => options_of_preimage_eq, ?_⟩
  intro _ snapshot snapshot' texts texts' digests htexts htexts' hfree hdigests hdigests'
  rw [ThemeSnapshot.inputDigests, htexts, ok_bind, pure_eq_ok] at hdigests
  rw [ThemeSnapshot.inputDigests, htexts', ok_bind, pure_eq_ok] at hdigests'
  simp only [ThemeSnapshot.preimages, bind_eq_ok, pure_eq_ok] at htexts htexts'
  obtain ⟨catalogue, hcatalogue, sources, hsources, renderer, hrenderer, rfl⟩ := htexts
  obtain ⟨catalogue', hcatalogue', sources', hsources', renderer', hrenderer', rfl⟩ := htexts'
  have heq := hdigests.trans hdigests'.symm
  simp only [map_cons, map_nil, cons.injEq, and_true] at heq
  obtain ⟨hpalette, hc, hs, hr, hprofile⟩ := heq
  obtain rfl : catalogue = catalogue' := hfree _ (by simp) _ (by simp) hc
  obtain rfl : sources = sources' := hfree _ (by simp) _ (by simp) hs
  obtain rfl : renderer = renderer' := hfree _ (by simp) _ (by simp) hr
  exact ⟨hfree _ (by simp) _ (by simp) hpalette, hfree _ (by simp) _ (by simp) hprofile,
    options_of_preimage_eq hrenderer hrenderer',
    sameCatalogue_of_map_eq (catalogue_of_preimage_eq hcatalogue hcatalogue'),
    templates_of_preimage_eq hsources hsources'⟩

end Inputs

/-- A digest that tells the lengths of short texts. -/
@[reducible] def lengthSha256 : Sha256 where
  digestHex bytes := List.replicate 64 (Fin.ofNat 256 (48 + bytes.length % 10))
  digestHex_valid bytes := by
    have h := Nat.mod_lt bytes.length (show 0 < 10 by decide)
    interval_cases bytes.length % 10 <;> decide +kernel

def twoTemplates : List Template :=
  [⟨ascii "bar", ascii "a", ascii "bar.css", .none⟩,
    ⟨ascii "gtk", ascii "b", ascii "gtk.css", .realmClients⟩]

/-- The order of the templates is no input. -/
theorem preimages_tell_inputs_reversed :
    letI := lengthSha256
    ∃ (snapshot snapshot' : ThemeSnapshot) (digests : List Bytes),
      snapshot.templates ≠ snapshot'.templates ∧ snapshot.inputDigests = .ok digests ∧
      snapshot'.inputDigests = .ok digests ∧ snapshot.SameInputs snapshot' := by
  let _ := lengthSha256
  have hle : ascii "bar" ≤ ascii "gtk" ∧ ¬ ascii "gtk" ≤ ascii "bar" := by decide +kernel
  have hsort : sortById twoTemplates = twoTemplates := by
    simp [sortById, twoTemplates, mergeSort, MergeSort.Internal.splitInTwo, hle]
  have hsort' : sortById twoTemplates.reverse = twoTemplates := by
    simp [sortById, twoTemplates, mergeSort, MergeSort.Internal.splitInTwo, hle]
  let snapshot : ThemeSnapshot := ⟨ascii "palette", ascii "realm", .empty, twoTemplates⟩
  let snapshot' : ThemeSnapshot := { snapshot with templates := twoTemplates.reverse }
  obtain ⟨texts, htexts, htexts', hfree⟩ : ∃ texts, snapshot.preimages = .ok texts ∧
      snapshot'.preimages = .ok texts ∧ ∀ text ∈ texts, ∀ text' ∈ texts,
        digestHex text = digestHex text' → text = text' := by
    simp only [ThemeSnapshot.preimages, cataloguePreimage, templatesPreimage, rendererPreimage,
      mergeSort_entries, snapshot, snapshot', hsort, hsort']
    exact ⟨_, rfl, rfl, by decide +kernel⟩
  have hdigests : snapshot.inputDigests = .ok (texts.map digestHex) := by
    rw [ThemeSnapshot.inputDigests, htexts]
    rfl
  have hdigests' : snapshot'.inputDigests = .ok (texts.map digestHex) := by
    rw [ThemeSnapshot.inputDigests, htexts']
    rfl
  exact ⟨snapshot, snapshot', _, by decide +kernel, hdigests, hdigests',
    preimages_tell_inputs.2.2.2 snapshot snapshot' texts texts _ htexts htexts' hfree hdigests
      hdigests'⟩

end Realm.Theme

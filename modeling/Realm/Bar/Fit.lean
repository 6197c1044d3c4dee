import Realm.Core.State
import Realm.Core.Glyphs
import Mathlib.Data.Rat.Defs

/-!
# Fitting the bar into the output width

The bar is a left part (logo, orbits, layout, mode), a centre part (title and
chord echo) and a right part (modules).  When they are wider than the output
the renderer degrades the row step by step: it elides the title in the middle,
removes the title next to a chord echo, drops modules in a fixed order and then
drops the layout label and the logo text.  The text-measuring functions of the
renderer are parameters; widths are the sums of the source, taken without
overflow.
-/

namespace Realm.Bar

/-- The typography of a palette, as far as the row is measured with it. -/
structure Typography where
  weightRegular : ℕ
  weightMedium : ℕ
  sizeBody : ℚ
  sizeMeta : ℚ

/-- The measuring functions of the text system: a text, a size and a weight
give a width in pixels. -/
structure TextSystem where
  measure : String → ℚ → ℕ → ℕ
  measureChrome : String → ℚ → ℕ → ℕ

def horizontalModuleGap : ℕ := 16

/-- The arguments of one bar frame. -/
structure FitInput where
  text : TextSystem
  state : RealmState
  typography : Typography
  probe : Probe
  width : ℕ
  covers : Char → Bool

/-- The character belongs to the Unicode category of control characters. -/
def isControl (ch : Char) : Bool :=
  ch.val ≤ 0x1f || (0x7f ≤ ch.val && ch.val ≤ 0x9f)

/-- Replace every character the fonts do not cover. -/
def sanitizeWith (text : String) (covers : Char → Bool) : String :=
  String.ofList (text.toList.map fun ch => if isControl ch || covers ch then ch else '?')

/-- Keep `floor` characters of a text, half on each side of an elision mark. -/
@[irreducible] def middleElide (text : String) (floor : ℕ) (probe : Probe) : String :=
  let chars := text.toList
  if chars.length ≤ floor then text
  else
    let left := (floor + 1) / 2
    let right := floor / 2
    String.ofList (chars.take left ++ glyph "elision" probe :: chars.drop (chars.length - right))

def saturatingAdd (a b : ℕ) : ℕ := min (a + b) (2 ^ 32 - 1)

/-- The modules the row may drop, in the order it drops them. -/
def droppable : List String := ["gpu", "net", "mem", "vol", "cpu"]

/-- The variables of the fit loop. -/
structure FitState where
  title : String
  titleKeep : ℕ
  visibleModules : List Module
  droppedModules : List String
  showLayoutLabel : Bool
  showLogoText : Bool

namespace FitState

def shows (s : FitState) (id : String) : Bool :=
  s.visibleModules.any fun m => m.id = id

end FitState

namespace FitInput

variable (i : FitInput)

def leftWidth (logo layout : Bool) : ℕ :=
  let body := i.typography.sizeBody
  let metaSize := i.typography.sizeMeta
  let logoText :=
    if logo then (glyph "logo" i.probe).toString ++ " realm"
    else (glyph "logo" i.probe).toString
  let layoutText :=
    if layout then (glyph "layout indicator" i.probe).toString ++ " " ++ i.state.layout.label
    else (glyph "layout indicator" i.probe).toString
  let mode := (glyph "mode badge" i.probe).toString ++ " " ++ i.state.mode.badge
  i.text.measureChrome logoText body i.typography.weightMedium + 28 + 6 +
    28 * i.state.orbits.length + 6 + 12 +
    i.text.measureChrome layoutText body i.typography.weightRegular + 12 + 10 +
    i.text.measureChrome mode metaSize i.typography.weightMedium + 16 + 14

def modulesWidth (modules : List Module) : ℕ :=
  if modules.isEmpty then 16
  else
    (modules.map fun m =>
      i.text.measure m.text i.typography.sizeMeta i.typography.weightRegular + 8).sum +
      horizontalModuleGap * (modules.length - 1) + 16

def centreWidth (title chord : String) : ℕ :=
  let titleWidth := i.text.measure title i.typography.sizeBody i.typography.weightRegular
  let chordWidth := i.text.measure chord i.typography.sizeMeta i.typography.weightRegular
  titleWidth + chordWidth + if 0 < titleWidth ∧ 0 < chordWidth then 14 else 0

def fullTitle : String := sanitizeWith i.state.focusedTitle i.covers

def chord : String := sanitizeWith i.state.chordEcho i.covers

def minimumTitle : String := middleElide i.fullTitle 8 i.probe

def start : FitState where
  title := i.fullTitle
  titleKeep := i.fullTitle.toList.length
  visibleModules := i.state.modules
  droppedModules := []
  showLayoutLabel := true
  showLogoText := true

@[irreducible] def rowWidth (s : FitState) : ℕ :=
  saturatingAdd (saturatingAdd (i.leftWidth s.showLogoText s.showLayoutLabel)
    (i.modulesWidth s.visibleModules)) (i.centreWidth s.title i.chord)

def fits (s : FitState) : Bool := i.rowWidth s ≤ i.width

/-- One pass of the fit loop; `none` leaves the loop. -/
def next (s : FitState) : Option FitState :=
  if i.fits s then none
  else if s.title ≠ i.minimumTitle then
    let titleKeep := max (s.titleKeep - 1) 8
    some { s with titleKeep := titleKeep, title := middleElide i.fullTitle titleKeep i.probe }
  else if i.chord ≠ "" ∧ s.title ≠ "" then
    some { s with title := "" }
  else
    match droppable.find? s.shows with
    | some id =>
      some { s with
        visibleModules := s.visibleModules.filter fun m => m.id ≠ id
        droppedModules := s.droppedModules ++ [id] }
    | none =>
      if s.showLayoutLabel then some { s with showLayoutLabel := false }
      else if s.showLogoText then some { s with showLogoText := false }
      else none

end FitInput

end Realm.Bar

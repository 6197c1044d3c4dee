import Mathlib.Data.List.Sort
import Mathlib.Data.Rat.Floor
import Realm.Core.Ledger

/-!
# Layouts as projections of an orbit

A layout places the visible windows of an orbit on a tile rectangle.  All sizes
come from `partition`, which splits an integer length by floating-point weights
with the largest-remainder method.  Single-precision arithmetic is arithmetic of
rationals followed by a rounding function `fl`, which is a parameter here;
integer arithmetic is that of `i32`, wrapping where the source adds.
-/

namespace Realm

open List

/-- The value of a wrapping `i32` operation with this exact result. -/
def wrap32 (z : ℤ) : ℤ := Int.bmod z (2 ^ 32)

/-- The saturating conversion of a float with this integral value to `i32`. -/
def saturate32 (z : ℤ) : ℤ := max (-2 ^ 31) (min z (2 ^ 31 - 1))

/-- A rectangle in output-local coordinates. -/
structure Rect where
  x : ℤ
  y : ℤ
  w : ℤ
  h : ℤ
deriving DecidableEq

/-- The region a layout may use, and the whole output it sits on. -/
structure Workarea where
  output : Rect
  tiles : Rect
deriving DecidableEq

namespace Workarea

/-- The workarea of an output with strips reserved at the top and bottom. -/
def new (width height topReserved bottomReserved : ℤ) : Workarea :=
  let top := max topReserved 0
  let bottom := max bottomReserved 0
  let h := max (wrap32 (wrap32 (height - top) - bottom)) 0
  { output := ⟨0, 0, width, height⟩, tiles := ⟨0, top, width, h⟩ }

end Workarea

/-- The tunables of the triptych layout. -/
structure TriptychParams where
  masterRatio : ℚ
  stackColumns : ℕ
  stackPrimaryRatio : ℚ
  primaryRowRatio : ℚ

/-- The projected position of one window. -/
structure Placement where
  win : WinId
  rect : Rect
  focused : Bool
  occluded : Bool
deriving DecidableEq

section Arithmetic

variable (fl : ℚ → ℚ)

namespace TriptychParams

def default : TriptychParams where
  masterRatio := fl (640 / 1920)
  stackColumns := 2
  stackPrimaryRatio := fl (700 / 1280)
  primaryRowRatio := fl (580 / 1022)

/-- Clamp every ratio into a sane range and guarantee at least one column. -/
def sanitised (p : TriptychParams) : TriptychParams :=
  let clamp (r : ℚ) : ℚ := max (fl (15 / 100)) (min r (fl (85 / 100)))
  { masterRatio := clamp p.masterRatio
    stackColumns := max 1 (min p.stackColumns 4)
    stackPrimaryRatio := clamp p.stackPrimaryRatio
    primaryRowRatio := clamp p.primaryRowRatio }

end TriptychParams

/-- The floating-point sum of the nonnegative parts of the weights. -/
def weightSum (weights : List ℚ) : ℚ :=
  weights.foldl (fun acc w => fl (acc + max w 0)) 0

def exactShare (total : ℤ) (sum w : ℚ) : ℚ :=
  fl (fl (fl total * max w 0) / sum)

def floorShare (total : ℤ) (sum w : ℚ) : ℤ :=
  saturate32 (max ⌊exactShare fl total sum w⌋ 0)

/-- The order in which leftover pixels are handed out: by falling fractional
loss, then by position. -/
def remainderOrder (remainders : List (ℚ × ℕ)) : List ℕ :=
  (remainders.insertionSort fun a b => b.1 < a.1 ∨ (a.1 = b.1 ∧ a.2 ≤ b.2)).map Prod.snd

/-- Hand out `leftover` pixels one by one, going around the order. -/
def handOut (order : List ℕ) (leftover : ℕ) (parts : List ℤ) : List ℤ :=
  (List.range leftover).foldl
    (fun parts i => parts.modify (order.getD (i % order.length) 0) (wrap32 <| · + 1)) parts

/-- Split a positive length by weights with a positive sum. -/
def shares (total : ℤ) (weights : List ℚ) : List ℤ :=
  let sum := weightSum fl weights
  let parts := weights.map (floorShare fl total sum)
  let remainders := (weights.zipIdx).map fun (w, i) =>
    (fl (exactShare fl total sum w - fl (floorShare fl total sum w)), i)
  let assigned := parts.foldl (fun acc p => wrap32 (acc + p)) 0
  handOut (remainderOrder remainders) (wrap32 (total - assigned)).toNat parts

/-- Split a length into integer parts proportional to the weights. -/
def partition (total : ℤ) (weights : List ℚ) : List ℤ :=
  if weights.isEmpty then []
  else if total ≤ 0 then List.replicate weights.length 0
  else if weightSum fl weights ≤ 0 then shares fl total (List.replicate weights.length 1)
  else shares fl total weights

def offsets (start : ℤ) : List ℤ → List ℤ
  | [] => []
  | w :: ws => start :: offsets (wrap32 (start + w)) ws

/-- The weights of the columns or rows of a grid: the given split for exactly
two of them, else equal weights. -/
def gridWeights (n : ℕ) (ratio : Option ℚ) : List ℚ :=
  match n, ratio with
  | 2, some r => [r, fl (1 - r)]
  | _, _ => List.replicate n (fl (1 / fl n))

/-- Deal `n` rectangles row by row into columns that fill the area. -/
def grid (n : ℕ) (area : Rect) (cols : ℕ) (p : Option TriptychParams) : List Rect :=
  if n = 0 ∨ area.w ≤ 0 ∨ area.h ≤ 0 then []
  else
    let cols := max 1 (min cols n)
    let rows := (n + cols - 1) / cols
    let heights := partition fl area.h (gridWeights fl rows (p.map (·.primaryRowRatio)))
    ((offsets area.y heights).zip heights).zipIdx.flatMap fun ((y, h), row) =>
      let first := row * cols
      if n ≤ first then []
      else
        let inRow := min cols (n - first)
        let widths := partition fl area.w (gridWeights fl inRow (p.map (·.stackPrimaryRatio)))
        ((offsets area.x widths).zip widths).map fun (x, w) => ⟨x, y, w, h⟩

/-- A master column and a grid of the remaining windows. -/
def triptych (n : ℕ) (area : Rect) (p : TriptychParams) : List Rect :=
  if n = 1 then [area]
  else
    let cols := partition fl area.w [p.masterRatio, fl (1 - p.masterRatio)]
    let master := cols.getD 0 0
    let stack := cols.getD 1 0
    ⟨area.x, area.y, master, area.h⟩ ::
      grid fl (n - 1) ⟨wrap32 (area.x + master), area.y, stack, area.h⟩ p.stackColumns (some p)

/-- The least number whose square is at least `n`: the rounded-up square root. -/
def ceilSqrt (n : ℕ) : ℕ :=
  ((List.range (n + 1)).find? fun c => n ≤ c * c).getD 0

/-- A grid of equal cells, as square as practical. -/
def even (n : ℕ) (area : Rect) : List Rect :=
  grid fl n area (max (ceilSqrt n) 1) none

/-- Project an orbit onto a workarea, in ledger order.  A visible fullscreen
window replaces the whole projection. -/
def project (orbit : Orbit) (area : Workarea) (params : TriptychParams) : List Placement :=
  let visible := orbit.visible
  let focused := orbit.focused
  match orbit.fullscreen.filter (· ∈ visible) with
  | some full => [⟨full, area.output, focused = some full, false⟩]
  | none =>
    if visible.isEmpty ∨ area.tiles.w ≤ 0 ∨ area.tiles.h ≤ 0 then []
    else
      let rects := match orbit.layout with
        | .triptych => triptych fl visible.length area.tiles (params.sanitised fl)
        | .mono => List.replicate visible.length area.tiles
        | .even => even fl visible.length area.tiles
      -- In a mono stack only the focused window is on top of the others.
      let top := match orbit.layout with
        | .mono => focused.or visible.head?
        | _ => none
      (visible.zip rects).map fun (win, rect) =>
        ⟨win, rect, focused = some win, orbit.layout = .mono && top ≠ some win⟩

end Arithmetic

end Realm

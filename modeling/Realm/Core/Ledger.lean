import Mathlib.Algebra.GroupWithZero.Nat
import Mathlib.Data.List.Basic
import Mathlib.Data.Fin.Basic

/-!
# The ledger

The ledger is the ordered record of every managed window.  It has six orbits
(workspaces), each an ordered list of windows with a focus index, the windows
stowed out of the layout, a layout and at most one fullscreen window.  Every
desired change pushes a snapshot of the orbits first, so that undo restores the
orbits as they were; an observed change of the window set clears the snapshots
instead.  Positions are never stored: they are projected from an orbit on
demand.

Operations that mutate the ledger and report whether they did anything return
the report next to the new ledger.
-/

namespace Realm

def orbitCount : ℕ := 6

def historyDepth : ℕ := 64

/-- A window handle, a `u64` allocated by the session. -/
abbrev WinId := ℕ

/-- An orbit index in `0..orbitCount`. -/
abbrev OrbitId := Fin 6

instance orbitNeZero : NeZero 6 := ⟨by decide⟩

namespace OrbitId

def new (i : ℕ) : Option OrbitId :=
  if h : i < 6 then some ⟨i, h⟩ else none

def fromHuman (n : ℕ) : Option OrbitId :=
  match n with
  | 0 => none
  | n + 1 => new n

def human (o : OrbitId) : ℕ := o.val + 1

def rune (o : OrbitId) : Char :=
  ['ᚠ', 'ᚢ', 'ᚦ', 'ᚨ', 'ᚱ', 'ᚲ'].get o

def all : List OrbitId := List.finRange 6

end OrbitId

/-- The layout algorithms an orbit can use. -/
inductive Layout where
  | triptych
  | mono
  | even
deriving DecidableEq

namespace Layout

instance : Inhabited Layout := ⟨triptych⟩

def label : Layout → String
  | triptych => "triptych"
  | mono => "mono"
  | even => "even"

end Layout

/-- The direction of a relative focus or swap operation. -/
inductive Dir where
  | next
  | prev
deriving DecidableEq

/-- One workspace: an ordered window list with its own layout. -/
structure Orbit where
  id : OrbitId
  windows : List WinId
  focus : Option ℕ
  stowed : List WinId
  layout : Layout
  fullscreen : Option WinId
  name : String
deriving DecidableEq

namespace Orbit

def names : List String :=
  ["triptych", "scriptorium", "observatory", "forge", "athenaeum", "crypt"]

def new (id : OrbitId) : Orbit where
  id := id
  windows := []
  focus := none
  stowed := []
  layout := default
  fullscreen := none
  name := names.get id

/-- The windows a layout places: ledger order without the stowed ones. -/
def visible (o : Orbit) : List WinId :=
  o.windows.filter fun w => w ∉ o.stowed

def focused (o : Orbit) : Option WinId :=
  o.focus.bind fun i => o.windows[i]?

def occupied (o : Orbit) : Bool := !o.windows.isEmpty

/-- Clamp the focus back into range after a mutation. -/
def reseatFocus (o : Orbit) (hint : ℕ) : Orbit :=
  { o with focus := if o.windows.isEmpty then none else some (min hint (o.windows.length - 1)) }

def slotAfterFocus (o : Orbit) : ℕ :=
  min ((o.focus.map (· + 1)).getD 0) o.windows.length

def insertWindow (o : Orbit) (win : WinId) : Orbit :=
  let at_ := o.slotAfterFocus
  { o with windows := o.windows.insertIdx at_ win, focus := some at_ }

/-- Take the window at an index out of the orbit, with its stow and fullscreen
marks; the focus still has to be reseated. -/
def removeWindow (o : Orbit) (at_ : ℕ) (win : WinId) : Orbit :=
  { o with
    windows := o.windows.eraseIdx at_
    stowed := o.stowed.filter (· ≠ win)
    fullscreen := if o.fullscreen = some win then none else o.fullscreen }

end Orbit

/-- The part of a ledger that undo restores. -/
structure Snapshot where
  orbits : List Orbit
  active : OrbitId
deriving DecidableEq

/-- The complete window-management state. -/
structure Ledger where
  orbits : List Orbit
  active : OrbitId
  history : List Snapshot
  redoStack : List Snapshot
deriving DecidableEq

namespace Ledger

def new : Ledger where
  orbits := OrbitId.all.map Orbit.new
  active := 0
  history := []
  redoStack := []

/-- The orbit at an index.  The source indexes the vector; the default is never
reached, since every ledger has six orbits. -/
def orbit (l : Ledger) (id : OrbitId) : Orbit :=
  l.orbits.getD id (Orbit.new id)

def activeOrbit (l : Ledger) : Orbit := l.orbit l.active

def focused (l : Ledger) : Option WinId := l.activeOrbit.focused

def orbitOf (l : Ledger) (win : WinId) : Option OrbitId :=
  (l.orbits.find? fun o => win ∈ o.windows).map (·.id)

def len (l : Ledger) : ℕ := (l.orbits.map (·.windows.length)).sum

def modifyOrbit (l : Ledger) (id : OrbitId) (f : Orbit → Orbit) : Ledger :=
  { l with orbits := l.orbits.modify id f }

def snapshot (l : Ledger) : Snapshot := ⟨l.orbits, l.active⟩

def checkpoint (l : Ledger) : Ledger :=
  let history := l.history ++ [l.snapshot]
  { l with
    history := if history.length > historyDepth then history.drop 1 else history
    redoStack := [] }

def discardUndoHistory (l : Ledger) : Ledger :=
  { l with history := [], redoStack := [] }

/-- Enter a new window into an orbit, directly after the focused window. -/
def summon (l : Ledger) (win : WinId) (orbit : OrbitId) : Ledger :=
  if (l.orbitOf win).isSome then l
  else l.discardUndoHistory.modifyOrbit orbit fun o => o.insertWindow win

def banish (l : Ledger) (win : WinId) : Ledger × Bool :=
  match l.orbitOf win with
  | none => (l, false)
  | some orbit =>
    let l := l.discardUndoHistory
    match (l.orbit orbit).windows.idxOf? win with
    | none => (l, false)
    | some at_ =>
      (l.modifyOrbit orbit fun o =>
        let o := o.removeWindow at_ win
        -- The focus goes to the window that slid into the slot, else the last one.
        o.reseatFocus (at_ - if at_ ≥ max o.windows.length 1 then 1 else 0), true)

def focusWindow (l : Ledger) (win : WinId) : Ledger × Bool :=
  match l.orbitOf win with
  | none => (l, false)
  | some orbit =>
    let l := { l.checkpoint with active := orbit }
    (l.modifyOrbit orbit fun o => { o with focus := o.windows.idxOf? win }, true)

/-- The index one step away from `cur` among `n` windows, wrapping around. -/
def neighbour (dir : Dir) (cur n : ℕ) : ℕ :=
  match dir with
  | .next => (cur + 1) % n
  | .prev => (cur + n - 1) % n

def focusStep (l : Ledger) (dir : Dir) : Ledger :=
  let n := l.activeOrbit.windows.length
  if n < 2 then l
  else l.checkpoint.modifyOrbit l.active fun o =>
    { o with focus := some (neighbour dir (o.focus.getD 0) n) }

def swapAt (ws : List WinId) (i j : ℕ) : List WinId :=
  match ws[i]?, ws[j]? with
  | some a, some b => (ws.set i b).set j a
  | _, _ => ws

def swap (l : Ledger) (dir : Dir) : Ledger × Bool :=
  let n := l.activeOrbit.windows.length
  match l.activeOrbit.focus with
  | none => (l, false)
  | some cur =>
    if n < 2 then (l, false)
    else
      let target := neighbour dir cur n
      (l.checkpoint.modifyOrbit l.active fun o =>
        { o with windows := swapAt o.windows cur target, focus := some target }, true)

/-- Send the focused window to another orbit, keeping it focused there. -/
def moveToOrbit (l : Ledger) (target : OrbitId) : Ledger × Bool :=
  match l.focused with
  | none => (l, false)
  | some win =>
    if target = l.active then (l, false)
    else
      let at_ := l.activeOrbit.windows.idxOf win
      let l := l.checkpoint.modifyOrbit l.active fun o =>
        (o.removeWindow at_ win).reseatFocus (at_ - 1)
      (l.modifyOrbit target fun o => o.insertWindow win, true)

def switchOrbit (l : Ledger) (target : OrbitId) : Ledger :=
  if target = l.active then l else { l.checkpoint with active := target }

def toggleStow (l : Ledger) : Ledger × Bool :=
  match l.focused with
  | none => (l, false)
  | some win =>
    (l.checkpoint.modifyOrbit l.active fun o =>
      match o.stowed.idxOf? win with
      | some at_ => { o with stowed := o.stowed.eraseIdx at_ }
      | none => { o with stowed := o.stowed ++ [win] }, true)

def toggleFullscreen (l : Ledger) : Ledger × Bool :=
  match l.focused with
  | none => (l, false)
  | some win =>
    (l.checkpoint.modifyOrbit l.active fun o =>
      { o with fullscreen := if o.fullscreen = some win then none else some win }, true)

def setLayout (l : Ledger) (layout : Layout) : Ledger :=
  if l.activeOrbit.layout = layout then l
  else l.checkpoint.modifyOrbit l.active fun o => { o with layout := layout }

def undo (l : Ledger) : Ledger × Bool :=
  match l.history.getLast? with
  | none => (l, false)
  | some prev =>
    ({ orbits := prev.orbits, active := prev.active, history := l.history.dropLast,
       redoStack := l.redoStack ++ [l.snapshot] }, true)

def redo (l : Ledger) : Ledger × Bool :=
  match l.redoStack.getLast? with
  | none => (l, false)
  | some next =>
    ({ orbits := next.orbits, active := next.active, history := l.history ++ [l.snapshot],
       redoStack := l.redoStack.dropLast }, true)

end Ledger

end Realm

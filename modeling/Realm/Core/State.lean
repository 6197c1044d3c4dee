import Realm.Core.Ledger

/-!
# Keys and the visible state

The keymap binds keys to actions in an input mode.  The visible state is the
plain record the session broadcasts and the bar draws: the bar redraws exactly
when `rendersSameAs` fails.
-/

namespace Realm

/-- The input mode, drawn as a badge. -/
inductive Mode where
  | nav
  | resize
  | move
deriving DecidableEq

namespace Mode

instance : Inhabited Mode := ⟨nav⟩

def badge : Mode → String
  | nav => "NAV"
  | resize => "RESIZE"
  | move => "MOVE"

end Mode

/-- Everything a keybinding can ask for. -/
inductive Action where
  | spawn (argv : List String)
  | terminal
  | launcher
  | focus (dir : Dir)
  | swap (dir : Dir)
  | orbit (number : ℕ)
  | moveToOrbit (number : ℕ)
  | stow
  | setLayout (layout : Layout)
  | fullscreen
  | enterMode (mode : Mode)
  | banish
  | undo
  | toggleWhichKey
  | grimoire
  | reloadTheme
  | quit
deriving DecidableEq

/-- A key in a mode with the action it asks for; the texts it is advertised
with are left out. -/
structure Binding where
  key : String
  action : Action
  mode : Mode
  repeatable : Bool
deriving DecidableEq

/-- The full keymap. -/
structure Keymap where
  modifier : String
  bindings : List Binding
deriving DecidableEq

namespace Keymap

/-- A navigation binding; only directional focus and swap actions repeat. -/
def navBinding (key : String) (action : Action) : Binding where
  key := key
  action := action
  mode := .nav
  repeatable := match action with
    | .focus _ | .swap _ => true
    | _ => false

/-- The keymap of the reference which-key strip. -/
def default : Keymap where
  modifier := "mod"
  bindings :=
    [navBinding "Return" .terminal,
     navBinding "d" .launcher,
     navBinding "b" (.spawn ["realm-browser"]),
     navBinding "j" (.focus .next),
     navBinding "k" (.focus .prev),
     navBinding "h" (.swap .prev),
     navBinding "l" (.swap .next)] ++
    (["1", "2", "3", "4", "5", "6"].zipIdx 1).map
      (fun (key, n) => navBinding key (.orbit n)) ++
    [navBinding "s" .stow,
     navBinding "m" (.setLayout .mono),
     navBinding "f" .fullscreen,
     navBinding "r" (.enterMode .resize),
     navBinding "q" .banish,
     navBinding "t" (.setLayout .triptych),
     navBinding "u" .undo,
     navBinding "w" .toggleWhichKey,
     navBinding "question" .grimoire,
     navBinding "p" .reloadTheme,
     navBinding "Escape" (.enterMode .nav)]

end Keymap

/-- How an orbit is drawn in the bar. -/
inductive OrbitDisplay where
  | active
  | occupied
  | empty
deriving DecidableEq

/-- The bar cell of one orbit. -/
structure OrbitCell where
  number : ℕ
  rune : String
  display : OrbitDisplay
  windows : ℕ
deriving DecidableEq

/-- A right-hand module of the bar. -/
structure Module where
  id : String
  text : String
  accent : Option String
  urgent : Bool
deriving DecidableEq

/-- Everything the bar needs to draw one frame. -/
structure RealmState where
  revision : ℕ
  orbits : List OrbitCell
  layout : Layout
  mode : Mode
  focusedTitle : String
  chordEcho : String
  whichkey : Bool
  grimoire : Bool
  modules : List Module
deriving DecidableEq

namespace RealmState

def default : RealmState where
  revision := 0
  orbits := OrbitId.all.map fun o =>
    { number := o.human
      rune := o.rune.toString
      display := if o.val = 0 then .active else .empty
      windows := 0 }
  layout := Layout.triptych
  mode := Mode.nav
  focusedTitle := ""
  chordEcho := ""
  whichkey := true
  grimoire := false
  modules := []

/-- Two states draw the same frame: they agree up to the revision counter. -/
def rendersSameAs (s t : RealmState) : Bool :=
  s.orbits = t.orbits && s.layout = t.layout && s.mode = t.mode &&
    s.focusedTitle = t.focusedTitle && s.chordEcho = t.chordEcho &&
    s.whichkey = t.whichkey && s.grimoire = t.grimoire && s.modules = t.modules

end RealmState

end Realm

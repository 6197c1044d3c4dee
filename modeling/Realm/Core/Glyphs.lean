import Mathlib.Data.List.Basic

/-!
# The glyph inventory

Every glyph the desktop draws is listed with the character to substitute when
the font stack does not cover it.  A probe holds the glyphs a renderer reported
as missing, and resolves a character to what is actually drawn.
-/

namespace Realm

/-- One glyph with its documented fallback; the surface it is reported for is
left out. -/
structure Glyph where
  ch : Char
  name : String
  fallback : Option Char

/-- Every glyph drawn, in inventory order. -/
def inventory : List Glyph :=
  [⟨'✦', "logo", some '*'⟩,
   ⟨'⌗', "layout indicator", some '#'⟩,
   ⟨'⌨', "mode badge", some ':'⟩,
   ⟨'…', "elision", some '.'⟩,
   ⟨'▸', "chord echo", some '>'⟩,
   ⟨'☾', "moon, clock", some ')'⟩,
   ⟨'⚡', "battery", some '^'⟩,
   ⟨'♪', "volume", some '~'⟩,
   ⟨'⊞', "modifier", some '+'⟩,
   ⟨'↵', "return", some '<'⟩,
   ⟨'⇥', "tab", some '>'⟩,
   ⟨'◈', "stow control", some 'o'⟩,
   ⟨'─', "minimise control", some '-'⟩,
   ⟨'✕', "close control", some 'x'⟩,
   ⟨'▰', "meter full", some '#'⟩,
   ⟨'▱', "meter empty", some '.'⟩,
   ⟨'⚷', "hecate", some '*'⟩,
   ⟨'☍', "charon", some '='⟩,
   ⟨'ᛟ', "odin", some 'O'⟩,
   ⟨'☽', "thoth", some 'D'⟩,
   ⟨'⚚', "hermes", some 'I'⟩,
   ⟨'◉', "horus", some '@'⟩,
   ⟨'✶', "urania", some '*'⟩,
   ⟨'ᚠ', "orbit 1", some '1'⟩,
   ⟨'ᚢ', "orbit 2", some '2'⟩,
   ⟨'ᚦ', "orbit 3", some '3'⟩,
   ⟨'ᚨ', "orbit 4", some '4'⟩,
   ⟨'ᚱ', "orbit 5", some '5'⟩,
   ⟨'ᚲ', "orbit 6", some '6'⟩,
   ⟨'𓂃', "prompt sigil", some '~'⟩] ++
  [('⡀', ' '), ('⣀', '.'), ('⣄', '.'), ('⣤', ':'), ('⣦', ':'), ('⣶', '|'), ('⣷', '|'),
   ('⣿', '#')].map fun (ch, fallback) => ⟨ch, "sparkline ramp", some fallback⟩

/-- What a renderer reported about its font stack. -/
structure Probe where
  covered : List Char
  missing : List Char

namespace Probe

def run (covers : Char → Bool) : Probe where
  covered := (inventory.filter fun g => covers g.ch).map (·.ch)
  missing := (inventory.filter fun g => !covers g.ch).map (·.ch)

def resolve (probe : Probe) (ch : Char) : Char :=
  if ch ∉ probe.missing then ch
  else ((inventory.find? fun g => g.ch = ch).bind (·.fallback)).getD '?'

end Probe

/-- The character drawn for a named glyph.  The source panics on a name that is
not in the inventory; every name it passes is. -/
def glyph (name : String) (probe : Probe) : Char :=
  match inventory.find? fun g => g.name = name with
  | some g => probe.resolve g.ch
  | none => '?'

end Realm

import Realm.Core.State
import Realm.Core.Tiling
import Realm.Lib.Map

/-!
# The damage of a bar frame

A frame of the bar is compared with the last one that was committed, element by element.
The elements of a frame are told apart by their role, their id and how many of the same
stand before them.
-/

namespace Realm.Bar

open List Option

structure LogicalRect where
  x : ℤ
  y : ℤ
  width : ℕ
  height : ℕ
deriving DecidableEq

namespace LogicalRect

variable {r s : LogicalRect} {start : ℤ}

/-- The edges are `i32` values. -/
structure InRange (r : LogicalRect) : Prop where
  left : -2 ^ 31 ≤ r.x
  right : r.x + r.width < 2 ^ 31
  top : -2 ^ 31 ≤ r.y
  bottom : r.y + r.height < 2 ^ 31

/-- The far edge of a side, computed in `i32`. -/
def edge (start : ℤ) (length : ℕ) : ℤ := wrap32 (start + wrap32 length)

/-- The side between two edges, as `u32`. -/
def side (start stop : ℤ) : ℕ := ((stop - start) % 2 ^ 32).toNat

def union (r s : LogicalRect) : LogicalRect where
  x := min r.x s.x
  y := min r.y s.y
  width := side (min r.x s.x) (max (edge r.x r.width) (edge s.x s.width))
  height := side (min r.y s.y) (max (edge r.y r.height) (edge s.y s.height))

/-- The rectangle lies in another. -/
structure Within (r s : LogicalRect) : Prop where
  left : s.x ≤ r.x
  right : r.x + r.width ≤ s.x + s.width
  top : s.y ≤ r.y
  bottom : r.y + r.height ≤ s.y + s.height

theorem Within.refl (r : LogicalRect) : r.Within r := ⟨le_rfl, le_rfl, le_rfl, le_rfl⟩

theorem Within.trans {t : LogicalRect} (h : r.Within s) (h' : s.Within t) : r.Within t :=
  ⟨h'.left.trans h.left, h.right.trans h'.right, h'.top.trans h.top, h.bottom.trans h'.bottom⟩

theorem edge_eq {length : ℕ} (h : -2 ^ 31 ≤ start) (h' : start + length < 2 ^ 31) :
    edge start length = start + length := by
  rw [edge, wrap32, wrap32, Int.add_bmod_bmod]
  exact wrap32_of_mem (by omega) h'

theorem add_side {stop : ℤ} (h : -2 ^ 31 ≤ start) (hle : start ≤ stop) (h' : stop < 2 ^ 31) :
    start + side start stop = stop := by
  simp only [side]
  omega

theorem union_spec (hr : r.InRange) (hs : s.InRange) :
    (r.union s).InRange ∧ r.Within (r.union s) ∧ s.Within (r.union s) := by
  obtain ⟨hl, hri, ht, hb⟩ := hr
  obtain ⟨hl', hri', ht', hb'⟩ := hs
  have hx : min r.x s.x + (r.union s).width = max (r.x + r.width) (s.x + s.width) := by
    rw [union, edge_eq hl hri, edge_eq hl' hri']
    exact add_side (by omega) (by omega) (by omega)
  have hy : min r.y s.y + (r.union s).height = max (r.y + r.height) (s.y + s.height) := by
    rw [union, edge_eq ht hb, edge_eq ht' hb']
    exact add_side (by omega) (by omega) (by omega)
  refine ⟨⟨?_, ?_, ?_, ?_⟩, ⟨?_, ?_, ?_, ?_⟩, ⟨?_, ?_, ?_, ?_⟩⟩ <;>
    simp only [show (r.union s).x = min r.x s.x from rfl,
      show (r.union s).y = min r.y s.y from rfl] <;> omega

end LogicalRect

/-! ## Elements -/

/-- The roles of the elements of a bar frame. -/
inductive ElementRole where
  | background
  | logo
  | orbit
  | layout
  | mode
  | title
  | chord
  | module
  | moduleClock
deriving DecidableEq

/-- An element; its text, colours and font are its look. -/
structure Element (Look : Type) where
  role : ElementRole
  id : Option String
  rect : LogicalRect
  look : Look
  inRange : rect.InRange
deriving DecidableEq

variable {Palette Look : Type} [DecidableEq Palette] [DecidableEq Look]
  {damage : Option LogicalRect}

abbrev ElementKey := ElementRole × Option String × ℕ

/-- Enter an element behind those with its role and id. -/
def enter (acc : Map (ElementRole × Option String) ℕ × Map ElementKey (Element Look))
    (e : Element Look) :
    Map (ElementRole × Option String) ℕ × Map ElementKey (Element Look) :=
  let count := (acc.1.lookup (e.role, e.id)).getD 0
  (acc.1.insert (e.role, e.id) (count + 1), acc.2.insert (e.role, e.id, count) e)

def keyed (elements : List (Element Look)) : Map ElementKey (Element Look) :=
  (elements.foldl enter (∅, ∅)).2

/-- The elements with a role and an id, in their order. -/
def alike (elements : List (Element Look)) (base : ElementRole × Option String) :
    List (Element Look) :=
  elements.filter fun e => (e.role, e.id) = base

def occurrence (elements : List (Element Look)) (key : ElementKey) : Option (Element Look) :=
  (alike elements (key.1, key.2.1))[key.2.2]?

omit [DecidableEq Look] in
theorem lookup_keyed (elements : List (Element Look)) (key : ElementKey) :
    (keyed elements).lookup key = occurrence elements key := by
  suffices h : (∀ base, ((elements.foldl enter (∅, ∅)).1.lookup base).getD 0 =
      (alike elements base).length) ∧
      ∀ key, (elements.foldl enter (∅, ∅)).2.lookup key = occurrence elements key from h.2 key
  induction elements using reverseRecOn with
  | nil => simp [alike, occurrence]
  | append_singleton elements e ih =>
    obtain ⟨hcounts, hmap⟩ := ih
    have halike : ∀ base, alike (elements ++ [e]) base =
        alike elements base ++ if (e.role, e.id) = base then [e] else [] := by
      intro base
      simp only [alike, filter_append, filter_cons, filter_nil, decide_eq_true_eq]
    rw [foldl_append, foldl_cons, foldl_nil]
    refine ⟨fun base => ?_, fun ⟨role, id, n⟩ => ?_⟩
    · rw [enter, Map.lookup_insert_eq, halike]
      by_cases hbase : base = (e.role, e.id)
      · simp [hbase, hcounts]
      · simp [hbase, Ne.symm hbase, hcounts]
    · rw [enter, Map.lookup_insert_eq, hcounts, hmap, occurrence, occurrence, halike]
      by_cases hbase : (e.role, e.id) = (role, id)
      · cases hbase
        simp only [Prod.mk.injEq, true_and, if_true, getElem?_append]
        grind
      · have hne : (role, id, n) ≠ (e.role, e.id, (alike elements (e.role, e.id)).length) :=
          fun heq => hbase (by simp_all)
        simp [hbase, hne]

/-! ## Frames -/

/-- A probe and a text system: what is left of a text, and the elements that
`render_bar_with_coverage` makes after its fit loop, with their rectangles and looks.  Of the
state it reads the orbits, the layout, the mode, the title, the chord echo and the modules, and
besides them the palette and the width. -/
structure Drawing (Palette Look : Type) where
  sanitize : String → String
  barHeight : Palette → ℕ
  elements : List OrbitCell → Layout → Mode → String → String → List Module → Palette → ℕ →
    List (Element Look)

/-- An order in which a hash map of elements may go through its keys. -/
structure KeyOrder (Look : Type) where
  keys : Map ElementKey (Element Look) → List ElementKey
  perm : ∀ m, (keys m).Perm m.keys

/-- What a frame is rendered of, and the order in which the maps of the render go through
their keys. -/
structure Picture (Palette Look : Type) where
  state : RealmState
  palette : Palette
  width : ℕ
  scale : ℕ
  order : KeyOrder Look

structure PreviousFrame (Palette Look : Type) where
  state : RealmState
  palette : Palette
  width : ℕ
  height : ℕ
  scale : ℕ
  elements : List (Element Look)

structure BarRenderer (Palette Look : Type) where
  previousBar : Option (PreviousFrame Palette Look)
  pendingBar : Option (PreviousFrame Palette Look)

def grow (damage : Option LogicalRect) (e : Element Look) : Option LogicalRect :=
  some (damage.elim e.rect (·.union e.rect))

/-- What stands under a key before and after, if it is not the same. -/
def differing (old new : Map ElementKey (Element Look)) (key : ElementKey) : List (Element Look) :=
  if old.lookup key = new.lookup key then []
  else (old.lookup key).toList ++ (new.lookup key).toList

def barDamage (order : KeyOrder Look) (previous : Option (PreviousFrame Palette Look))
    (frame : PreviousFrame Palette Look) : Option LogicalRect :=
  match previous with
  | none => some ⟨0, 0, frame.width, frame.height⟩
  | some previous =>
    if previous.width ≠ frame.width ∨ previous.height ≠ frame.height ∨
        previous.scale ≠ frame.scale ∨ previous.palette ≠ frame.palette then
      some ⟨0, 0, frame.width, frame.height⟩
    else if previous.state.rendersSameAs frame.state then none
    else
      let old := keyed previous.elements
      let new := keyed frame.elements
      ((order.keys old ++ order.keys new).flatMap (differing old new)).foldl grow none

namespace Drawing

def sanitized (d : Drawing Palette Look) (state : RealmState) : RealmState :=
  { state with
    focusedTitle := d.sanitize state.focusedTitle
    chordEcho := d.sanitize state.chordEcho
    modules := state.modules.map fun m => { m with text := d.sanitize m.text } }

def layOut (d : Drawing Palette Look) (s : RealmState) : Palette → ℕ → List (Element Look) :=
  d.elements s.orbits s.layout s.mode s.focusedTitle s.chordEcho s.modules

def frame (d : Drawing Palette Look) (p : Picture Palette Look) : PreviousFrame Palette Look where
  state := d.sanitized p.state
  palette := p.palette
  width := p.width
  height := max (d.barHeight p.palette) 1
  scale := max p.scale 1
  elements := d.layOut (d.sanitized p.state) p.palette p.width

omit [DecidableEq Palette] [DecidableEq Look] in
theorem layOut_eq (d : Drawing Palette Look) {s t : RealmState} (h : s.rendersSameAs t) :
    d.layOut s = d.layOut t := by
  simp only [RealmState.rendersSameAs, Bool.and_eq_true, decide_eq_true_eq] at h
  simp only [layOut, h]

end Drawing

namespace BarRenderer

def renderBar (d : Drawing Palette Look) (r : BarRenderer Palette Look)
    (p : Picture Palette Look) : Option LogicalRect × BarRenderer Palette Look :=
  (barDamage p.order r.previousBar (d.frame p), { r with pendingBar := some (d.frame p) })

def commitBarFrame (r : BarRenderer Palette Look) : BarRenderer Palette Look :=
  match r.pendingBar with
  | some committed => ⟨some committed, none⟩
  | none => r

/-- A render, or the commit of the last one. -/
def step (d : Drawing Palette Look) (r : BarRenderer Palette Look) :
    Option (Picture Palette Look) → BarRenderer Palette Look
  | some p => (r.renderBar d p).2
  | none => r.commitBarFrame

def run (d : Drawing Palette Look) (ops : List (Option (Picture Palette Look))) :
    BarRenderer Palette Look :=
  ops.foldl (step d) ⟨none, none⟩

end BarRenderer

/-! ## What the damage covers -/

def Covers (damage : Option LogicalRect) (r : LogicalRect) : Prop := ∃ s ∈ damage, r.Within s

omit [DecidableEq Look] in
theorem grow_spec (h : ∀ s ∈ damage, s.InRange) (e : Element Look) :
    (∀ s ∈ grow damage e, s.InRange) ∧ Covers (grow damage e) e.rect ∧
      ∀ r, Covers damage r → Covers (grow damage e) r := by
  cases damage with
  | none =>
    refine ⟨fun s hs => ?_, ⟨_, rfl, .refl _⟩, fun r ⟨_, hnone, _⟩ => nomatch hnone⟩
    cases hs
    exact e.inRange
  | some s =>
    obtain ⟨hrange, hold, hnew⟩ := LogicalRect.union_spec (h s rfl) e.inRange
    refine ⟨fun t ht => some.inj ht ▸ hrange, ⟨_, rfl, hnew⟩, fun r ⟨t, ht, hr⟩ => ?_⟩
    exact ⟨_, rfl, (some.inj ht ▸ hr).trans hold⟩

omit [DecidableEq Look] in
theorem foldl_grow_spec (elements : List (Element Look)) (h : ∀ s ∈ damage, s.InRange) :
    (∀ e ∈ elements, Covers (elements.foldl grow damage) e.rect) ∧
      ∀ r, Covers damage r → Covers (elements.foldl grow damage) r := by
  induction elements generalizing damage with
  | nil => exact ⟨fun _ he => absurd he not_mem_nil, fun _ hr => hr⟩
  | cons e elements ih =>
    obtain ⟨hrange, hself, hkeep⟩ := grow_spec h e
    obtain ⟨hall, hrest⟩ := ih hrange
    refine ⟨fun e' he' => ?_, fun r hr => hrest r (hkeep r hr)⟩
    rcases mem_cons.mp he' with rfl | he'
    · exact hrest _ hself
    · exact hall e' he'

theorem mem_differing (order : KeyOrder Look) {old new : Map ElementKey (Element Look)}
    {key : ElementKey} {e : Element Look} (hne : old.lookup key ≠ new.lookup key)
    (he : old.lookup key = some e ∨ new.lookup key = some e) :
    e ∈ (order.keys old ++ order.keys new).flatMap (differing old new) := by
  refine mem_flatMap.mpr ⟨key, mem_append.mpr (he.imp ?_ ?_), ?_⟩
  · exact fun h => (order.perm old).mem_iff.mpr (AList.lookup_isSome.mp (h ▸ rfl))
  · exact fun h => (order.perm new).mem_iff.mpr (AList.lookup_isSome.mp (h ▸ rfl))
  · rw [differing, if_neg hne]
    simpa using he

namespace BarRenderer

variable (d : Drawing Palette Look)

/-- The picture that was committed last: the one before the last row of commits. -/
def lastCommitted (ops : List (Option (Picture Palette Look))) : Option (Picture Palette Look) :=
  ((ops.reverse.dropWhile Option.isSome).dropWhile Option.isNone).head?.join

theorem run_eq (ops : List (Option (Picture Palette Look))) :
    run d ops = ⟨(lastCommitted ops).map d.frame, ops.getLast?.join.map d.frame⟩ := by
  induction ops using reverseRecOn with
  | nil => rfl
  | append_singleton ops op ih =>
    rw [run, foldl_append, ← run, ih]
    cases op with
    | some p => simp [step, renderBar, lastCommitted]
    | none =>
      simp only [foldl_cons, foldl_nil, step, commitBarFrame, lastCommitted,
        List.getLast?_eq_head?_reverse, reverse_append, reverse_singleton]
      rcases ops.reverse with - | ⟨_ | q, rest⟩ <;> rfl

/-- Next to a last committed frame of the same size, scale and palette, the damage is that of
the two frames, in whatever order the keys come: it covers what stands under a key in either of
them if that is not the same, and there is none only if no element differs. -/
theorem renderBar_damage (ops : List (Option (Picture Palette Look)))
    (last p : Picture Palette Look) (hlast : lastCommitted ops = some last)
    (hwidth : last.width = p.width) (hscale : last.scale = p.scale)
    (hpalette : last.palette = p.palette) :
    let damage := ((run d ops).renderBar d p).1
    let old := (d.frame last).elements
    let new := (d.frame p).elements
    damage = barDamage p.order (some (d.frame last)) (d.frame p) ∧
    (∀ key e, occurrence old key ≠ occurrence new key →
      occurrence old key = some e ∨ occurrence new key = some e → Covers damage e.rect) ∧
    (damage = none → ∀ key, occurrence old key = occurrence new key) := by
  intro damage old new
  have hdamage : damage = barDamage p.order (some (d.frame last)) (d.frame p) := by
    simp only [damage, renderBar, run_eq, hlast, map_some]
  have hcovers : ∀ key e, occurrence old key ≠ occurrence new key →
      occurrence old key = some e ∨ occurrence new key = some e → Covers damage e.rect := by
    intro key e hne he
    have hsize : ¬ ((d.frame last).width ≠ (d.frame p).width ∨
        (d.frame last).height ≠ (d.frame p).height ∨ (d.frame last).scale ≠ (d.frame p).scale ∨
        (d.frame last).palette ≠ (d.frame p).palette) := by
      simp [Drawing.frame, hwidth, hscale, hpalette]
    have hstate : ¬ (d.frame last).state.rendersSameAs (d.frame p).state := by
      intro hsame
      refine hne (congrArg (occurrence · key) ?_)
      exact congrFun₂ (d.layOut_eq hsame) _ _ |>.trans (by rw [hpalette, hwidth]; rfl)
    rw [hdamage, barDamage, if_neg hsize, if_neg hstate]
    simp only [← lookup_keyed] at hne he
    exact (foldl_grow_spec _ (fun _ hnone => absurd hnone (not_mem_none _))).1 e
      (mem_differing p.order hne he)
  refine ⟨hdamage, hcovers, fun hnone key => ?_⟩
  -- an element that differs stands in one of the frames, and its place is not covered
  by_contra hne
  obtain ⟨e, he⟩ : ∃ e, occurrence old key = some e ∨ occurrence new key = some e := by
    cases hold : occurrence old key with
    | some e => exact ⟨e, .inl rfl⟩
    | none =>
      obtain ⟨e, he⟩ := ne_none_iff_exists'.mp (fun h => hne (hold.trans h.symm))
      exact ⟨e, .inr he⟩
  obtain ⟨s, hs, -⟩ := hcovers key e hne he
  rw [hnone] at hs
  exact nomatch hs

def titleAlone : Drawing Unit String where
  sanitize := id
  barHeight := fun _ => 24
  elements := fun _ _ _ title _ _ _ _ =>
    [⟨.title, none, ⟨0, 0, 80, 24⟩, title, by decide, by decide, by decide, by decide⟩]

def titled (title : String) : Picture Unit String :=
  ⟨{ RealmState.default with focusedTitle := title }, (), 80, 1, AList.keys, fun _ => .rfl⟩

theorem renderBar_damage_titled : Covers
    ((run titleAlone [some (titled "a"), none, some (titled "c")]).renderBar titleAlone
      (titled "b")).1 ⟨0, 0, 80, 24⟩ :=
  (renderBar_damage titleAlone _ (titled "a") (titled "b") rfl rfl rfl rfl).2.1
    (.title, none, 0) _ (by decide) (.inl rfl)

end BarRenderer

end Realm.Bar

import LevelCollision.Level.Basic
import LevelCollision.Sweep.BrushClip

namespace LevelCollision

/-!
# Visiting the brushes of a leaf

A brush that reaches into several leaves is met once for each of them. A visit may
skip a brush that was considered before, which a policy decides from the brushes
considered so far. The usual policy remembers, for each remainder modulo sixteen,
the brush of that remainder that was considered last.

A visit ends early when the box turns out to be inside a brush for the whole of its
motion.
-/

/--
Whether to skip a brush, given the brushes considered before it, the latest first.
-/
abbrev SkipPolicy :=
  List Nat → Nat → Bool

namespace SkipPolicy

/-- Skip no brush. -/
def never : SkipPolicy :=
  fun _ _ => false

/-- Skip every brush that was considered before. -/
def once : SkipPolicy :=
  fun considered brush => considered.contains brush

/-- Skip the brush that was considered last among those of its remainder. -/
def bySlot
    (slots : Nat) : SkipPolicy :=
  fun considered brush =>
    considered.find? (· % slots == brush % slots) == some brush

/-- The policy that queries use. -/
def usual : SkipPolicy :=
  bySlot 16

end SkipPolicy

/-- A trace in the making. -/
structure Probe (S : Type) where
  trace : Trace S
  /-- The brushes considered so far, the latest first. -/
  considered : List Nat
  /-- How many brushes a moving box was clipped to. -/
  clips : Nat
  deriving DecidableEq

/-- How a query meets a brush that has faces. -/
abbrev Encounter (S : Type) :=
  Contents → List (Face S) → Nat → Probe S → Probe S

namespace Probe

variable {S : Type} [Scalar S]

/-- Nothing was met yet. -/
def begin
    (motion : Motion S) : Probe S where
  trace := .unobstructed motion.stop
  considered := []
  clips := 0

/-- Clip the motion to a brush. -/
def clip
    (motion : Motion S) : Encounter S :=
  fun contents faces leaf probe =>
    { probe with
      trace := probe.trace.clip motion contents faces leaf
      clips := probe.clips + 1 }

/-- Test the position of the box against a brush. -/
def test
    (motion : Motion S) : Encounter S :=
  fun contents faces leaf probe =>
    { probe with
      trace := probe.trace.test motion contents faces leaf }

end Probe

namespace Tree

variable {S : Type} [Scalar S]

/-- A side of a brush with its plane. -/
def face
    (tree : Tree S)
    (side : BrushSide) : Except Fault (Face S) := do
  let plane ← tree.plane side.plane
  return { plane := plane, surface := side.surface }

/-- The faces of a brush. -/
def faces
    (tree : Tree S)
    (brush : Brush) : Except Fault (List (Face S)) := do
  let sides ← lookupSpan tree.records.brushSides brush.sides
  sides.mapM tree.face

/-- Meet a brush. One without faces takes up no space. -/
def meetBrush
    (tree : Tree S)
    (encounter : Encounter S)
    (leaf : Nat)
    (brush : Brush)
    (probe : Probe S) : Except Fault (Probe S) :=
  if brush.sides.count = 0 then
    .ok probe
  else do
    let faces ← tree.faces brush
    return encounter brush.contents faces leaf probe

/-- Consider the brushes of a leaf in their order. -/
def considerBrushes
    (tree : Tree S)
    (policy : SkipPolicy)
    (mask : Contents)
    (encounter : Encounter S)
    (leaf : Nat) :
    List Nat → Probe S → Except Fault (Probe S)
  | [], probe =>
      .ok probe
  | id :: rest, probe => do
      let noted := { probe with considered := id :: probe.considered }
      if policy probe.considered id then
        tree.considerBrushes policy mask encounter leaf rest noted
      else
        let brush ← lookup tree.records.brushes id
        if brush.contents.intersects mask then
          let met ← tree.meetBrush encounter leaf brush noted
          if met.trace.allSolid then
            return met
          else
            tree.considerBrushes policy mask encounter leaf rest met
        else
          tree.considerBrushes policy mask encounter leaf rest noted

/-- Visit a leaf, if its contents can stop the box. -/
def visitLeaf
    (tree : Tree S)
    (policy : SkipPolicy)
    (mask : Contents)
    (encounter : Encounter S)
    (id : Nat)
    (probe : Probe S) : Except Fault (Probe S) := do
  let leaf ← tree.leaf id
  if leaf.contents.intersects mask then
    let brushes ← lookupSpan tree.records.leafBrushes leaf.brushes
    tree.considerBrushes policy mask encounter id brushes probe
  else
    return probe

end Tree

end LevelCollision

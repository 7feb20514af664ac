import Mathlib.Tactic.IntervalCases
import LevelCollision.Proofs.QueryRuns
import LevelCollision.Proofs.SoundLevels
import LevelCollision.Proofs.SweepSegments

namespace LevelCollision

/-!
# The tree of a box hull

The tree of a box goes through the faces of the box in their order. A walk leaves it for
the empty leaf as soon as it is outside a face, and comes to the leaf of the hull once it
is inside all of them. The only brush that is listed there is that of the hull, whose
faces look out of the box.
-/

namespace BoxHull

section Planes

variable {S : Type} [Scalar S]

/-- The axis across which a face lies. -/
def faceAxis
    (face : Nat) : Axis :=
  Axis.ofIndex (face / 2)

/-- The bound of a box at a face. -/
def faceBound
    (bounds : Box S)
    (face : Nat) : S :=
  match outside face with
  | .front => bounds.maxs.get (faceAxis face)
  | .back => bounds.mins.get (faceAxis face)

/-- The plane of a face that looks along its axis. -/
def facePlane
    (bounds : Box S)
    (face : Nat) : Plane S :=
  Plane.axial (faceAxis face) (faceBound bounds face)

/-- The plane of a face that looks out of the box. -/
def outwardPlane
    (bounds : Box S)
    (face : Nat) : Plane S :=
  match outside face with
  | .front => facePlane bounds face
  | .back => (facePlane bounds face).opposite

variable {bounds : Box S} {face : Nat}

/-- A hull has two planes for each face, one along its axis and one against it. -/
theorem toList_planes
    (bounds : Box S) :
    (planes bounds).toList =
      [facePlane bounds 0, (facePlane bounds 0).opposite,
        facePlane bounds 1, (facePlane bounds 1).opposite,
        facePlane bounds 2, (facePlane bounds 2).opposite,
        facePlane bounds 3, (facePlane bounds 3).opposite,
        facePlane bounds 4, (facePlane bounds 4).opposite,
        facePlane bounds 5, (facePlane bounds 5).opposite] := by
  rw [planes, Array.toList_flatMap]
  rfl

theorem planes_facePlane
    (isFace : face < faceCount) :
    (planes bounds)[2 * face]? = some (facePlane bounds face) := by
  rw [← Array.getElem?_toList, toList_planes]
  unfold faceCount at isFace
  interval_cases face <;> rfl

theorem planes_outwardPlane
    (isFace : face < faceCount) :
    (planes bounds)[2 * face + face % 2]? =
      some (outwardPlane bounds face) := by
  rw [← Array.getElem?_toList, toList_planes]
  unfold faceCount at isFace
  interval_cases face <;> rfl

end Planes

section Stages

variable {S : Type} {own : Records S} {face : Nat}

/-- Where a walk is that was inside of all faces before this one. -/
def stage
    (own : Records S)
    (face : Nat) : Child :=
  if face = faceCount then
    .leaf (leafId own)
  else
    .node (own.nodes.size + face)

theorem stage_of_lt
    (isFace : face < faceCount) :
    stage own face = .node (own.nodes.size + face) :=
  if_neg (Nat.ne_of_lt isFace)

end Stages

section Lookups

variable {S : Type} [Scalar S]
variable {level : Level S} {bounds : Box S} {face : Nat}

theorem node_tree
    (isFace : face < faceCount) :
    (level.tree (.box bounds)).node (level.own.nodes.size + face) =
      .ok (node level.own level.emptyLeaf face) := by
  rw [Tree.node, lookup_eq_ok_iff, Level.records_tree]
  simp [Records.withBoxHull, isFace]

theorem plane_tree
    (position : Nat) :
    (level.tree (.box bounds)).plane (level.own.planes.size + position) =
      lookup (planes bounds) position := by
  have found :
      (level.own.planes ++ planes bounds)[level.own.planes.size + position]? =
        (planes bounds)[position]? := by
    rw [Array.getElem?_append_right (Nat.le_add_right _ _),
      Nat.add_sub_cancel_left]
  rw [Tree.plane, Level.records_tree]
  simp only [lookup, Records.withBoxHull, Head.hullBounds, found]

theorem plane_of_node
    (isFace : face < faceCount) :
    (level.tree (.box bounds)).plane
        (node level.own level.emptyLeaf face).plane =
      .ok (facePlane bounds face) := by
  rw [node_plane, plane_tree, lookup_eq_ok_iff]
  exact planes_facePlane isFace

theorem leaf_tree :
    (level.tree (.box bounds)).leaf (leafId level.own) =
      .ok (leaf level.own) := by
  rw [Tree.leaf, lookup_eq_ok_iff, Level.records_tree]
  exact Array.getElem?_push_size

theorem leafId_lt :
    leafId level.own < (level.tree (.box bounds)).records.leaves.size :=
  lt_of_lookup_eq_ok leaf_tree

theorem brush_tree :
    (level.tree (.box bounds)).records.brushes[level.own.brushes.size]? =
      some (brush level.own) := by
  rw [Level.records_tree]
  exact Array.getElem?_push_size

/-- The leaf outside a hull is the level's empty leaf. -/
theorem ownLeaf_tree
    {id : Nat}
    {entry : Leaf}
    (found : level.own.leaves[id]? = some entry) :
    (level.tree (.box bounds)).leaf id = .ok entry := by
  obtain ⟨inRange, _⟩ := Array.getElem?_eq_some_iff.mp found
  rw [Tree.leaf, lookup_eq_ok_iff, Level.records_tree]
  exact (Array.getElem?_push_lt inRange).trans
    ((Array.getElem?_eq_getElem inRange).symm.trans found)

end Lookups

section Walks

variable {S : Type} [Scalar S]
variable {level : Level S} {bounds : Box S} {levels face leafFound : Nat}

/-- From a face every walk ends when it has gone through the faces behind it. -/
theorem endsWithin_stage
    (sound : level.Sound)
    (bounds : Box S)
    (reaches : face + levels = faceCount) :
    (level.tree (.box bounds)).EndsWithin levels (stage level.own face) := by
  induction levels generalizing face with
  | zero =>
      have isLast : face = faceCount := reaches
      rw [stage, if_pos isLast]
      exact .leaf leafId_lt
  | succ levels inductionHypothesis =>
      have isFace : face < faceCount := by
        omega
      rw [stage_of_lt isFace]
      refine .node (node_tree isFace) (plane_of_node isFace) fun side => ?_
      rcases node_child_cases level.own level.emptyLeaf face side with
          isEmpty | goesOn
      · obtain ⟨entry, found, _⟩ := sound.emptyLeaf
        rw [isEmpty]
        exact .leaf (lt_of_lookup_eq_ok (ownLeaf_tree found))
      · rw [goesOn]
        exact inductionHypothesis (by omega)

/-- The leaves below a face are the empty leaf and the leaf of the hull. -/
theorem leaf_below_stage
    (reaches : face + levels = faceCount)
    (below :
      (level.tree (.box bounds)).Below (stage level.own face)
        (.leaf leafFound)) :
    leafFound = level.emptyLeaf ∨ leafFound = leafId level.own := by
  induction levels generalizing face with
  | zero =>
      have isLast : face = faceCount := reaches
      rw [stage, if_pos isLast] at below
      cases below
      exact .inr rfl
  | succ levels inductionHypothesis =>
      have isFace : face < faceCount := by
        omega
      rw [stage_of_lt isFace] at below
      cases below with
      | step hasChild lower =>
          obtain ⟨entry, side, found, rfl⟩ := hasChild
          rw [lookup_eq_ok_iff.mp (node_tree isFace),
            Option.some.injEq] at found
          subst found
          rcases node_child_cases level.own level.emptyLeaf face side with
              isEmpty | goesOn
          · rw [isEmpty] at lower
            cases lower
            exact .inl rfl
          · rw [goesOn] at lower
            exact inductionHypothesis (by omega) lower

variable {point : Vec3 S}

/-- A point that is inside of all faces descends to the leaf of the hull. -/
theorem descend_of_inside
    (inside :
      ∀ face < faceCount,
        (facePlane bounds face).pointSide point = (outside face).opposite)
    (before : face ≤ faceCount)
    (enough : faceCount ≤ face + levels) :
    (level.tree (.box bounds)).descend point levels (stage level.own face) =
      .ok (leafId level.own) := by
  induction levels generalizing face with
  | zero =>
      have isLast : face = faceCount :=
        Nat.le_antisymm before enough
      rw [stage, if_pos isLast]
      rfl
  | succ levels inductionHypothesis =>
      rcases Nat.eq_or_lt_of_le before with isLast | isFace
      · rw [stage, if_pos isLast]
        rfl
      · rw [stage_of_lt isFace, Tree.descend, node_tree isFace, ok_bind,
          plane_of_node isFace, ok_bind, inside face isFace,
          node_child_inside]
        exact inductionHypothesis isFace (by omega)

/-- A point that is outside of some face descends to the empty leaf. -/
theorem descend_of_outside
    {left : Nat}
    (isOutside : (facePlane bounds left).pointSide point = outside left)
    (isFace : left < faceCount)
    (notBehind : face ≤ left)
    (enough : faceCount ≤ face + levels) :
    (level.tree (.box bounds)).descend point levels (stage level.own face) =
      .ok level.emptyLeaf := by
  induction levels generalizing face with
  | zero =>
      omega
  | succ levels inductionHypothesis =>
      have isEarlierFace : face < faceCount := by
        omega
      rw [stage_of_lt isEarlierFace, Tree.descend, node_tree isEarlierFace,
        ok_bind, plane_of_node isEarlierFace, ok_bind]
      by_cases leaves : (facePlane bounds face).pointSide point = outside face
      · rw [leaves, node_child_outside]
        cases levels <;> rfl
      · have notThis : face ≠ left := by
          rintro rfl
          exact leaves isOutside
        rw [Side.eq_opposite_of_ne leaves, node_child_inside]
        exact inductionHypothesis (by omega) (by omega)

end Walks

section Brushes

variable {S : Type} [Scalar S]
variable {level : Level S} {bounds : Box S} {mask : Contents}

/-- The leaf of a hull lists the brush of the hull and no other. -/
theorem leafBrushes_tree :
    lookupSpan (level.tree (.box bounds)).records.leafBrushes
        (leaf level.own).brushes =
      .ok [level.own.brushes.size] := by
  rw [lookupSpan_eq_ok_iff, Level.records_tree]
  simp [Records.withBoxHull, leaf, Span.stop]

/-- The brush of a hull stops what monsters stop. -/
theorem exists_obstacle
    (sound : level.Sound)
    (bounds : Box S)
    (wanted : Contents.monster.intersects mask = true) :
    ∃ faces,
      (level.tree (.box bounds)).Obstacle mask level.own.brushes.size
        (brush level.own) faces := by
  obtain ⟨faces, found⟩ :=
    Tree.exists_faces (sound.closed_tree (.box bounds))
      (Array.mem_of_getElem? brush_tree)
  refine ⟨faces, brush_tree, wanted, ?_, found⟩
  change faceCount ≠ 0
  decide

/-- The faces of the brush of a hull look out of the box. -/
theorem exists_of_mem_faces
    {faces : List (Face S)}
    (found :
      (level.tree (.box bounds)).faces (brush level.own) = .ok faces)
    {entry : Face S}
    (member : entry ∈ faces) :
    ∃ face < faceCount, entry.plane = outwardPlane bounds face := by
  obtain ⟨sides, foundSides, lookedUp⟩ := bind_eq_ok_iff.mp found
  obtain ⟨side, isSide, foundFace⟩ := exists_of_mem_mapM lookedUp member
  obtain ⟨plane, foundPlane, shape⟩ := bind_eq_ok_iff.mp foundFace
  cases shape
  obtain ⟨position, afterFirst, beforeStop, foundSide⟩ :=
    (mem_lookupSpan_iff foundSides).mp isSide
  obtain ⟨face, rfl⟩ := Nat.exists_eq_add_of_le afterFirst
  have isFace : face < faceCount :=
    Nat.lt_of_add_lt_add_left beforeStop
  have shape : brushSide level.own face = side := by
    rw [Level.records_tree] at foundSide
    simpa [Records.withBoxHull, brush, isFace] using foundSide
  subst shape
  refine ⟨face, isFace, ?_⟩
  rw [brushSide, Nat.add_assoc, plane_tree, lookup_eq_ok_iff,
    planes_outwardPlane isFace, Option.some.injEq] at foundPlane
  exact foundPlane.symm

end Brushes

section Descents

variable {level : Level Rat} {bounds : Box Rat} {point : Vec3 Rat}
variable {levels face : Nat}

/-- A point is inside a box, and at least `distEpsilon` from each of its faces. -/
def WellInside
    (bounds : Box Rat)
    (point : Vec3 Rat) : Prop :=
  ∀ axis,
    bounds.mins.get axis + Scalar.distEpsilon ≤ point.get axis ∧
      point.get axis ≤ bounds.maxs.get axis - Scalar.distEpsilon

theorem WellInside.pointSide
    (inside : WellInside bounds point)
    (face : Nat) :
    (facePlane bounds face).pointSide point = (outside face).opposite ∧
      Scalar.distEpsilon ≤ |(facePlane bounds face).pointDist point| := by
  obtain ⟨afterMins, beforeMaxs⟩ := inside (faceAxis face)
  have positive := Scalar.distEpsilon_pos
  have dist :
      (facePlane bounds face).pointDist point =
        point.get (faceAxis face) - faceBound bounds face := rfl
  cases isOutside : outside face with
  | front =>
      have bound : faceBound bounds face = bounds.maxs.get (faceAxis face) := by
        rw [faceBound, isOutside]
      rw [bound] at dist
      refine ⟨Plane.pointSide_eq_back ?_, le_abs.mpr (.inr ?_)⟩
      · linarith
      · linarith
  | back =>
      have bound : faceBound bounds face = bounds.mins.get (faceAxis face) := by
        rw [faceBound, isOutside]
      rw [bound] at dist
      refine ⟨Plane.pointSide_eq_front ?_, le_abs.mpr (.inl ?_)⟩
      · linarith
      · linarith

/-- A point well inside a box descends to the leaf of its hull. -/
theorem WellInside.descend
    (inside : WellInside bounds point)
    (reaches : face + levels = faceCount) :
    (level.tree (.box bounds)).descend point levels (stage level.own face) =
      .ok (leafId level.own) :=
  descend_of_inside (fun face _ => (inside.pointSide face).1) (by omega)
    reaches.ge

/-- On its way it stays clear of the faces. -/
theorem WellInside.clear
    (inside : WellInside bounds point)
    (reaches : face + levels = faceCount)
    {plane : Plane Rat}
    (meets :
      (level.tree (.box bounds)).Meets point (stage level.own face) plane) :
    Scalar.distEpsilon ≤ |plane.pointDist point| := by
  induction levels generalizing face with
  | zero =>
      have isLast : face = faceCount := reaches
      rw [stage, if_pos isLast] at meets
      cases meets
  | succ levels inductionHypothesis =>
      have isFace : face < faceCount := by
        omega
      rw [stage_of_lt isFace] at meets
      cases meets with
      | atNode foundNode foundPlane =>
          rw [node_tree isFace, Except.ok.injEq] at foundNode
          rw [← foundNode, plane_of_node isFace,
            Except.ok.injEq] at foundPlane
          rw [← foundPlane]
          exact (inside.pointSide face).2
      | onwards foundNode foundPlane further =>
          rw [node_tree isFace, Except.ok.injEq] at foundNode
          rw [← foundNode, plane_of_node isFace,
            Except.ok.injEq] at foundPlane
          rw [← foundNode, ← foundPlane, (inside.pointSide face).1,
            node_child_inside] at further
          exact inductionHypothesis (by omega) further

end Descents

end BoxHull

end LevelCollision

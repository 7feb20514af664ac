import LevelCollision.Proofs.HullDepth
import LevelCollision.Proofs.PositionTests

namespace LevelCollision

/-!
# Boxes that stand in box hulls

In exact arithmetic a box that stands still is held by a box hull if and only if the two
overlap, where boxes that only touch overlap as well. Such a box is gathered into the leaf of
the hull, for which there is always room behind the six places outside of it, and it is in
front of none of the faces.
-/

/-- A box that stands still is wholly inside what it is held by. -/
theorem Trace.allSolid_standing
    {S : Type} [Scalar S]
    (point : Vec3 S)
    (hit : Option (Nat × Contents)) :
    (standing point hit).allSolid = hit.isSome := by
  cases hit with
  | none =>
      rfl
  | some _ =>
      rfl

/-- On no axis does one of two boxes lie beyond the other. -/
def Box.Overlaps
    {S : Type} [Scalar S]
    (box other : Box S) : Prop :=
  ∀ axis,
    box.mins.get axis ≤ other.maxs.get axis ∧
      other.mins.get axis ≤ box.maxs.get axis

namespace BoxHull

section Gathering

variable {S : Type} [Scalar S]
variable {level : Level S} {bounds box : Box S} {face levels : Nat}
variable {leaves : List Nat} {top : Option Nat}

/--
From a face a box that lies outside of it comes to the empty leaf only. Any other box comes to
what lies inside, and if it lies across the face it comes to the empty leaf besides.
-/
theorem touches_stage_cases
    (isFace : face < faceCount)
    (touches :
      (level.tree (.box bounds)).Touches box (stage level.own face) leaves
        top) :
    (facePlane bounds face).boxSide box = (outside face).whole ∧
        leaves = [level.emptyLeaf] ∨
      ∃ inner innerTop,
        (level.tree (.box bounds)).Touches box (stage level.own (face + 1))
            inner innerTop ∧
          (leaves = inner ∨ leaves = level.emptyLeaf :: inner ∨
            leaves = inner ++ [level.emptyLeaf]) := by
  rw [stage_of_lt isFace] at touches
  cases touches with
  | @within _ _ _ side _ _ foundNode foundPlane lies below =>
      cases (node_tree isFace).symm.trans foundNode
      cases (plane_of_node isFace).symm.trans foundPlane
      by_cases isOutside : side = outside face
      · rw [isOutside, node_child_outside] at below
        cases below
        rw [isOutside] at lies
        exact .inl ⟨lies, rfl⟩
      · rw [Side.eq_opposite_of_ne isOutside, node_child_inside] at below
        exact .inr ⟨_, _, below, .inl rfl⟩
  | across foundNode foundPlane _ inFront behind =>
      cases (node_tree isFace).symm.trans foundNode
      have outer :
          (node level.own level.emptyLeaf face).child (outside face) =
            .leaf level.emptyLeaf :=
        node_child_outside face
      have inner :
          (node level.own level.emptyLeaf face).child (outside face).opposite =
            stage level.own (face + 1) :=
        node_child_inside face
      cases isOutside : outside face with
      | front =>
          rw [isOutside] at outer inner
          rw [show (node _ _ face).front = _ from outer] at inFront
          rw [show (node _ _ face).back = _ from inner] at behind
          cases inFront
          exact .inr ⟨_, _, behind, .inr (.inl rfl)⟩
      | back =>
          rw [isOutside] at outer inner
          rw [show (node _ _ face).front = _ from inner] at inFront
          rw [show (node _ _ face).back = _ from outer] at behind
          cases behind
          exact .inr ⟨_, _, inFront, .inr (.inr rfl)⟩

/-- What holds inside the hull, and at each face if it holds behind it, holds from any face on. -/
theorem touches_stage_induction
    (holds : Nat → List Nat → Prop)
    (last : holds 0 [leafId level.own])
    (outsideFace :
      ∀ levels face,
        face < faceCount →
          (facePlane bounds face).boxSide box = (outside face).whole →
            holds (levels + 1) [level.emptyLeaf])
    (insideFace :
      ∀ levels inner leaves,
        holds levels inner →
          (leaves = inner ∨ leaves = level.emptyLeaf :: inner ∨
            leaves = inner ++ [level.emptyLeaf]) →
            holds (levels + 1) leaves)
    (reaches : face + levels = faceCount)
    (touches :
      (level.tree (.box bounds)).Touches box (stage level.own face) leaves
        top) :
    holds levels leaves := by
  induction levels generalizing face leaves top with
  | zero =>
      have isLast : face = faceCount := reaches
      rw [stage, if_pos isLast] at touches
      cases touches
      exact last
  | succ levels inductionHypothesis =>
      have isFace : face < faceCount := by
        omega
      rcases touches_stage_cases isFace touches with
          ⟨isOutside, rfl⟩ | ⟨inner, innerTop, below, shape⟩
      · exact outsideFace levels face isFace isOutside
      · have holdsBelow := inductionHypothesis (by omega) below
        exact insideFace levels inner leaves holdsBelow shape

/-- Behind a face there is one place for each face from there on, and one in the hull. -/
theorem length_le_of_touches_stage
    (reaches : face + levels = faceCount)
    (touches :
      (level.tree (.box bounds)).Touches box (stage level.own face) leaves
        top) :
    leaves.length ≤ levels + 1 := by
  refine
    touches_stage_induction
      (fun levels leaves => leaves.length ≤ levels + 1)
      (Nat.le_refl 1) (fun levels _ _ _ => Nat.le_add_left 1 _)
      (fun levels inner leaves bound shape => ?_) reaches touches
  rcases shape with rfl | rfl | rfl
  · exact Nat.le_succ_of_le bound
  · exact Nat.succ_le_succ bound
  · rw [List.length_append]
    exact Nat.succ_le_succ bound

/-- A box that is outside of no face comes to the leaf of the hull. -/
theorem leafId_mem_of_touches_stage
    (notOutside :
      ∀ face < faceCount,
        (facePlane bounds face).boxSide box ≠ (outside face).whole)
    (reaches : face + levels = faceCount)
    (touches :
      (level.tree (.box bounds)).Touches box (stage level.own face) leaves
        top) :
    leafId level.own ∈ leaves := by
  refine
    touches_stage_induction
      (fun _ leaves => leafId level.own ∈ leaves)
      (List.mem_singleton_self _)
      (fun _ face isFace isOutside =>
        absurd isOutside (notOutside face isFace))
      (fun _ inner leaves member shape => ?_) reaches touches
  rcases shape with rfl | rfl | rfl
  · exact member
  · exact List.mem_cons_of_mem _ member
  · exact List.mem_append_left _ member

/-- A face of the brush of a hull has no surface. -/
def outwardFace
    (bounds : Box S)
    (face : Nat) : Face S where
  plane := outwardPlane bounds face
  surface := none

/-- The brush of a hull has the faces that look out of the box, in their order. -/
theorem faces_tree :
    (level.tree (.box bounds)).faces (brush level.own) =
      .ok ((List.range faceCount).map (outwardFace bounds)) := by
  have sides :
      lookupSpan (level.tree (.box bounds)).records.brushSides
          (brush level.own).sides =
        .ok ((List.range faceCount).map (brushSide level.own)) := by
    rw [lookupSpan_eq_ok_iff, Level.records_tree]
    simp [Records.withBoxHull, brush, Span.stop]
  rw [Tree.faces, sides, ok_bind, List.mapM_map]
  refine mapM_eq_ok fun face member => ?_
  have isFace : face < faceCount :=
    List.mem_range.mp member
  rw [Function.comp_apply, Tree.face, brushSide, Nat.add_assoc, plane_tree,
    lookup_eq_ok_iff.mpr (planes_outwardPlane isFace)]
  rfl

end Gathering

section Faces

variable {bounds box : Box Rat} {face : Nat}

/-- The whole of a box lies farther out than a face. -/
def Beyond
    (bounds : Box Rat)
    (face : Nat)
    (box : Box Rat) : Prop :=
  match outside face with
  | .front => faceBound bounds face < box.mins.get (faceAxis face)
  | .back => box.maxs.get (faceAxis face) < faceBound bounds face

/-- A box that lies beyond no face overlaps with the bounds. -/
theorem overlaps_iff_not_beyond :
    box.Overlaps bounds ↔ ∀ face < faceCount, ¬Beyond bounds face box := by
  constructor
  · intro overlaps face _
    obtain ⟨begins, ends⟩ := overlaps (faceAxis face)
    unfold Beyond faceBound
    cases outside face with
    | front =>
        exact not_lt.mpr begins
    | back =>
        exact not_lt.mpr ends
  · intro notBeyond axis
    -- The faces of an axis are its upper bound and then its lower one.
    cases axis with
    | x =>
        exact
          ⟨not_lt.mp (notBeyond 0 (by decide)),
            not_lt.mp (notBeyond 1 (by decide))⟩
    | y =>
        exact
          ⟨not_lt.mp (notBeyond 2 (by decide)),
            not_lt.mp (notBeyond 3 (by decide))⟩
    | z =>
        exact
          ⟨not_lt.mp (notBeyond 4 (by decide)),
            not_lt.mp (notBeyond 5 (by decide))⟩

/-- A box that was grown by one unit is outside of a face only if it was beyond it. -/
theorem boxSide_ne_outside
    (notBeyond : ¬Beyond bounds face box) :
    (facePlane bounds face).boxSide (box.grow 1) ≠ (outside face).whole := by
  have slackLess : (Scalar.sideEpsilon : Rat) < 1 := by
    decide +kernel
  have isAxial : (facePlane bounds face).kind.axis? = some (faceAxis face) :=
    rfl
  have dist : (facePlane bounds face).dist = faceBound bounds face := rfl
  have least :
      (box.grow 1).mins.get (faceAxis face) =
        box.mins.get (faceAxis face) - 1 := by
    rw [Box.grow, Vec3.get_sub, Vec3.get_splat]
  have most :
      (box.grow 1).maxs.get (faceAxis face) =
        box.maxs.get (faceAxis face) + 1 := by
    rw [Box.grow, Vec3.get_add, Vec3.get_splat]
  unfold Beyond at notBeyond
  simp only [Plane.boxSide, isAxial, dist, least, most]
  cases isOutside : outside face with
  | front =>
      rw [isOutside] at notBeyond
      have begins := not_lt.mp notBeyond
      rw [if_neg (by linarith)]
      split <;> exact BoxSide.noConfusion
  | back =>
      rw [isOutside] at notBeyond
      have ends := not_lt.mp notBeyond
      split
      · exact BoxSide.noConfusion
      · rw [if_neg (by linarith)]
        exact BoxSide.noConfusion

/-- The start of a motion is in front of a face if the box there lies beyond it. -/
theorem startsInFront_iff_beyond
    (motion : Motion Rat) :
    motion.startsInFront (outwardFace bounds face) = true ↔
      Beyond bounds face motion.occupied := by
  rw [Motion.startsInFront, decide_eq_true_iff, outwardFace,
    Motion.dist_outwardPlane, Beyond, Motion.occupied]
  cases outside face with
  | front =>
      dsimp only
      rw [sub_pos, Vec3.get_add]
  | back =>
      dsimp only
      rw [sub_pos, Vec3.get_add]

end Faces

section Tests

variable {level : Level Rat} {bounds : Box Rat} {motion : Motion Rat}

/-- The brush of a hull holds a box if and only if the box overlaps with the bounds. -/
theorem isSome_holding?_iff
    (wanted : Contents.monster.intersects motion.mask = true) :
    ((level.tree (.box bounds)).holding? motion
          level.own.brushes.size).isSome = true ↔
      motion.occupied.Overlaps bounds := by
  have obstacle :
      (level.tree (.box bounds)).Obstacle motion.mask
        level.own.brushes.size (brush level.own)
        ((List.range faceCount).map (outwardFace bounds)) :=
    { found := brush_tree
      wanted := wanted
      bounded := show faceCount ≠ 0 by decide
      faces := faces_tree }
  rw [overlaps_iff_not_beyond, Option.isSome_iff_exists]
  constructor
  · rintro ⟨contents, held⟩ face isFace beyond
    obtain ⟨_, faces, another, behind, _⟩ :=
      Tree.holding?_eq_some_iff.mp held
    obtain ⟨_, rfl⟩ := obstacle.unique another
    have member :
        outwardFace bounds face ∈
          (List.range faceCount).map (outwardFace bounds) :=
      List.mem_map_of_mem (List.mem_range.mpr isFace)
    exact
      List.any_eq_false.mp behind _ member
        ((startsInFront_iff_beyond motion).mpr beyond)
  · intro notBeyond
    refine ⟨_, Tree.holding?_eq_some_iff.mpr ⟨_, _, obstacle, ?_, rfl⟩⟩
    rw [List.any_eq_false]
    intro entry member inFront
    obtain ⟨face, isFace, rfl⟩ := List.mem_map.mp member
    exact
      notBeyond face (List.mem_range.mp isFace)
        ((startsInFront_iff_beyond motion).mp inFront)

/-- The leaf of a hull is scanned for the brush of the hull. -/
theorem scanLeaf_leafId
    (wanted : Contents.monster.intersects motion.mask = true) :
    (level.tree (.box bounds)).scanLeaf motion (leafId level.own) =
      ((level.tree (.box bounds)).holding? motion
          level.own.brushes.size).map (leafId level.own, ·) := by
  have found :
      (level.tree (.box bounds)).records.leaves[leafId level.own]? =
        some (leaf level.own) :=
    lookup_eq_ok_iff.mp leaf_tree
  have wanted : (leaf level.own).contents.intersects motion.mask = true :=
    wanted
  have lists :
      lookupSpan (level.tree (.box bounds)).records.leafBrushes
          (leaf level.own).brushes =
        .ok [level.own.brushes.size] :=
    leafBrushes_tree
  obtain ⟨_, lists⟩ := lookupSpan_eq_ok_iff.mp lists
  have listed :
      (level.tree (.box bounds)).listed motion.mask (leafId level.own) =
        [level.own.brushes.size] := by
    simp only [Tree.listed, found, wanted, ↓reduceIte, lists]
  rw [Tree.scanLeaf, listed, List.findSome?_singleton]

/-- Outside of a hull there is nothing to scan. -/
theorem scanLeaf_emptyLeaf
    (sound : level.Sound) :
    (level.tree (.box bounds)).scanLeaf motion level.emptyLeaf = none := by
  obtain ⟨entry, isEntry, isEmpty⟩ := sound.emptyLeaf
  have found :
      (level.tree (.box bounds)).records.leaves[level.emptyLeaf]? =
        some entry :=
    lookup_eq_ok_iff.mp (ownLeaf_tree isEntry)
  have unwanted : entry.contents.intersects motion.mask = false := by
    rw [isEmpty]
    exact Contents.not_intersects_empty motion.mask
  have unlisted :
      (level.tree (.box bounds)).listed motion.mask level.emptyLeaf = [] := by
    simp only [Tree.listed, found, unwanted, Bool.false_eq_true, ↓reduceIte]
  rw [Tree.scanLeaf, unlisted, List.findSome?_nil]

/-- Of the leaves that a box is gathered into, that of the hull decides. -/
theorem isSome_scan_iff
    (sound : level.Sound)
    (wanted : Contents.monster.intersects motion.mask = true)
    {leaves : List Nat}
    (outsideOrIn :
      ∀ leaf ∈ leaves, leaf = level.emptyLeaf ∨ leaf = leafId level.own) :
    ((level.tree (.box bounds)).scan motion leaves).isSome = true ↔
      leafId level.own ∈ leaves ∧ motion.occupied.Overlaps bounds := by
  rw [Tree.scan, List.isSome_findSome?, List.any_eq_true]
  constructor
  · rintro ⟨leaf, member, hits⟩
    rcases outsideOrIn leaf member with rfl | rfl
    · rw [scanLeaf_emptyLeaf sound] at hits
      cases hits
    · rw [scanLeaf_leafId wanted, Option.isSome_map] at hits
      exact ⟨member, (isSome_holding?_iff wanted).mp hits⟩
  · rintro ⟨member, overlaps⟩
    refine ⟨_, member, ?_⟩
    rw [scanLeaf_leafId wanted, Option.isSome_map]
    exact (isSome_holding?_iff wanted).mpr overlaps

end Tests

end BoxHull

namespace World

/--
A box that stands still is wholly inside a box hull if and only if it overlaps with the bounds
of the hull on every axis, where to touch is to overlap. Neither of the two has to have an
extent, or its corners in order. There is room for the hull if at least seven leaves are
looked at.
-/
theorem allSolid_boxHull_iff
    {world : World Rat}
    (sound : world.level.Sound)
    (bounds : Box Rat)
    {motion : Motion Rat}
    (still : motion.start = motion.stop)
    (wanted : Contents.monster.intersects motion.mask = true)
    (roomy : 7 ≤ world.config.maxTouchedLeaves) :
    ∃ trace after,
      world.trace (.box bounds) motion = .ok (trace, after) ∧
        (trace.allSolid = true ↔
          ∀ axis,
            motion.start.get axis + motion.box.mins.get axis ≤
                bounds.maxs.get axis ∧
              bounds.mins.get axis ≤
                motion.start.get axis + motion.box.maxs.get axis) := by
  have closed := sound.closed_tree (.box bounds)
  have walkable := sound.walkable_box bounds
  have isStill : motion.isStill = true :=
    Vec3.coincides_iff.mpr still
  obtain ⟨leaves, top, touches⟩ :=
    walkable.ends.exists_touches motion.surroundings
  have length : leaves.length ≤ 6 + 1 :=
    BoxHull.length_le_of_touches_stage (Nat.zero_add 6) touches
  have isAll : leaves.take world.config.maxTouchedLeaves = leaves :=
    List.take_of_length_le (Nat.le_trans length roomy)
  obtain ⟨after, traces⟩ :=
    exists_trace_scan closed walkable.ends isStill touches
  rw [isAll] at traces
  refine ⟨_, after, traces, ?_⟩
  have outsideOrIn
      (leaf : Nat)
      (member : leaf ∈ leaves) :
      leaf = world.level.emptyLeaf ∨
        leaf = BoxHull.leafId world.level.own :=
    BoxHull.leaf_below_stage (Nat.zero_add 6) (touches.below_of_mem member)
  have comesToHull
      (overlaps : motion.occupied.Overlaps bounds) :
      BoxHull.leafId world.level.own ∈ leaves :=
    BoxHull.leafId_mem_of_touches_stage
      (fun face isFace =>
        BoxHull.boxSide_ne_outside
          (BoxHull.overlaps_iff_not_beyond.mp overlaps face isFace))
      (Nat.zero_add 6) touches
  rw [Trace.allSolid_standing,
    BoxHull.isSome_scan_iff sound wanted outsideOrIn,
    and_iff_right_of_imp comesToHull]
  simp only [Box.Overlaps, Motion.occupied, Vec3.get_add]

/-- A thin box, its lower corner above its upper one, that touches the cube from its side. -/
def besideCube : Motion Rat where
  start := ⟨2, 0, 0⟩
  stop := ⟨2, 0, 0⟩
  box := { mins := ⟨-1, 0, 1 / 2⟩, maxs := ⟨1, 0, -1 / 2⟩ }
  mask := .monster

/-- The thin box is in the hull of the cube, though it has a single point on it. -/
theorem allSolid_besideCube :
    ∃ trace after,
      unmapped.trace (.box cube) besideCube = .ok (trace, after) ∧
        trace.allSolid = true := by
  have roomy : 7 ≤ unmapped.config.maxTouchedLeaves := by
    decide
  obtain ⟨trace, after, traces, solid⟩ :=
    @allSolid_boxHull_iff unmapped Level.sound_empty cube besideCube rfl
      (by decide) roomy
  refine ⟨trace, after, traces, solid.mpr fun axis => ?_⟩
  cases axis <;> decide +kernel

end World

end LevelCollision

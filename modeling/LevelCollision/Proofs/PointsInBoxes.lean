import LevelCollision.Proofs.ExactGeometry
import LevelCollision.Proofs.TouchedLeaves

namespace LevelCollision

/-!
# Points in boxes

The side of a point and the sides of a box are found in different ways. In exact
arithmetic they agree: the corners that the signs of a normal pick bound the distances of
all points of the box, and across an axis they agree for points that are farther than
`sideEpsilon` from the plane. The leaf of a point of a box is then one of those that the
box touches.
-/

section Signs

variable {S : Type} [Scalar S]

/-- The recorded signs of a plane are those of its normal. -/
def Plane.Signed
    (plane : Plane S) : Prop :=
  plane.signs = signsOf plane.normal

instance
    (plane : Plane S) : Decidable plane.Signed :=
  inferInstanceAs (Decidable (_ = _))

/-- Planes are made with the signs of their normals. -/
theorem Plane.signed_ofNormal
    (normal : Vec3 S)
    (dist : S)
    (kind : PlaneKind) :
    (ofNormal normal dist kind).Signed :=
  rfl

/-- The recorded signs of all planes are those of their normals. -/
def Records.Signed
    (records : Records S) : Prop :=
  ∀ plane ∈ records.planes, plane.Signed

/-- The planes of a box hull have the signs of their normals. -/
theorem BoxHull.signed_planes
    {bounds : Box S}
    {plane : Plane S}
    (member : plane ∈ planes bounds) :
    plane.Signed := by
  have bound
      {axis : Axis}
      {dist : S}
      (member : plane ∈ boundPlanes axis dist) :
      plane.Signed := by
    simp only [boundPlanes, List.mem_toArray, List.mem_cons,
      List.not_mem_nil, or_false] at member
    rcases member with rfl | rfl
    · exact Plane.signed_ofNormal _ _ _
    · exact Plane.signed_ofNormal _ _ _
  obtain ⟨axis, _, inAxis⟩ := Array.mem_flatMap.mp member
  rcases Array.mem_append.mp inAxis with upper | lower
  · exact bound upper
  · exact bound lower

/-- So do those of every tree of a level whose own planes do. -/
theorem Level.signed_tree
    {level : Level S}
    (signed : level.own.Signed)
    (head : Head S) :
    (level.tree head).records.Signed := by
  intro plane member
  rw [records_tree] at member
  rcases Array.mem_append.mp member with isOwn | ofHull
  · exact signed plane isOwn
  · exact BoxHull.signed_planes ofHull

end Signs

/-- A plane that was read has the signs of its normal. -/
theorem Layout.signed_of_plane
    {id : Nat}
    {bytes : List UInt8}
    {plane : Plane Float32}
    (read :
      (Reading.ofFields (Layout.plane id) bytes).flatten.outcome =
        .ok plane) :
    plane.Signed := by
  rw [Reading.outcome_flatten, bind_eq_ok_iff] at read
  obtain ⟨inner, readFields, readPlane⟩ := read
  obtain ⟨rest, run⟩ := Reading.outcome_ofFields_eq_ok_iff.mp readFields
  simp only [Layout.plane, StateT.run_bind, Option.bind_eq_bind,
    Option.bind_eq_some_iff, StateT.run_pure, Option.pure_def,
    Option.some.injEq, Prod.mk.injEq] at run
  obtain ⟨_, _, _, _, _, _, shape, -⟩ := run
  subst shape
  split at readPlane
  · cases readPlane
    exact Plane.signed_ofNormal _ _ _
  · cases readPlane

/-- The planes of a level that was read have the signs of their normals. -/
theorem Level.signed_of_read
    {bytes : List UInt8}
    {level : Level Float32}
    (accepted : (read bytes).outcome = .ok level) :
    level.own.Signed := by
  obtain ⟨table, _, readRecords, _⟩ := outcome_read_eq_ok_iff.mp accepted
  obtain ⟨_, _, _, readPlanes, _⟩ :=
    LumpTable.outcome_allRecords_eq_ok_iff.mp readRecords
  obtain ⟨_, _, _, readAs⟩ :=
    LumpTable.outcome_records_eq_ok_iff.mp readPlanes
  intro plane member
  obtain ⟨_, _, readPlane⟩ :=
    readAs.source (Array.mem_toList_iff.mpr member)
  exact Layout.signed_of_plane readPlane

namespace Plane

variable {plane : Plane Rat} {box : Box Rat} {point : Vec3 Rat}

/-- Along each axis a point of a box counts no less than one corner and no more than the other. -/
theorem corners_between
    (signed : plane.Signed)
    (inBox : box.Contains point)
    (axis : Axis) :
    (plane.nearCorner box).get axis * plane.normal.get axis ≤
        point.get axis * plane.normal.get axis ∧
      point.get axis * plane.normal.get axis ≤
        (plane.farCorner box).get axis * plane.normal.get axis := by
  obtain ⟨least, most⟩ := inBox axis
  rw [nearCorner, farCorner, signed, signsOf]
  simp only [Vec3.get_zipWith, Vec3.get_map]
  by_cases negative : plane.normal.get axis < 0
  · rw [if_pos (decide_eq_true negative), if_pos (decide_eq_true negative)]
    exact
      ⟨mul_le_mul_of_nonpos_right most (le_of_lt negative),
        mul_le_mul_of_nonpos_right least (le_of_lt negative)⟩
  · rw [if_neg (by simpa using negative), if_neg (by simpa using negative)]
    exact
      ⟨mul_le_mul_of_nonneg_right least (not_lt.mp negative),
        mul_le_mul_of_nonneg_right most (not_lt.mp negative)⟩

/-- The corner behind the others lies no farther along the normal than a point does. -/
theorem nearCorner_dot_le
    (signed : plane.Signed)
    (inBox : box.Contains point) :
    (plane.nearCorner box).dot plane.normal ≤ point.dot plane.normal := by
  have component
      (axis : Axis) :=
    (corners_between signed inBox axis).1
  exact
    add_le_add (add_le_add (component .x) (component .y)) (component .z)

/-- Nor does it lie farther than the corner in front of the others. -/
theorem dot_le_farCorner
    (signed : plane.Signed)
    (inBox : box.Contains point) :
    point.dot plane.normal ≤ (plane.farCorner box).dot plane.normal := by
  have component
      (axis : Axis) :=
    (corners_between signed inBox axis).2
  exact
    add_le_add (add_le_add (component .x) (component .y)) (component .z)

/-- If a plane is axial, a point is farther than `sideEpsilon` away from it. -/
def AxiallyClear
    (plane : Plane Rat)
    (point : Vec3 Rat) : Prop :=
  ∀ axis ∈ plane.kind.axis?,
    point.get axis < plane.dist - Scalar.sideEpsilon ∨
      plane.dist + Scalar.sideEpsilon < point.get axis

instance
    (plane : Plane Rat)
    (point : Vec3 Rat) : Decidable (plane.AxiallyClear point) :=
  inferInstanceAs (Decidable (∀ axis ∈ plane.kind.axis?, _ < _ ∨ _ < _))

theorem sideEpsilon_pos :
    (0 : Rat) < Scalar.sideEpsilon := by
  decide +kernel

/-- On an axial plane's side of a box lie the points of the box that are clear of it. -/
theorem pointSide_of_boxSide_axial
    {axis : Axis}
    (isAxial : plane.kind.axis? = some axis)
    (inBox : box.Contains point)
    (clear : plane.AxiallyClear point)
    {side : Side}
    (lies : plane.boxSide box = side.whole) :
    plane.pointSide point = side := by
  obtain ⟨least, most⟩ := inBox axis
  have slack := sideEpsilon_pos
  have dist : plane.pointDist point = point.get axis - plane.dist := by
    simp only [pointDist, isAxial]
  simp only [boxSide, isAxial] at lies
  cases side with
  | front =>
      have ahead : plane.dist - Scalar.sideEpsilon ≤ box.mins.get axis := by
        by_contra notAhead
        rw [if_neg notAhead] at lies
        split at lies <;> cases lies
      refine pointSide_eq_front ?_
      rw [dist]
      rcases clear axis isAxial with below | above
      · exact absurd (le_trans ahead least) (not_le.mpr below)
      · linarith
  | back =>
      have behind : box.maxs.get axis ≤ plane.dist + Scalar.sideEpsilon := by
        by_contra notBehind
        rw [if_neg notBehind] at lies
        split at lies <;> cases lies
      refine pointSide_eq_back ?_
      rw [dist]
      rcases clear axis isAxial with below | above
      · linarith
      · exact absurd (le_trans most behind) (not_le.mpr above)

/-- On any other plane's side of a box lie all points of the box. -/
theorem pointSide_of_boxSide_general
    (isGeneral : plane.kind.axis? = none)
    (signed : plane.Signed)
    (inBox : box.Contains point)
    {side : Side}
    (lies : plane.boxSide box = side.whole) :
    plane.pointSide point = side := by
  have dist :
      plane.pointDist point = point.dot plane.normal - plane.dist := by
    simp only [pointDist, isGeneral]
  simp only [boxSide, isGeneral] at lies
  cases side with
  | front =>
      have ahead :
          plane.dist ≤ (plane.nearCorner box).dot plane.normal := by
        by_contra behind
        rw [decide_eq_true (not_le.mp behind)] at lies
        generalize decide (plane.dist ≤ _) = inFront at lies
        cases inFront <;> cases lies
      refine pointSide_eq_front ?_
      rw [dist]
      exact sub_nonneg.mpr (le_trans ahead (nearCorner_dot_le signed inBox))
  | back =>
      have behind :
          (plane.farCorner box).dot plane.normal < plane.dist := by
        by_contra inFront
        rw [decide_eq_true (not_lt.mp inFront)] at lies
        generalize decide (_ < plane.dist) = behind at lies
        cases behind <;> cases lies
      refine pointSide_eq_back ?_
      rw [dist]
      exact
        sub_neg.mpr (lt_of_le_of_lt (dot_le_farCorner signed inBox) behind)

/-- The sides of a box agree with the side of each of its points that is clear. -/
theorem pointSide_of_boxSide
    (signed : plane.Signed)
    (inBox : box.Contains point)
    (clear : plane.AxiallyClear point)
    {side : Side}
    (lies : plane.boxSide box = side.whole) :
    plane.pointSide point = side := by
  cases shape : plane.kind.axis? with
  | some axis =>
      exact pointSide_of_boxSide_axial shape inBox clear lies
  | none =>
      exact pointSide_of_boxSide_general shape signed inBox lies

end Plane

namespace Tree

variable {tree : Tree Rat} {box : Box Rat} {point : Vec3 Rat}
variable {levels leaf : Nat} {child : Child}

/-- The planes that a descent goes past are planes of the tree. -/
theorem Meets.mem_planes
    {S : Type}
    [Scalar S]
    {tree : Tree S}
    {point : Vec3 S}
    {plane : Plane S}
    (meets : tree.Meets point child plane) :
    plane ∈ tree.records.planes := by
  induction meets with
  | atNode _ foundPlane =>
      exact mem_of_lookup_eq_ok foundPlane
  | onwards _ _ _ inductionHypothesis =>
      exact inductionHypothesis

/-- The descent of a clear point of a box comes to a leaf that the box touches. -/
theorem Touches.mem_of_descend
    {leaves : List Nat}
    {top : Option Nat}
    (touches : tree.Touches box child leaves top)
    (signed : tree.records.Signed)
    (inBox : box.Contains point)
    (clear : ∀ plane, tree.Meets point child plane → plane.AxiallyClear point)
    (descends : tree.descend point levels child = .ok leaf) :
    leaf ∈ leaves := by
  induction touches generalizing levels with
  | leaf id =>
      have isLeaf : leaf = id := by
        cases levels <;> cases descends <;> rfl
      exact List.mem_singleton.mpr isLeaf
  | @within id node plane side leaves top foundNode foundPlane lies _
      inductionHypothesis =>
      cases levels with
      | zero =>
          cases descends
      | succ levels =>
          rw [descend, foundNode, ok_bind, foundPlane, ok_bind] at descends
          have agrees :=
            Plane.pointSide_of_boxSide
              (signed plane (mem_of_lookup_eq_ok foundPlane)) inBox
              (clear plane (.atNode foundNode foundPlane)) lies
          rw [agrees] at descends
          refine inductionHypothesis ?_ descends
          intro other meets
          rw [← agrees] at meets
          exact clear other (.onwards foundNode foundPlane meets)
  | @across id node plane inFront behind _ _ foundNode foundPlane _ _ _
      frontHypothesis backHypothesis =>
      cases levels with
      | zero =>
          cases descends
      | succ levels =>
          rw [descend, foundNode, ok_bind, foundPlane, ok_bind] at descends
          have onwards
              (side : Side)
              (isSide : plane.pointSide point = side)
              (other : Plane Rat)
              (meets : tree.Meets point (node.child side) other) :
              other.AxiallyClear point := by
            rw [← isSide] at meets
            exact clear other (.onwards foundNode foundPlane meets)
          cases isSide : plane.pointSide point with
          | front =>
              rw [isSide] at descends
              exact
                List.mem_append_left behind
                  (frontHypothesis (onwards .front isSide) descends)
          | back =>
              rw [isSide] at descends
              exact
                List.mem_append_right inFront
                  (backHypothesis (onwards .back isSide) descends)

end Tree

namespace Level

variable {level : Level Rat} {head : Head Rat}

/--
A point of a box that is clear of the axial planes on its descent comes to a leaf, and the
leaf is among those that the box touches, of which the lists up to a limit are the first.
-/
theorem pointLeaf_mem_boxLeaves
    (sound : level.Sound)
    (signed : level.own.Signed)
    (rooted : (level.tree head).root.In (level.tree head).records)
    (acyclic : (level.tree head).Acyclic)
    {box : Box Rat}
    {point : Vec3 Rat}
    (inBox : box.Contains point)
    (clear :
      ∀ plane,
        (level.tree head).Meets point (level.tree head).root plane →
          plane.AxiallyClear point) :
    ∃ (leaf : Nat) (leaves : List Nat) (top : Option Nat),
      (level.tree head).pointLeaf point = .ok leaf ∧
        (∀ limit,
          (level.tree head).boxLeaves box limit =
            .ok ⟨(leaves.take limit).toArray, top⟩) ∧
        leaf ∈ leaves := by
  have ends := acyclic.endsWithin (sound.closed_tree head) rooted
  obtain ⟨leaf, descends, _⟩ := ends.exists_descend point
  obtain ⟨leaves, top, touches⟩ := ends.exists_touches box
  exact
    ⟨leaf, leaves, top, descends, touches.boxLeaves ends,
      touches.mem_of_descend (signed_tree signed head) inBox clear descends⟩

/-- A level over the rational numbers with a slope, and a wall behind it. -/
def slope : Level Rat where
  own :=
    { planes := #[Plane.ofNormal ⟨1, -1, 1⟩ 0 .general, Plane.axial .x (-4)]
      nodes :=
        #[{ plane := 0, front := .leaf 1, back := .node 1 },
          { plane := 1, front := .leaf 2, back := .leaf 0 }]
      leaves :=
        #[{ contents := .solid, cluster := none, area := 0, brushes := ⟨0, 0⟩ },
          { contents := .empty, cluster := none, area := 0, brushes := ⟨0, 0⟩ },
          { contents := .empty, cluster := none, area := 0, brushes := ⟨0, 0⟩ }]
      models :=
        #[{ bounds := BoxHull.unplaced, origin := Vec3.zero, head := .node 0 }]
      areas := #[{ portals := ⟨0, 0⟩ }] }
  emptyLeaf := 1
  visibility := none
  clusterCount := 0
  entityBytes := []
  fileSize := 0

theorem sound_slope :
    slope.Sound where
  closed := by
    refine Records.closed_iff.mpr ⟨by decide +kernel, ?_⟩
    intro side member
    exact absurd member (Array.not_mem_empty side)
  hasArea := Nat.one_pos
  hasModel := Nat.one_pos
  emptyLeaf := ⟨_, rfl, rfl⟩
  rows := by
    rintro table ⟨⟩

/-- A cube across the slope touches the leaf of a point of it that is behind the slope. -/
theorem pointLeaf_mem_boxLeaves_slope :
    ∃ (leaf : Nat) (leaves : List Nat) (top : Option Nat),
      (slope.tree (.tree (.node 0))).pointLeaf ⟨-1, 1 / 2, 1 / 2⟩ =
          .ok leaf ∧
        (∀ limit,
          (slope.tree (.tree (.node 0))).boxLeaves
              ⟨Vec3.splat (-1), Vec3.splat 1⟩ limit =
            .ok ⟨(leaves.take limit).toArray, top⟩) ∧
        leaf ∈ leaves := by
  have signed : ∀ plane ∈ slope.own.planes, plane.Signed := by
    decide +kernel
  have rooted :
      (slope.tree (.tree (.node 0))).root.In
        (slope.tree (.tree (.node 0))).records := by
    change 0 < slope.full.nodes.size
    decide +kernel
  have inBox :
      Box.Contains ⟨Vec3.splat (-1), Vec3.splat 1⟩
        (⟨-1, 1 / 2, 1 / 2⟩ : Vec3 Rat) := by
    intro axis
    cases axis <;> decide +kernel
  refine
    pointLeaf_mem_boxLeaves sound_slope signed rooted
      (Tree.acyclic_of_goesForward (by decide +kernel)) inBox ?_
  have clear :
      ∀ plane ∈ (slope.tree (.tree (.node 0))).records.planes,
        plane.AxiallyClear ⟨-1, 1 / 2, 1 / 2⟩ := by
    decide +kernel
  intro plane meets
  exact clear plane meets.mem_planes

end Level

end LevelCollision

import LevelCollision.Proofs.References

namespace LevelCollision

/-!
# The records of a box hull

A hull adds records behind those of its level and leaves the level's own ones where
they are. Its records name one another and one leaf of the level, so that they are
closed when the level's are. Its nodes form a chain that can only be left to that
leaf or, at the end, to the leaf of the hull.
-/

namespace Records

variable {S : Type} [Scalar S]
variable {own : Records S} {emptyLeaf : Nat} {bounds : Box S}

@[simp] theorem size_hullPlanes :
    (BoxHull.planes bounds).size = BoxHull.planeCount := by
  simp [BoxHull.planes, BoxHull.boundPlanes, BoxHull.planeCount]

@[simp] theorem size_planes_withBoxHull :
    (own.withBoxHull emptyLeaf bounds).planes.size =
      own.planes.size + BoxHull.planeCount := by
  simp [withBoxHull]

@[simp] theorem size_nodes_withBoxHull :
    (own.withBoxHull emptyLeaf bounds).nodes.size =
      own.nodes.size + BoxHull.faceCount := by
  simp [withBoxHull]

@[simp] theorem size_leaves_withBoxHull :
    (own.withBoxHull emptyLeaf bounds).leaves.size = own.leaves.size + 1 := by
  simp [withBoxHull]

@[simp] theorem size_leafBrushes_withBoxHull :
    (own.withBoxHull emptyLeaf bounds).leafBrushes.size =
      own.leafBrushes.size + 1 := by
  simp [withBoxHull]

@[simp] theorem size_brushes_withBoxHull :
    (own.withBoxHull emptyLeaf bounds).brushes.size =
      own.brushes.size + 1 := by
  simp [withBoxHull]

@[simp] theorem size_brushSides_withBoxHull :
    (own.withBoxHull emptyLeaf bounds).brushSides.size =
      own.brushSides.size + BoxHull.faceCount := by
  simp [withBoxHull]

@[simp] theorem surfaces_withBoxHull :
    (own.withBoxHull emptyLeaf bounds).surfaces = own.surfaces := by
  simp only [withBoxHull]

@[simp] theorem models_withBoxHull :
    (own.withBoxHull emptyLeaf bounds).models = own.models := by
  simp only [withBoxHull]

@[simp] theorem areas_withBoxHull :
    (own.withBoxHull emptyLeaf bounds).areas = own.areas := by
  simp only [withBoxHull]

@[simp] theorem areaPortals_withBoxHull :
    (own.withBoxHull emptyLeaf bounds).areaPortals = own.areaPortals := by
  simp only [withBoxHull]

theorem mem_nodes_withBoxHull
    {node : Node} :
    node ∈ (own.withBoxHull emptyLeaf bounds).nodes ↔
      node ∈ own.nodes ∨
        ∃ face < BoxHull.faceCount,
          BoxHull.node own emptyLeaf face = node := by
  simp [withBoxHull, Array.mem_append, Array.mem_map, Array.mem_range]

theorem mem_leaves_withBoxHull
    {leaf : Leaf} :
    leaf ∈ (own.withBoxHull emptyLeaf bounds).leaves ↔
      leaf ∈ own.leaves ∨ leaf = BoxHull.leaf own := by
  simp [withBoxHull]

theorem mem_leafBrushes_withBoxHull
    {brush : Nat} :
    brush ∈ (own.withBoxHull emptyLeaf bounds).leafBrushes ↔
      brush ∈ own.leafBrushes ∨ brush = own.brushes.size := by
  simp [withBoxHull]

theorem mem_brushes_withBoxHull
    {brush : Brush} :
    brush ∈ (own.withBoxHull emptyLeaf bounds).brushes ↔
      brush ∈ own.brushes ∨ brush = BoxHull.brush own := by
  simp [withBoxHull]

theorem mem_brushSides_withBoxHull
    {side : BrushSide} :
    side ∈ (own.withBoxHull emptyLeaf bounds).brushSides ↔
      side ∈ own.brushSides ∨
        ∃ face < BoxHull.faceCount,
          BoxHull.brushSide own face = side := by
  simp [withBoxHull, Array.mem_append, Array.mem_map, Array.mem_range]

end Records

@[simp] theorem Side.opposite_opposite
    (side : Side) :
    side.opposite.opposite = side := by
  cases side <;> rfl

/-- There are only two sides. -/
theorem Side.eq_opposite_of_ne
    {side other : Side}
    (isNot : side ≠ other) :
    side = other.opposite := by
  revert isNot
  cases side <;> cases other <;> simp [opposite]

namespace BoxHull

variable {S : Type} {own : Records S} {emptyLeaf : Nat}

/-- On the outside of a face is the empty leaf. -/
theorem node_child_outside
    (face : Nat) :
    (node own emptyLeaf face).child (outside face) = .leaf emptyLeaf := by
  unfold node
  split <;> rename_i shape <;> rw [shape] <;> rfl

/-- Across from the outside of a face is what lies inside it. -/
theorem node_child_inside
    (face : Nat) :
    (node own emptyLeaf face).child (outside face).opposite =
      inside own face := by
  unfold node
  split <;> rename_i shape <;> rw [shape] <;> rfl

/-- A face is left for the empty leaf or for what lies inside it. -/
theorem node_child_cases
    (own : Records S)
    (emptyLeaf face : Nat)
    (side : Side) :
    (node own emptyLeaf face).child side = .leaf emptyLeaf ∨
      (node own emptyLeaf face).child side = inside own face := by
  by_cases isOutside : side = outside face
  · rw [isOutside, node_child_outside]
    exact .inl rfl
  · rw [Side.eq_opposite_of_ne isOutside, node_child_inside]
    exact .inr rfl

/-- The plane of a node of the hull is one of the hull's. -/
theorem node_plane
    (face : Nat) :
    (node own emptyLeaf face).plane = own.planes.size + 2 * face := by
  unfold node
  split <;> rfl

end BoxHull

section

variable {S : Type} [Scalar S]
variable {own : Records S} {emptyLeaf : Nat} {bounds : Box S}

/-- A child of the level's own records is one behind which a hull was added. -/
theorem Child.In.withBoxHull
    {child : Child}
    (inOwn : child.In own) :
    child.In (own.withBoxHull emptyLeaf bounds) := by
  cases child with
  | node id =>
      have bound : id < own.nodes.size := inOwn
      change id < (own.withBoxHull emptyLeaf bounds).nodes.size
      rw [Records.size_nodes_withBoxHull]
      omega
  | leaf id =>
      have bound : id < own.leaves.size := inOwn
      change id < (own.withBoxHull emptyLeaf bounds).leaves.size
      rw [Records.size_leaves_withBoxHull]
      omega

namespace BoxHull

/-- What lies inside a face is the next node of the hull or its leaf. -/
theorem inside_in_withBoxHull
    {face : Nat}
    (isFace : face < faceCount) :
    (inside own face).In (own.withBoxHull emptyLeaf bounds) := by
  unfold inside
  split
  · change leafId own < (own.withBoxHull emptyLeaf bounds).leaves.size
    rw [Records.size_leaves_withBoxHull]
    exact Nat.lt_succ_self _
  · change own.nodes.size + (face + 1) <
      (own.withBoxHull emptyLeaf bounds).nodes.size
    rw [Records.size_nodes_withBoxHull]
    omega

/-- Each child of a node of the hull is one of the level's records or the hull's. -/
theorem node_child_in_withBoxHull
    {face : Nat}
    (isFace : face < faceCount)
    (emptyExists : emptyLeaf < own.leaves.size)
    (side : Side) :
    ((node own emptyLeaf face).child side).In
      (own.withBoxHull emptyLeaf bounds) := by
  rcases node_child_cases own emptyLeaf face side with isEmpty | isInside
  · rw [isEmpty]
    have inOwn : (Child.leaf emptyLeaf).In own :=
      emptyExists
    exact inOwn.withBoxHull
  · rw [isInside]
    exact inside_in_withBoxHull isFace

end BoxHull

/-- Adding a hull to closed records leaves them closed. -/
theorem Records.Closed.withBoxHull
    {clusterCount : Nat}
    (closed : own.Closed clusterCount)
    (hasArea : 0 < own.areas.size)
    (emptyExists : emptyLeaf < own.leaves.size) :
    (own.withBoxHull emptyLeaf bounds).Closed clusterCount where
  leafBrushes leaf member := by
    rw [size_leafBrushes_withBoxHull]
    rcases mem_leaves_withBoxHull.mp member with isOwn | isHull
    · exact Nat.le_succ_of_le (closed.leafBrushes leaf isOwn)
    · subst isHull
      exact Nat.le_refl _
  leafCluster leaf member cluster has := by
    rcases mem_leaves_withBoxHull.mp member with isOwn | isHull
    · exact closed.leafCluster leaf isOwn cluster has
    · subst isHull
      cases has
  leafArea leaf member := by
    rcases mem_leaves_withBoxHull.mp member with isOwn | isHull
    · rw [areas_withBoxHull]
      exact closed.leafArea leaf isOwn
    · subst isHull
      rw [areas_withBoxHull]
      exact hasArea
  brush brush member := by
    rw [size_brushes_withBoxHull]
    rcases mem_leafBrushes_withBoxHull.mp member with isOwn | isHull
    · exact Nat.lt_succ_of_lt (closed.brush brush isOwn)
    · subst isHull
      exact Nat.lt_succ_self _
  brushSides brush member := by
    rw [size_brushSides_withBoxHull]
    rcases mem_brushes_withBoxHull.mp member with isOwn | isHull
    · exact Nat.le_trans (closed.brushSides brush isOwn) (Nat.le_add_right _ _)
    · subst isHull
      exact Nat.le_refl _
  sidePlane side member := by
    rw [size_planes_withBoxHull]
    rcases mem_brushSides_withBoxHull.mp member with
        isOwn | ⟨face, isFace, isHull⟩
    · exact
        Nat.lt_of_lt_of_le (closed.sidePlane side isOwn)
          (Nat.le_add_right _ _)
    · subst isHull
      simp only [BoxHull.brushSide, BoxHull.faceCount,
        BoxHull.planeCount] at isFace ⊢
      omega
  sideSurface side member surface has := by
    rcases mem_brushSides_withBoxHull.mp member with
        isOwn | ⟨face, isFace, isHull⟩
    · rw [surfaces_withBoxHull]
      exact closed.sideSurface side isOwn surface has
    · subst isHull
      cases has
  modelHead model member := by
    rw [models_withBoxHull] at member
    exact (closed.modelHead model member).withBoxHull
  nodePlane node member := by
    rw [size_planes_withBoxHull]
    rcases mem_nodes_withBoxHull.mp member with
        isOwn | ⟨face, isFace, isHull⟩
    · exact
        Nat.lt_of_lt_of_le (closed.nodePlane node isOwn)
          (Nat.le_add_right _ _)
    · subst isHull
      rw [BoxHull.node_plane]
      simp only [BoxHull.faceCount, BoxHull.planeCount] at isFace ⊢
      omega
  nodeChild node member side := by
    rcases mem_nodes_withBoxHull.mp member with
        isOwn | ⟨face, isFace, isHull⟩
    · exact (closed.nodeChild node isOwn side).withBoxHull
    · subst isHull
      exact BoxHull.node_child_in_withBoxHull isFace emptyExists side
  areaPortals := by
    simpa using closed.areaPortals
  portalNumber := by
    simpa using closed.portalNumber
  portalArea := by
    simpa using closed.portalArea

namespace BoxHull

/--
Behind the level's own nodes there are those of a hull. Each of them leads to the
empty leaf on one side; on the other the first ones lead to the next of them and the
last one to the leaf behind the level's own leaves.
-/
structure Chain
    (full own : Records S)
    (emptyLeaf : Nat) : Prop where
  ownNodes :
    ∀ id < own.nodes.size, full.nodes[id]? = own.nodes[id]?
  ownLeaves :
    ∀ id < own.leaves.size, full.leaves[id]? = own.leaves[id]?
  nodeCount :
    full.nodes.size = own.nodes.size + faceCount
  leafCount :
    full.leaves.size = own.leaves.size + 1
  link :
    ∀ face < faceCount,
      ∃ node outer,
        full.nodes[own.nodes.size + face]? = some node ∧
          node.child outer = .leaf emptyLeaf ∧
          node.child outer.opposite =
            if face + 1 = faceCount then
              .leaf own.leaves.size
            else
              .node (own.nodes.size + (face + 1))

/-- The records of a hull form such a chain. -/
theorem chain_withBoxHull :
    Chain (own.withBoxHull emptyLeaf bounds) own emptyLeaf where
  ownNodes id isOwn := by
    exact Array.getElem?_append_left isOwn
  ownLeaves id isOwn := by
    exact Array.getElem?_push_lt isOwn |>.trans
      (Array.getElem?_eq_getElem isOwn).symm
  nodeCount := Records.size_nodes_withBoxHull
  leafCount := Records.size_leaves_withBoxHull
  link face isFace := by
    refine
      ⟨node own emptyLeaf face, outside face, ?_, node_child_outside face,
        node_child_inside face⟩
    simp [Records.withBoxHull, isFace]

end BoxHull

/-- The bounds of the hull that a query finds behind the records of its level. -/
def Head.hullBounds : Head S → Box S
  | .tree _ => BoxHull.unplaced
  | .box bounds => bounds

namespace Level

variable {level : Level S}

/-- The records of any tree of a level are its own ones and those of a hull. -/
theorem records_tree
    (level : Level S)
    (head : Head S) :
    (level.tree head).records =
      level.own.withBoxHull level.emptyLeaf head.hullBounds := by
  cases head with
  | tree root =>
      exact level.full_eq
  | box bounds =>
      simp only [Level.tree, level.full_eq, Records.withBoxHull,
        Head.hullBounds]

/-- With a map the head of a node is the root of a tree. -/
theorem rooted_of_mapped
    {id : Nat}
    (mapped : level.isEmpty = false)
    (inRange : id < level.full.nodes.size) :
    (level.tree (.tree (.node id))).root.In
      (level.tree (.tree (.node id))).records := by
  simp only [tree, mapped, Bool.false_eq_true, ↓reduceIte]
  exact inRange

end Level

end

end LevelCollision

import LevelCollision.Level.Validation

namespace LevelCollision

/-!
# Closed records

Records are closed when every number by which one of them names another is the
number of a record. The check of a level's records finds no violation exactly in
this case, except that it does not look at the surfaces of brush sides, which are
checked when a side is read.
-/

section

variable {S : Type}

/-- A child names one of these records. -/
def Child.In
    (child : Child)
    (records : Records S) : Prop :=
  match child with
  | .node id => id < records.nodes.size
  | .leaf id => id < records.leaves.size

/-- Every record names only records that exist. -/
structure Records.Closed
    (records : Records S)
    (clusterCount : Nat) : Prop where
  leafBrushes :
    ∀ leaf ∈ records.leaves,
      leaf.brushes.stop ≤ records.leafBrushes.size
  leafCluster :
    ∀ leaf ∈ records.leaves,
      ∀ cluster ∈ leaf.cluster, cluster < clusterCount
  leafArea :
    ∀ leaf ∈ records.leaves,
      leaf.area < records.areas.size
  brush :
    ∀ brush ∈ records.leafBrushes,
      brush < records.brushes.size
  brushSides :
    ∀ brush ∈ records.brushes,
      brush.sides.stop ≤ records.brushSides.size
  sidePlane :
    ∀ side ∈ records.brushSides,
      side.plane < records.planes.size
  sideSurface :
    ∀ side ∈ records.brushSides,
      ∀ surface ∈ side.surface, surface < records.surfaces.size
  modelHead :
    ∀ model ∈ records.models,
      model.head.In records
  nodePlane :
    ∀ node ∈ records.nodes,
      node.plane < records.planes.size
  nodeChild :
    ∀ node ∈ records.nodes,
      ∀ side, (node.child side).In records
  areaPortals :
    ∀ area ∈ records.areas,
      area.portals.stop ≤ records.areaPortals.size
  /-- Numbers of portals begin at one, and zero is unused. -/
  portalNumber :
    ∀ portal ∈ records.areaPortals,
      portal.number ≤ records.areaPortals.size
  portalArea :
    ∀ portal ∈ records.areaPortals,
      portal.otherArea < records.areas.size

namespace Records

theorem indexViolation?_eq_none_iff
    {reference : Reference}
    {index count : Nat} :
    indexViolation? reference index count = none ↔ index < count := by
  unfold indexViolation?
  split <;> simp_all

theorem spanViolation?_eq_none_iff
    {reference : Reference}
    {span : Span}
    {count : Nat} :
    spanViolation? reference span count = none ↔ span.stop ≤ count := by
  unfold spanViolation?
  split <;> simp_all

variable {records : Records S}

theorem childViolation?_eq_none_iff
    {child : Child} :
    records.childViolation? child = none ↔ child.In records := by
  cases child with
  | node id =>
      exact indexViolation?_eq_none_iff
  | leaf id =>
      exact indexViolation?_eq_none_iff

theorem leafViolation?_eq_none_iff
    {clusterCount : Nat}
    {leaf : Leaf} :
    records.leafViolation? clusterCount leaf = none ↔
      leaf.brushes.stop ≤ records.leafBrushes.size ∧
        (∀ cluster ∈ leaf.cluster, cluster < clusterCount) ∧
        leaf.area < records.areas.size := by
  simp only [leafViolation?, Option.or_eq_none_iff,
    spanViolation?_eq_none_iff, indexViolation?_eq_none_iff,
    Option.bind_eq_none_iff, Option.mem_def]

theorem nodeViolation?_eq_none_iff
    {node : Node} :
    records.nodeViolation? node = none ↔
      node.plane < records.planes.size ∧
        ∀ side, (node.child side).In records := by
  simp only [nodeViolation?, Option.or_eq_none_iff,
    indexViolation?_eq_none_iff, childViolation?_eq_none_iff]
  constructor
  · rintro ⟨plane, front, back⟩
    refine ⟨plane, fun side => ?_⟩
    cases side with
    | front =>
        exact front
    | back =>
        exact back
  · rintro ⟨plane, child⟩
    exact ⟨plane, child .front, child .back⟩

theorem portalNumberViolation?_eq_none_iff
    {number : Nat} :
    records.portalNumberViolation? number = none ↔
      number ≤ records.areaPortals.size := by
  unfold portalNumberViolation?
  split <;> simp_all

theorem areaPortalViolation?_eq_none_iff
    {portal : AreaPortal} :
    records.areaPortalViolation? portal = none ↔
      portal.number ≤ records.areaPortals.size ∧
        portal.otherArea < records.areas.size := by
  simp only [areaPortalViolation?, Option.or_eq_none_iff,
    portalNumberViolation?_eq_none_iff, indexViolation?_eq_none_iff]

/--
Records are closed when the check finds no violation and the surfaces of brush
sides, which it leaves out, exist.
-/
theorem closed_iff
    {clusterCount : Nat} :
    records.Closed clusterCount ↔
      records.violation? clusterCount = none ∧
        ∀ side ∈ records.brushSides,
          ∀ surface ∈ side.surface, surface < records.surfaces.size := by
  simp only [violation?, Option.or_eq_none_iff, Array.findSome?_eq_none_iff,
    leafViolation?_eq_none_iff, indexViolation?_eq_none_iff,
    spanViolation?_eq_none_iff, childViolation?_eq_none_iff,
    nodeViolation?_eq_none_iff, areaPortalViolation?_eq_none_iff]
  constructor
  · intro closed
    exact
      ⟨⟨fun leaf member =>
            ⟨closed.leafBrushes leaf member, closed.leafCluster leaf member,
              closed.leafArea leaf member⟩,
          closed.brush, closed.brushSides, closed.sidePlane, closed.modelHead,
          fun node member =>
            ⟨closed.nodePlane node member, closed.nodeChild node member⟩,
          closed.areaPortals,
          fun portal member =>
            ⟨closed.portalNumber portal member,
              closed.portalArea portal member⟩⟩,
        closed.sideSurface⟩
  · rintro ⟨⟨leaves, brush, brushSides, sidePlane, modelHead, nodes,
      areaPortals, portals⟩, sideSurface⟩
    exact
      { leafBrushes := fun leaf member => (leaves leaf member).1
        leafCluster := fun leaf member => (leaves leaf member).2.1
        leafArea := fun leaf member => (leaves leaf member).2.2
        brush := brush
        brushSides := brushSides
        sidePlane := sidePlane
        sideSurface := sideSurface
        modelHead := modelHead
        nodePlane := fun node member => (nodes node member).1
        nodeChild := fun node member => (nodes node member).2
        areaPortals := areaPortals
        portalNumber := fun portal member => (portals portal member).1
        portalArea := fun portal member => (portals portal member).2 }

end Records

end

end LevelCollision

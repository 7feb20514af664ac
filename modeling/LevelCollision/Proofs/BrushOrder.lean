import LevelCollision.Proofs.NearestBrush
import LevelCollision.Proofs.TraceConsistency

namespace LevelCollision

/-!
# The order of brushes

Two levels may list the brushes of each leaf in different orders and be the same in all
else. A motion considers the same brushes in both, leaf by leaf, though it skips others and
is stopped by others on its way. After each leaf it has come as far in one level as in the
other, so that the same leaves follow.
-/

open Scalar (LawfulOrder LawfulUnit LawfulLine)

/-- Leaves that list the same brushes, in whatever order, and are the same in all else. -/
structure Leaf.Relists
    (lists otherLists : Array Nat)
    (leaf other : Leaf) : Prop where
  contents :
    other.contents = leaf.contents
  cluster :
    other.cluster = leaf.cluster
  area :
    other.area = leaf.area
  brushes :
    ∃ run otherRun,
      lookupSpan lists leaf.brushes = .ok run ∧
        lookupSpan otherLists other.brushes = .ok otherRun ∧
          otherRun.Perm run

/-- The records with other leaves and other lists of brushes for them. -/
def Records.relist
    {S : Type}
    (records : Records S)
    (leaves : Array Leaf)
    (leafBrushes : Array Nat) : Records S :=
  { records with
    leaves := leaves
    leafBrushes := leafBrushes }

/--
Records that are the same but for the orders in which leaves list their brushes. The runs of
leaves may overlap, and they may lie elsewhere in the other list, so that each leaf can have
an order of its own.
-/
structure Records.Relists
    {S : Type}
    (records other : Records S) : Prop where
  rest :
    other = records.relist other.leaves other.leafBrushes
  entries :
    ∀ id ∈ other.leafBrushes, id ∈ records.leafBrushes
  leafCount :
    other.leaves.size = records.leaves.size
  leaf :
    ∀ (id : Nat) (leaf otherLeaf : Leaf),
      records.leaves[id]? = some leaf →
        other.leaves[id]? = some otherLeaf →
          leaf.Relists records.leafBrushes other.leafBrushes otherLeaf

/-- Levels that are the same but for the orders in which leaves list their brushes. -/
structure Level.Relists
    {S : Type} [Scalar S]
    (level other : Level S) : Prop where
  own :
    level.own.Relists other.own
  emptyLeaf :
    other.emptyLeaf = level.emptyLeaf

/-- A run is found as before when entries are added behind it. -/
theorem lookupSpan_push
    {α : Type}
    {entries : Array α}
    {span : Span}
    {run : List α}
    (found : lookupSpan entries span = .ok run)
    (entry : α) :
    lookupSpan (entries.push entry) span = .ok run := by
  obtain ⟨inRange, rfl⟩ := lookupSpan_eq_ok_iff.mp found
  rw [lookupSpan_eq_ok_iff, Array.size_push,
    Array.extract_push_of_le inRange]
  exact ⟨Nat.le_succ_of_le inRange, rfl⟩

/-- The entry behind all others is found as a run of its own. -/
theorem lookupSpan_push_last
    {α : Type}
    (entries : Array α)
    (entry : α) :
    lookupSpan (entries.push entry) ⟨entries.size, 1⟩ = .ok [entry] := by
  rw [lookupSpan_eq_ok_iff]
  simp [Span.stop]

namespace Records

variable {S : Type} {records other : Records S}

/-- Each leaf has its counterpart. -/
theorem Relists.exists_leaf
    (relists : records.Relists other)
    {id : Nat}
    {otherLeaf : Leaf}
    (found : other.leaves[id]? = some otherLeaf) :
    ∃ leaf,
      records.leaves[id]? = some leaf ∧
        leaf.Relists records.leafBrushes other.leafBrushes otherLeaf := by
  obtain ⟨inRange, _⟩ := Array.getElem?_eq_some_iff.mp found
  rw [relists.leafCount] at inRange
  have isLeaf := Array.getElem?_eq_getElem inRange
  exact ⟨_, isLeaf, relists.leaf id _ otherLeaf isLeaf found⟩

/-- The brushes may change places within the runs of the leaves. -/
theorem relists_of_perm
    {clusterCount : Nat}
    (closed : records.Closed clusterCount)
    {lists : Array Nat}
    (permutes : lists.toList.Perm records.leafBrushes.toList)
    (within :
      ∀ leaf ∈ records.leaves,
        (lists.extract leaf.brushes.first leaf.brushes.stop).toList.Perm
          (records.leafBrushes.extract leaf.brushes.first
            leaf.brushes.stop).toList) :
    records.Relists (records.relist records.leaves lists) where
  rest := rfl
  entries id member := by
    have listed : id ∈ lists.toList :=
      Array.mem_toList_iff.mpr member
    exact Array.mem_toList_iff.mp (permutes.mem_iff.mp listed)
  leafCount := rfl
  leaf id leaf otherLeaf found otherFound := by
    cases found.symm.trans otherFound
    have member := Array.mem_of_getElem? found
    have inRange := closed.leafBrushes leaf member
    have sameSize : lists.size = records.leafBrushes.size :=
      permutes.length_eq
    have otherInRange : leaf.brushes.stop ≤ lists.size := by
      rw [sameSize]
      exact inRange
    exact
      ⟨rfl, rfl, rfl, _, _, lookupSpan_eq_ok_iff.mpr ⟨inRange, rfl⟩,
        lookupSpan_eq_ok_iff.mpr ⟨otherInRange, rfl⟩, within leaf member⟩

/-- A child of records is one of the others. -/
theorem Relists.child_in
    (relists : records.Relists other)
    {child : Child}
    (inRecords : child.In records) :
    child.In other := by
  cases child with
  | node id =>
      rw [relists.rest]
      exact inRecords
  | leaf id =>
      change id < other.leaves.size
      rw [relists.leafCount]
      exact inRecords

/-- Records stay closed when the brushes of their leaves are listed in other orders. -/
theorem Closed.relists
    {clusterCount : Nat}
    (closed : records.Closed clusterCount)
    (relists : records.Relists other) :
    other.Closed clusterCount := by
  have counterpart
      (otherLeaf : Leaf)
      (member : otherLeaf ∈ other.leaves) :
      ∃ leaf ∈ records.leaves,
        leaf.Relists records.leafBrushes other.leafBrushes otherLeaf := by
    obtain ⟨id, inRange, found⟩ := Array.mem_iff_getElem.mp member
    obtain ⟨leaf, isLeaf, same⟩ :=
      relists.exists_leaf (Array.getElem?_eq_some_iff.mpr ⟨inRange, found⟩)
    exact ⟨leaf, Array.mem_of_getElem? isLeaf, same⟩
  have children
      {child : Child}
      (inRecords : child.In records) :
      child.In other :=
    relists.child_in inRecords
  have entries := relists.entries
  obtain ⟨leaves, lists, rfl⟩ :
      ∃ leaves lists, other = records.relist leaves lists :=
    ⟨_, _, relists.rest⟩
  exact
    { leafBrushes := fun otherLeaf member => by
        obtain ⟨_, _, same⟩ := counterpart otherLeaf member
        obtain ⟨_, _, _, found, _⟩ := same.brushes
        exact (lookupSpan_eq_ok_iff.mp found).1
      leafCluster := fun otherLeaf member => by
        obtain ⟨leaf, isLeaf, same⟩ := counterpart otherLeaf member
        rw [same.cluster]
        exact closed.leafCluster leaf isLeaf
      leafArea := fun otherLeaf member => by
        obtain ⟨leaf, isLeaf, same⟩ := counterpart otherLeaf member
        rw [same.area]
        exact closed.leafArea leaf isLeaf
      brush := fun brush member => closed.brush brush (entries brush member)
      brushSides := closed.brushSides
      sidePlane := closed.sidePlane
      sideSurface := closed.sideSurface
      modelHead := fun model member =>
        children (closed.modelHead model member)
      nodePlane := closed.nodePlane
      nodeChild := fun node member side =>
        children (closed.nodeChild node member side)
      areaPortals := closed.areaPortals
      portalNumber := closed.portalNumber
      portalArea := closed.portalArea }

/-- Behind both records there may be the hull of the same box. -/
theorem Relists.withBoxHull
    [Scalar S]
    (relists : records.Relists other)
    (emptyLeaf : Nat)
    (bounds : Box S) :
    (records.withBoxHull emptyLeaf bounds).Relists
      (other.withBoxHull emptyLeaf bounds) := by
  obtain ⟨rest, entries, leafCount, leaf⟩ := relists
  obtain ⟨leaves, lists, rfl⟩ :
      ∃ leaves lists, other = records.relist leaves lists :=
    ⟨_, _, rest⟩
  have leafCount : leaves.size = records.leaves.size := leafCount
  refine ⟨?_, ?_, ?_, ?_⟩
  · have sameNode :
        BoxHull.node (records.relist leaves lists) emptyLeaf =
          BoxHull.node records emptyLeaf := by
      funext face
      simp only [BoxHull.node, BoxHull.inside, BoxHull.leafId,
        Records.relist, leafCount]
    simp only [Records.withBoxHull, sameNode]
    rfl
  · intro id member
    rcases mem_leafBrushes_withBoxHull.mp member with isOwn | isHull
    · exact mem_leafBrushes_withBoxHull.mpr (.inl (entries id isOwn))
    · exact mem_leafBrushes_withBoxHull.mpr (.inr isHull)
  · simp only [size_leaves_withBoxHull]
    exact congrArg (· + 1) leafCount
  · intro id entry otherEntry found otherFound
    have found :
        (records.leaves.push (BoxHull.leaf records))[id]? = some entry :=
      found
    have otherFound :
        (leaves.push (BoxHull.leaf (records.relist leaves lists)))[id]? =
          some otherEntry :=
      otherFound
    rw [Array.getElem?_push] at found otherFound
    rw [leafCount] at otherFound
    by_cases isHull : id = records.leaves.size
    · rw [if_pos isHull, Option.some.injEq] at found otherFound
      have hullRun :=
        lookupSpan_push_last records.leafBrushes records.brushes.size
      have otherHullRun := lookupSpan_push_last lists records.brushes.size
      rw [← found, ← otherFound]
      exact ⟨rfl, rfl, rfl, _, _, hullRun, otherHullRun, .refl _⟩
    · rw [if_neg isHull] at found otherFound
      obtain ⟨contents, cluster, area, run, otherRun, isRun, isOtherRun,
        permutes⟩ := leaf id entry otherEntry found otherFound
      have isRun := lookupSpan_push isRun records.brushes.size
      have isOtherRun := lookupSpan_push isOtherRun records.brushes.size
      exact
        ⟨contents, cluster, area, run, otherRun, isRun, isOtherRun,
          permutes⟩

end Records

namespace Tree

variable {S : Type} {tree other : Tree S}

/-- Trees that are the same but for the orders in which leaves list their brushes. -/
structure Relists
    (tree other : Tree S) : Prop where
  records :
    tree.records.Relists other.records
  root :
    other.root = tree.root

namespace Relists

variable {mask : Contents} {leaf id : Nat}

theorem node_eq
    (relists : tree.Relists other)
    (id : Nat) :
    other.node id = tree.node id := by
  rw [node, node, relists.records.rest]
  rfl

theorem plane_eq
    (relists : tree.Relists other)
    (id : Nat) :
    other.plane id = tree.plane id := by
  rw [plane, plane, relists.records.rest]
  rfl

theorem faces_eq
    (relists : tree.Relists other)
    (brush : Brush) :
    other.faces brush = tree.faces brush := by
  have sameFace : other.face = tree.face := by
    funext side
    rw [face, face, relists.plane_eq]
  rw [faces, faces, sameFace, relists.records.rest]
  rfl

theorem depthBound_eq
    (relists : tree.Relists other) :
    other.depthBound = tree.depthBound := by
  rw [depthBound, depthBound, relists.records.rest]
  rfl

/-- The same brushes can stop a box. -/
theorem obstacle_iff
    (relists : tree.Relists other)
    {brush : Brush}
    {faces : List (Face S)} :
    other.Obstacle mask id brush faces ↔
      tree.Obstacle mask id brush faces := by
  have sameBrushes : other.records.brushes = tree.records.brushes := by
    rw [relists.records.rest]
    rfl
  constructor
  · rintro ⟨found, wanted, bounded, isFaces⟩
    rw [sameBrushes] at found
    rw [relists.faces_eq] at isFaces
    exact ⟨found, wanted, bounded, isFaces⟩
  · rintro ⟨found, wanted, bounded, isFaces⟩
    rw [← sameBrushes] at found
    rw [← relists.faces_eq] at isFaces
    exact ⟨found, wanted, bounded, isFaces⟩

/-- A leaf lists the brushes of its counterpart. -/
theorem listsBrush
    (relists : tree.Relists other)
    (lists : other.ListsBrush mask leaf id) :
    tree.ListsBrush mask leaf id := by
  obtain ⟨otherLeaf, run, found, wanted, isRun, listed⟩ := lists
  obtain ⟨entry, isLeaf, same⟩ :=
    relists.records.exists_leaf (lookup_eq_ok_iff.mp found)
  obtain ⟨ownRun, otherRun, isOwnRun, isOtherRun, permutes⟩ := same.brushes
  rw [isRun, Except.ok.injEq] at isOtherRun
  subst isOtherRun
  rw [same.contents] at wanted
  exact
    ⟨entry, ownRun, lookup_eq_ok_iff.mpr isLeaf, wanted, isOwnRun,
      permutes.mem_iff.mp listed⟩

variable [Scalar S] {motion : Motion S}

theorem startsIn_iff
    (relists : tree.Relists other) :
    other.StartsIn motion id ↔ tree.StartsIn motion id :=
  exists_congr fun _ =>
    exists_congr fun _ => and_congr_left fun _ => relists.obstacle_iff

/-- What stops a motion in the one tree stops it in the other one. -/
theorem stops
    (relists : tree.Relists other)
    {trace : Trace S}
    (stopped : other.Stops motion id trace) :
    tree.Stops motion id trace := by
  obtain ⟨leaf, brush, faces, lists, obstacle, alone, beforeEnd⟩ := stopped
  exact
    ⟨leaf, brush, faces, relists.listsBrush lists,
      relists.obstacle_iff.mp obstacle, alone, beforeEnd⟩

end Relists

section Sweeps

variable [Scalar S] {motion : Motion S} {policy : SkipPolicy}
variable {one otherOne : Probe S} {leaf clusterCount : Nat}

/--
Probes of one motion in two trees, each of which has come to the nearest of the same
brushes.
-/
structure AsFar
    (tree other : Tree S)
    (motion : Motion S)
    (one otherOne : Probe S) : Prop where
  nearest :
    tree.Nearest motion one
  otherNearest :
    other.Nearest motion otherOne
  considered :
    ∀ id, id ∈ one.considered ↔ id ∈ otherOne.considered

theorem asFar_begin
    [LawfulOrder S]
    (tree other : Tree S)
    (motion : Motion S) :
    tree.AsFar other motion (.begin motion) (.begin motion) :=
  ⟨nearest_begin tree motion, nearest_begin other motion, fun _ => .rfl⟩

theorem AsFar.fraction_eq
    [LawfulLine S]
    (asFar : tree.AsFar other motion one otherOne)
    (relists : tree.Relists other) :
    one.trace.fraction = otherOne.trace.fraction :=
  asFar.nearest.fraction_eq asFar.otherNearest
    (fun _ _ _ => relists.obstacle_iff) asFar.considered

variable (relists : tree.Relists other)
variable (closed : tree.records.Closed clusterCount)
variable (remembers : policy.Remembers)

include relists closed remembers

/-- The brushes of a leaf take a motion as far in one order as in another. -/
theorem AsFar.exists_considerBrushes
    [LawfulUnit S]
    (asFar : tree.AsFar other motion one otherOne)
    {run otherRun : List Nat}
    (permutes : otherRun.Perm run)
    (inRange : ∀ id ∈ run, id < tree.records.brushes.size)
    (lists : ∀ id ∈ run, tree.ListsBrush motion.mask leaf id)
    (otherLists : ∀ id ∈ otherRun, other.ListsBrush motion.mask leaf id) :
    ∃ after otherAfter,
      tree.considerBrushes policy motion.mask (Probe.clip motion) leaf run
            one =
          .ok after ∧
        other.considerBrushes policy motion.mask (Probe.clip motion) leaf
              otherRun otherOne =
            .ok otherAfter ∧
          (tree.AsFar other motion after otherAfter ∨
            after.trace.startSolid = true ∧
              otherAfter.trace.startSolid = true) := by
  have otherInRange
      (id : Nat)
      (member : id ∈ otherRun) :
      id < other.records.brushes.size := by
    rw [relists.records.rest]
    exact inRange id (permutes.mem_iff.mp member)
  obtain ⟨after, considers, outcome⟩ :=
    asFar.nearest.exists_considerBrushes closed remembers inRange lists
  obtain ⟨otherAfter, otherConsiders, otherOutcome⟩ :=
    asFar.otherNearest.exists_considerBrushes (closed.relists relists.records)
      remembers otherInRange otherLists
  refine ⟨after, otherAfter, considers, otherConsiders, ?_⟩
  -- The motion starts in a brush of the one run if it does in one of the other.
  rcases outcome with
      ⟨⟨id, member, startsIn⟩, solid⟩ | ⟨nearest, covers⟩
  · rcases otherOutcome with ⟨_, otherSolid⟩ | ⟨otherNearest, covers⟩
    · exact .inr ⟨solid, otherSolid⟩
    · have considered := (covers id).mpr (.inl (permutes.mem_iff.mpr member))
      exact
        absurd (relists.startsIn_iff.mpr startsIn)
          (otherNearest.outside.not_startsIn considered)
  · rcases otherOutcome with
        ⟨⟨id, member, startsIn⟩, _⟩ | ⟨otherNearest, otherCovers⟩
    · have considered := (covers id).mpr (.inl (permutes.mem_iff.mp member))
      exact
        absurd (relists.startsIn_iff.mp startsIn)
          (nearest.outside.not_startsIn considered)
    · refine .inl ⟨nearest, otherNearest, fun id => ?_⟩
      rw [covers, otherCovers, permutes.mem_iff, asFar.considered]

/-- So do visits of the leaf. -/
theorem AsFar.exists_visitLeaf
    [LawfulUnit S]
    (asFar : tree.AsFar other motion one otherOne)
    (inRange : leaf < tree.records.leaves.size) :
    ∃ after otherAfter,
      tree.visitLeaf policy motion.mask (Probe.clip motion) leaf one =
          .ok after ∧
        other.visitLeaf policy motion.mask (Probe.clip motion) leaf
              otherOne =
            .ok otherAfter ∧
          (tree.AsFar other motion after otherAfter ∨
            after.trace.startSolid = true ∧
              otherAfter.trace.startSolid = true) := by
  have otherInRange := inRange
  rw [← relists.records.leafCount] at otherInRange
  obtain ⟨contents, _, _, run, otherRun, isRun, isOtherRun, permutes⟩ :=
    relists.records.leaf leaf _ _ (Array.getElem?_eq_getElem inRange)
      (Array.getElem?_eq_getElem otherInRange)
  have found : tree.leaf leaf = .ok tree.records.leaves[leaf] :=
    lookup_of_lt inRange
  have otherFound : other.leaf leaf = .ok other.records.leaves[leaf] :=
    lookup_of_lt otherInRange
  cases wanted :
      tree.records.leaves[leaf].contents.intersects motion.mask with
  | false =>
      have otherUnwanted := wanted
      rw [← contents] at otherUnwanted
      exact
        ⟨one, otherOne, visitLeaf_of_unwanted found wanted one,
          visitLeaf_of_unwanted otherFound otherUnwanted otherOne,
          .inl asFar⟩
  | true =>
      have otherWanted := wanted
      rw [← contents] at otherWanted
      rw [visitLeaf, visitLeaf, found, otherFound, ok_bind, ok_bind,
        if_pos wanted, if_pos otherWanted, isRun, isOtherRun, ok_bind,
        ok_bind]
      exact
        asFar.exists_considerBrushes relists closed remembers permutes
          (fun id member =>
            closed.brush id (mem_of_mem_lookupSpan isRun member))
          (fun id member => ⟨_, run, found, wanted, isRun, member⟩)
          (fun id member =>
            ⟨_, otherRun, otherFound, otherWanted, isOtherRun, member⟩)

variable [LawfulLine S]

/-- Sweeps of such trees come as far until the motion starts in a brush. -/
theorem Relists.paired_sweeps :
    tree.Paired other motion
      (tree.visitLeaf policy motion.mask (Probe.clip motion))
      (other.visitLeaf policy motion.mask (Probe.clip motion))
      (fun _ => True) (tree.AsFar other motion)
      (fun probe => probe.trace.startSolid = true) where
  node := relists.node_eq
  plane := relists.plane_eq
  leafCount := relists.records.leafCount
  parts _ _ _ _ _ := ⟨trivial, trivial⟩
  fraction _ _ asFar := asFar.fraction_eq relists
  visits _ inRange _ _ _ _ asFar _ :=
    asFar.exists_visitLeaf relists closed remembers inRange
  stays _ inRange _ :=
    exists_visitLeaf_startSolid closed policy motion.mask inRange
  otherStays _ inRange _ :=
    exists_visitLeaf_startSolid (closed.relists relists.records) policy
      motion.mask (relists.records.leafCount.symm ▸ inRange)

/-- A motion that goes somewhere comes as far in one tree as in the other. -/
theorem Relists.exists_probe_asFar
    (ends : tree.EndsWithin tree.depthBound tree.root)
    (moves : motion.isStill = false)
    (leafLimit otherLimit : Nat) :
    ∃ swept otherSwept,
      tree.probe policy leafLimit motion = .ok (swept.arrive motion) ∧
        other.probe policy otherLimit motion =
            .ok (otherSwept.arrive motion) ∧
          (tree.AsFar other motion swept otherSwept ∨
            swept.trace.startSolid = true ∧
              otherSwept.trace.startSolid = true) := by
  obtain ⟨swept, otherSwept, sweeps, otherSweeps, outcome⟩ :=
    (relists.paired_sweeps closed remembers).sweep ends
      tree.depthBound_le_sweepBound trivial (asFar_begin tree other motion)
  have sameBound : other.sweepBound = tree.sweepBound := by
    rw [sweepBound, sweepBound, relists.depthBound_eq]
  rw [← relists.root, ← sameBound] at otherSweeps
  exact
    ⟨swept, otherSwept, probe_of_sweep moves sweeps,
      probe_of_sweep moves otherSweeps, outcome⟩

end Sweeps

section Ends

variable [Scalar S] {motion : Motion S} {one otherOne : Probe S}

/-- A trace is that of a brush of a leaf, which on its own stops the motion there. -/
def Hits
    (tree : Tree S)
    (motion : Motion S)
    (trace : Trace S) : Prop :=
  ∃ id, tree.Stops motion id { trace with endPoint := motion.stop }

/--
Two traces of a motion that does not start in a brush: they come equally far, and if they
are not the same, each is that of a brush that stops the motion there.
-/
structure Agree
    (tree : Tree S)
    (motion : Motion S)
    (trace otherTrace : Trace S) : Prop where
  startSolid :
    otherTrace.startSolid = false
  allSolid :
    otherTrace.allSolid = trace.allSolid
  fraction :
    otherTrace.fraction = trace.fraction
  endPoint :
    otherTrace.endPoint = trace.endPoint
  told :
    otherTrace = trace ∨
      tree.Hits motion trace ∧ tree.Hits motion otherTrace

/-- Where a motion is stopped it was hit, and otherwise it came to its end. -/
theorem Nearest.told_arrive
    [LawfulLine S]
    (nearest : tree.Nearest motion one) :
    one.trace.fraction < 1 ∧
        (one.arrive motion).trace =
          { one.trace with
            endPoint := motion.pointAt one.trace.fraction } ∧
        tree.Hits motion (one.arrive motion).trace ∨
      ¬one.trace.fraction < 1 ∧
        (one.arrive motion).trace = .unobstructed motion.stop := by
  unfold Probe.arrive
  rcases nearest.told with nothing | ⟨id, _, stops⟩
  · have notStopped : ¬one.trace.fraction < 1 := by
      rw [nothing]
      exact LawfulOrder.lt_irrefl 1
    rw [if_neg notStopped]
    exact .inr ⟨notStopped, nothing⟩
  · have ⟨_, _, _, _, _, _, beforeEnd⟩ := stops
    rw [if_pos beforeEnd]
    refine .inl ⟨beforeEnd, rfl, id, ?_⟩
    change tree.Stops motion id { one.trace with endPoint := motion.stop }
    rw [← nearest.plain.endPoint]
    exact stops

/-- Motions that came as far end in traces that agree. -/
theorem AsFar.agree
    [LawfulLine S]
    (asFar : tree.AsFar other motion one otherOne)
    (relists : tree.Relists other) :
    tree.Agree motion (one.arrive motion).trace
      (otherOne.arrive motion).trace := by
  have sameFraction := asFar.fraction_eq relists
  obtain ⟨nearest, otherNearest, _⟩ := asFar
  rcases nearest.told_arrive with
      ⟨beforeEnd, arrives, hits⟩ | ⟨notStopped, arrives⟩
  · rcases otherNearest.told_arrive with
        ⟨_, otherArrives, id, stops⟩ | ⟨otherNotStopped, _⟩
    · have otherHits :
          tree.Hits motion (otherOne.arrive motion).trace :=
        ⟨id, relists.stops stops⟩
      rw [arrives] at hits ⊢
      rw [otherArrives] at otherHits ⊢
      exact
        { startSolid := otherNearest.outside.notStartSolid
          allSolid :=
            otherNearest.outside.notAllSolid.trans
              nearest.outside.notAllSolid.symm
          fraction := sameFraction.symm
          endPoint := congrArg motion.pointAt sameFraction.symm
          told := .inr ⟨hits, otherHits⟩ }
    · rw [← sameFraction] at otherNotStopped
      exact absurd beforeEnd otherNotStopped
  · rcases otherNearest.told_arrive with
        ⟨otherBeforeEnd, _⟩ | ⟨_, otherArrives⟩
    · rw [← sameFraction] at otherBeforeEnd
      exact absurd otherBeforeEnd notStopped
    · rw [arrives, otherArrives]
      exact ⟨rfl, rfl, rfl, rfl, .inl rfl⟩

end Ends

end Tree

/-- The trees of two such levels are such trees. -/
theorem Level.Relists.tree
    {S : Type} [Scalar S]
    {level other : Level S}
    (relists : level.Relists other)
    (head : Head S) :
    (level.tree head).Relists (other.tree head) where
  records := by
    rw [records_tree, records_tree, relists.emptyLeaf]
    exact relists.own.withBoxHull level.emptyLeaf head.hullBounds
  root := by
    cases head with
    | tree root =>
        rw [Level.tree, Level.tree, isEmpty, isEmpty, relists.own.rest]
        rfl
    | box bounds =>
        rw [Level.tree, Level.tree, relists.own.rest]
        rfl

/-- Two walls in the place of the one beside the door, which one leaf lists in some order. -/
def Stored.Level.twoWalls
    (order : List UInt16) : Stored.Level :=
  { doorway with
    leaves :=
      [{ contents := 1, cluster := -1, area := 0, firstBrush := 0,
          brushCount := 2 },
        { contents := 0, cluster := 0, area := 1, firstBrush := 0,
          brushCount := 0 }]
    leafBrushes := order
    brushes :=
      [{ firstSide := 0, sideCount := 1, contents := 1 },
        { firstSide := 0, sideCount := 1, contents := 3 }] }

namespace World

/--
How far a motion comes does not depend on the order in which leaves list their brushes. If
it does not start in a brush, it does not start in one in any other order, and it comes to
the same fraction and ends in the same point. Only which of the brushes that stop it there
is told of may depend on the order.
-/
theorem trace_agrees
    {world otherWorld : World Float32}
    {head : Head Float32}
    {motion : Motion Float32}
    (origin :
      world.level = .empty ∨
        ∃ bytes, (Level.read bytes).outcome = .ok world.level)
    (relists : world.level.Relists otherWorld.level)
    (rooted :
      (world.level.tree head).root.In (world.level.tree head).records)
    (acyclic : (world.level.tree head).Acyclic)
    (moves : motion.isStill = false) :
    ∃ trace after otherTrace otherAfter,
      world.trace head motion = .ok (trace, after) ∧
        otherWorld.trace head motion = .ok (otherTrace, otherAfter) ∧
          (trace.startSolid = false →
            (world.level.tree head).Agree motion trace otherTrace) := by
  have closed := (Level.sound_of_origin origin).closed_tree head
  have ends := acyclic.endsWithin closed rooted
  obtain ⟨swept, otherSwept, probes, otherProbes, outcome⟩ :=
    (relists.tree head).exists_probe_asFar closed
      (SkipPolicy.remembers_bySlot 16) ends moves
      world.config.maxTouchedLeaves otherWorld.config.maxTouchedLeaves
  have probes :
      (world.level.tree head).probe .usual world.config.maxTouchedLeaves
          motion =
        .ok (swept.arrive motion) :=
    probes
  have otherProbes :
      (otherWorld.level.tree head).probe .usual
          otherWorld.config.maxTouchedLeaves motion =
        .ok (otherSwept.arrive motion) :=
    otherProbes
  rw [trace, trace, probes, otherProbes]
  refine ⟨_, _, _, _, rfl, rfl, fun notSolid => ?_⟩
  rcases outcome with asFar | ⟨solid, _⟩
  · exact asFar.agree (relists.tree head)
  · rw [Probe.startSolid_arrive, solid] at notSolid
    cases notSolid

/-- A point is stopped by whichever of the two walls comes first in the list. -/
theorem trace_agrees_twoWalls :
    ∃ (world otherWorld after otherAfter : World Float32)
      (trace otherTrace : Trace Float32),
      (Level.read (Stored.Level.twoWalls [0, 1]).packed).outcome =
          .ok world.level ∧
        (Level.read (Stored.Level.twoWalls [1, 0]).packed).outcome =
            .ok otherWorld.level ∧
          world.trace (.tree (.node 0)) intoWall = .ok (trace, after) ∧
            otherWorld.trace (.tree (.node 0)) intoWall =
                .ok (otherTrace, otherAfter) ∧
              trace.contents ≠ otherTrace.contents ∧
                (world.level.tree (.tree (.node 0))).Agree intoWall trace
                  otherTrace := by
  have run :
      ((Level.read (Stored.Level.twoWalls [0, 1]).packed).outcome.toOption.bind
        fun level => (ofLevel level).toOption.bind
          fun world =>
            (world.trace (.tree (.node 0)) intoWall).toOption.bind
              fun answer =>
                ((Level.read
                      (Stored.Level.twoWalls
                        [1, 0]).packed).outcome.toOption.bind
                  fun other => (ofLevel other).toOption.bind
                    fun otherWorld =>
                      (otherWorld.trace (.tree (.node 0))
                          intoWall).toOption.map
                        fun otherAnswer =>
                          (level.isEmpty, level.full.nodes.size,
                            (level.tree (.tree (.node 0))).goesForward &&
                              decide
                                (other.own =
                                    level.own.relist level.own.leaves
                                      #[1, 0] ∧
                                  other.emptyLeaf = level.emptyLeaf ∧
                                  level.own.leafBrushes = #[0, 1] ∧
                                  level.own.leaves.map (·.brushes) =
                                    #[⟨0, 2⟩, ⟨0, 0⟩]),
                            answer.1.startSolid,
                            decide
                              (answer.1.contents =
                                otherAnswer.1.contents)))) =
        some (false, 7, true, false, false) := by
    decide +kernel
  simp only [Option.bind_eq_some_iff, Option.map_eq_some_iff,
    toOption_eq_some_iff, Prod.mk.injEq, Bool.and_eq_true,
    decide_eq_true_eq, decide_eq_false_iff_not] at run
  obtain ⟨level, accepted, world, loaded, ⟨trace, after⟩, traces, other,
    otherAccepted, otherWorld, otherLoaded, ⟨otherTrace, otherAfter⟩,
    otherTraces, mapped, nodeCount,
    ⟨forward, sameRest, sameEmptyLeaf, lists, runs⟩, notSolid, differ⟩ := run
  cases level_of_ofLevel loaded
  cases level_of_ofLevel otherLoaded
  have sound := Level.sound_of_read accepted
  have relists : world.level.Relists otherWorld.level := by
    refine ⟨?_, sameEmptyLeaf⟩
    rw [sameRest]
    refine Records.relists_of_perm sound.closed ?_ ?_
    · rw [lists]
      exact .swap 0 1 []
    · intro leaf member
      have isRun :
          leaf.brushes ∈ world.level.own.leaves.map (·.brushes) :=
        Array.mem_map_of_mem member
      rw [runs] at isRun
      rw [lists]
      simp only [List.mem_toArray, List.mem_cons, List.not_mem_nil,
        or_false] at isRun
      rcases isRun with isRun | isRun
      · rw [isRun]
        exact .swap 0 1 []
      · rw [isRun]
        exact .nil
  have hasNode : 0 < world.level.full.nodes.size := by
    rw [nodeCount]
    decide
  have moves : intoWall.isStill = false := by
    decide +kernel
  obtain ⟨_, _, _, _, tracesAgain, otherTracesAgain, agrees⟩ :=
    trace_agrees (.inr ⟨_, accepted⟩) relists
      (Level.rooted_of_mapped mapped hasNode)
      (Tree.acyclic_of_goesForward forward) moves
  cases traces.symm.trans tracesAgain
  cases otherTraces.symm.trans otherTracesAgain
  exact
    ⟨world, otherWorld, after, otherAfter, trace, otherTrace, accepted,
      otherAccepted, traces, otherTraces, differ, agrees notSolid⟩

end World

end LevelCollision

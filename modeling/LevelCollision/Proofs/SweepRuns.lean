import LevelCollision.Proofs.AcyclicTrees
import LevelCollision.Sweep.Walk

namespace LevelCollision

/-!
# Runs of sweeps

In a tree that names only records that exist, every visit of a leaf comes to an end,
and so does every sweep of a tree that ends. Whatever each encounter with a brush
makes of a trace, if it can be chained, is what a whole sweep makes of it.
-/

/-- What becomes of traces in steps that can be chained. -/
structure Progress
    {S : Type}
    (becomes : Trace S → Trace S → Prop) : Prop where
  refl :
    ∀ trace, becomes trace trace
  trans :
    ∀ {first second third},
      becomes first second → becomes second third → becomes first third

/-- The probe of a sweep, ended where the motion was stopped if it was. -/
def Probe.arrive
    {S : Type} [Scalar S]
    (probe : Probe S)
    (motion : Motion S) : Probe S :=
  if probe.trace.fraction < 1 then
    { probe with
      trace :=
        { probe.trace with
          endPoint := motion.pointAt probe.trace.fraction } }
  else
    probe

theorem Probe.fraction_arrive
    {S : Type} [Scalar S]
    (probe : Probe S)
    (motion : Motion S) :
    (probe.arrive motion).trace.fraction = probe.trace.fraction := by
  unfold arrive
  split <;> rfl

theorem Probe.considered_arrive
    {S : Type} [Scalar S]
    (probe : Probe S)
    (motion : Motion S) :
    (probe.arrive motion).considered = probe.considered := by
  unfold arrive
  split <;> rfl

theorem Probe.startSolid_arrive
    {S : Type} [Scalar S]
    (probe : Probe S)
    (motion : Motion S) :
    (probe.arrive motion).trace.startSolid = probe.trace.startSolid := by
  unfold arrive
  split <;> rfl

/-- The probe after one more brush was considered. -/
def Probe.note
    {S : Type}
    (probe : Probe S)
    (brush : Nat) : Probe S :=
  { probe with considered := brush :: probe.considered }

namespace Tree

variable {S : Type} {tree : Tree S} {clusterCount : Nat}

/-- The faces of a brush of closed records can be looked up. -/
theorem exists_faces
    (closed : tree.records.Closed clusterCount)
    {brush : Brush}
    (member : brush ∈ tree.records.brushes) :
    ∃ faces, tree.faces brush = .ok faces := by
  have found :
      lookupSpan tree.records.brushSides brush.sides =
        .ok
          (tree.records.brushSides.extract brush.sides.first
            brush.sides.stop).toList :=
    lookupSpan_eq_ok_iff.mpr ⟨closed.brushSides brush member, rfl⟩
  rw [Tree.faces, found, ok_bind]
  refine exists_mapM fun side listed => ?_
  have sideExists := mem_of_mem_lookupSpan found listed
  rw [face, Tree.plane, lookup_of_lt (closed.sidePlane side sideExists)]
  exact ⟨_, rfl⟩

section Visits

/-- A brush that can stop a box, with the faces that bound it. -/
structure Obstacle
    (tree : Tree S)
    (mask : Contents)
    (id : Nat)
    (brush : Brush)
    (faces : List (Face S)) : Prop where
  found :
    tree.records.brushes[id]? = some brush
  wanted :
    brush.contents.intersects mask = true
  bounded :
    brush.sides.count ≠ 0
  faces :
    tree.faces brush = .ok faces

/-- A brush and its faces are found by its number. -/
theorem Obstacle.unique
    {mask : Contents}
    {id : Nat}
    {brush other : Brush}
    {faces otherFaces : List (Face S)}
    (obstacle : tree.Obstacle mask id brush faces)
    (another : tree.Obstacle mask id other otherFaces) :
    brush = other ∧ faces = otherFaces := by
  have sameBrush := obstacle.found.symm.trans another.found
  cases sameBrush
  have sameFaces := obstacle.faces.symm.trans another.faces
  cases sameFaces
  exact ⟨rfl, rfl⟩

/-- A leaf that can stop a box lists a brush. -/
def ListsBrush
    (tree : Tree S)
    (mask : Contents)
    (leafId brushId : Nat) : Prop :=
  ∃ leaf run,
    tree.leaf leafId = .ok leaf ∧
      leaf.contents.intersects mask = true ∧
        lookupSpan tree.records.leafBrushes leaf.brushes = .ok run ∧
          brushId ∈ run

/-- What becomes of a probe when a brush of a leaf is considered. -/
inductive Considers
    (tree : Tree S)
    (policy : SkipPolicy)
    (mask : Contents)
    (encounter : Encounter S)
    (leaf id : Nat) :
    Probe S → Probe S → Prop where
  | skipped
      {before : Probe S} :
      policy before.considered id = true →
      Considers tree policy mask encounter leaf id before (before.note id)
  | passed
      {before : Probe S} :
      policy before.considered id = false →
      (∀ brush faces, ¬tree.Obstacle mask id brush faces) →
      Considers tree policy mask encounter leaf id before (before.note id)
  | met
      {before : Probe S}
      {brush : Brush}
      {faces : List (Face S)} :
      policy before.considered id = false →
      tree.Obstacle mask id brush faces →
      Considers tree policy mask encounter leaf id before
        (encounter brush.contents faces leaf (before.note id))

section

variable {policy : SkipPolicy} {mask : Contents} {encounter : Encounter S}
variable {leaf id : Nat} {ids : List Nat} {holds : Probe S → Prop}

/--
The first brush of a list is considered, and then those behind it, or none if the box
turned out to be inside a brush all the way.
-/
theorem considerBrushes_cons
    (closed : tree.records.Closed clusterCount)
    (inRange : id < tree.records.brushes.size)
    (rest : List Nat)
    (probe : Probe S) :
    ∃ after,
      tree.Considers policy mask encounter leaf id probe after ∧
        (after.trace.allSolid = true ∧
            tree.considerBrushes policy mask encounter leaf (id :: rest)
                probe =
              .ok after ∨
          (after.trace.allSolid = true → probe.trace.allSolid = true) ∧
            tree.considerBrushes policy mask encounter leaf (id :: rest)
                probe =
              tree.considerBrushes policy mask encounter leaf rest after) := by
  have found := Array.getElem?_eq_getElem inRange
  obtain ⟨faces, foundFaces⟩ :=
    exists_faces closed (Array.getElem_mem inRange)
  rw [considerBrushes]
  cases skips : policy probe.considered id with
  | true =>
      exact ⟨probe.note id, .skipped skips, .inr ⟨fun solid => solid, rfl⟩⟩
  | false =>
      rw [if_neg Bool.false_ne_true, lookup_of_lt inRange, ok_bind]
      by_cases wanted :
          tree.records.brushes[id].contents.intersects mask = true
      · rw [if_pos wanted]
        by_cases faceless : tree.records.brushes[id].sides.count = 0
        · refine ⟨probe.note id, .passed skips ?_, ?_⟩
          · rintro brush _ ⟨foundBrush, _, bounded, _⟩
            rw [found, Option.some.injEq] at foundBrush
            rw [← foundBrush] at bounded
            exact bounded faceless
          · rw [meetBrush, if_pos faceless, ok_bind]
            split
            · exact .inl ⟨‹_›, rfl⟩
            · exact .inr ⟨fun solid => solid, rfl⟩
        · refine ⟨_, .met skips ⟨found, wanted, faceless, foundFaces⟩, ?_⟩
          rw [meetBrush, if_neg faceless, foundFaces, ok_bind, pure_bind]
          split
          · exact .inl ⟨‹_›, rfl⟩
          · exact .inr ⟨fun solid => absurd solid ‹_›, rfl⟩
      · rw [if_neg wanted]
        refine
          ⟨probe.note id, .passed skips ?_, .inr ⟨fun solid => solid, rfl⟩⟩
        rintro brush _ ⟨foundBrush, isWanted, _, _⟩
        rw [found, Option.some.injEq] at foundBrush
        rw [← foundBrush] at isWanted
        exact wanted isWanted

/-- Going through the brushes of a leaf keeps what considering each of them keeps. -/
theorem exists_considerBrushes
    (closed : tree.records.Closed clusterCount)
    (inRange : ∀ id ∈ ids, id < tree.records.brushes.size)
    (keeps :
      ∀ id ∈ ids, ∀ before after,
        tree.Considers policy mask encounter leaf id before after →
          holds before → holds after)
    {probe : Probe S}
    (first : holds probe) :
    ∃ after,
      tree.considerBrushes policy mask encounter leaf ids probe =
          .ok after ∧
        holds after := by
  induction ids generalizing probe with
  | nil =>
      exact ⟨probe, rfl, first⟩
  | cons id rest inductionHypothesis =>
      obtain ⟨middle, considers, goesOn⟩ :=
        considerBrushes_cons closed (inRange id List.mem_cons_self) rest probe
      have middleHolds :=
        keeps id List.mem_cons_self probe middle considers first
      rcases goesOn with ⟨_, ends⟩ | ⟨_, goesOn⟩
      · exact ⟨middle, ends, middleHolds⟩
      · rw [goesOn]
        exact
          inductionHypothesis
            (fun other member =>
              inRange other (List.mem_cons_of_mem id member))
            (fun other member =>
              keeps other (List.mem_cons_of_mem id member))
            middleHolds

/-- The first brush of a list that was gone through was considered. -/
theorem considers_of_considerBrushes_cons
    {rest : List Nat}
    {probe final : Probe S}
    (answered :
      tree.considerBrushes policy mask encounter leaf (id :: rest) probe =
        .ok final) :
    ∃ after,
      tree.Considers policy mask encounter leaf id probe after ∧
        (after = final ∨
          tree.considerBrushes policy mask encounter leaf rest after =
            .ok final) := by
  rw [considerBrushes] at answered
  cases skips : policy probe.considered id with
  | true =>
      rw [if_pos skips] at answered
      exact ⟨probe.note id, .skipped skips, .inr answered⟩
  | false =>
      rw [if_neg (Bool.eq_false_iff.mp skips)] at answered
      obtain ⟨brush, foundBrush, answered⟩ := bind_eq_ok_iff.mp answered
      have found := lookup_eq_ok_iff.mp foundBrush
      have isBrush
          {other : Brush}
          (foundOther : tree.records.brushes[id]? = some other) :
          other = brush :=
        Option.some.inj (foundOther.symm.trans found)
      split at answered
      · rename_i wanted
        obtain ⟨met, meets, answered⟩ := bind_eq_ok_iff.mp answered
        have goesOn :
            met = final ∨
              tree.considerBrushes policy mask encounter leaf rest met =
                .ok final := by
          split at answered
          · exact .inl (Except.ok.inj answered)
          · exact .inr answered
        refine ⟨met, ?_, goesOn⟩
        unfold meetBrush at meets
        split at meets
        · rename_i faceless
          cases meets
          refine .passed skips ?_
          rintro other _ ⟨foundOther, _, bounded, _⟩
          rw [isBrush foundOther] at bounded
          exact bounded faceless
        · rename_i bounded
          obtain ⟨faces, foundFaces, encountered⟩ := bind_eq_ok_iff.mp meets
          cases encountered
          exact .met skips ⟨found, wanted, bounded, foundFaces⟩
      · rename_i unwanted
        refine ⟨probe.note id, .passed skips ?_, .inr answered⟩
        rintro other _ ⟨foundOther, wanted, _, _⟩
        rw [isBrush foundOther] at wanted
        exact unwanted wanted

/-- Brushes that were gone through have kept what considering each of them keeps. -/
theorem holds_of_considerBrushes
    (keeps :
      ∀ id ∈ ids, ∀ before after,
        tree.Considers policy mask encounter leaf id before after →
          holds before → holds after)
    {probe final : Probe S}
    (first : holds probe)
    (answered :
      tree.considerBrushes policy mask encounter leaf ids probe =
        .ok final) :
    holds final := by
  induction ids generalizing probe with
  | nil =>
      cases answered
      exact first
  | cons id rest inductionHypothesis =>
      obtain ⟨middle, considers, goesOn⟩ :=
        considers_of_considerBrushes_cons answered
      have middleHolds :=
        keeps id List.mem_cons_self probe middle considers first
      rcases goesOn with isFinal | goesOn
      · rw [← isFinal]
        exact middleHolds
      · exact
          inductionHypothesis
            (fun other member =>
              keeps other (List.mem_cons_of_mem id member))
            middleHolds goesOn

/-- A leaf that was visited has kept what its brushes keep. -/
theorem holds_of_visitLeaf
    (keeps :
      ∀ id, tree.ListsBrush mask leaf id → ∀ before after,
        tree.Considers policy mask encounter leaf id before after →
          holds before → holds after)
    {probe final : Probe S}
    (first : holds probe)
    (visited : tree.visitLeaf policy mask encounter leaf probe = .ok final) :
    holds final := by
  obtain ⟨entry, foundLeaf, answered⟩ := bind_eq_ok_iff.mp visited
  split at answered
  · rename_i wanted
    obtain ⟨run, found, considered⟩ := bind_eq_ok_iff.mp answered
    exact
      holds_of_considerBrushes
        (fun id listed => keeps id ⟨_, _, foundLeaf, wanted, found, listed⟩)
        first considered
  · cases answered
    exact first

/-- A visit of a leaf that lists one brush considers that brush. -/
theorem exists_visitLeaf_of_only
    (closed : tree.records.Closed clusterCount)
    {entry : Leaf}
    (found : tree.leaf leaf = .ok entry)
    (wanted : entry.contents.intersects mask = true)
    (lists : lookupSpan tree.records.leafBrushes entry.brushes = .ok [id])
    (probe : Probe S) :
    ∃ after,
      tree.Considers policy mask encounter leaf id probe after ∧
        tree.visitLeaf policy mask encounter leaf probe = .ok after := by
  have inRange :=
    closed.brush id
      (mem_of_mem_lookupSpan lists (List.mem_singleton.mpr rfl))
  obtain ⟨after, considers, goesOn⟩ :=
    considerBrushes_cons closed inRange [] probe
  refine ⟨after, considers, ?_⟩
  rw [visitLeaf, found, ok_bind, if_pos wanted, lists, ok_bind]
  rcases goesOn with ⟨_, ends⟩ | ⟨_, goesOn⟩
  · exact ends
  · exact goesOn

/-- A visit of a leaf that cannot stop the box does nothing. -/
theorem visitLeaf_of_unwanted
    {entry : Leaf}
    (found : tree.leaf leaf = .ok entry)
    (unwanted : entry.contents.intersects mask = false)
    (probe : Probe S) :
    tree.visitLeaf policy mask encounter leaf probe = .ok probe := by
  rw [visitLeaf, found, ok_bind, unwanted]
  rfl

/-- A visit of a leaf comes to an end and keeps what its brushes keep. -/
theorem exists_visitLeaf_keeping
    (closed : tree.records.Closed clusterCount)
    (inRange : leaf < tree.records.leaves.size)
    (keeps :
      ∀ id, tree.ListsBrush mask leaf id → ∀ before after,
        tree.Considers policy mask encounter leaf id before after →
          holds before → holds after)
    {probe : Probe S}
    (first : holds probe) :
    ∃ after,
      tree.visitLeaf policy mask encounter leaf probe = .ok after ∧
        holds after := by
  have member := Array.getElem_mem inRange
  have foundLeaf : tree.leaf leaf = .ok tree.records.leaves[leaf] :=
    lookup_of_lt inRange
  rw [visitLeaf, foundLeaf, ok_bind]
  split
  · rename_i wanted
    have found :
        lookupSpan tree.records.leafBrushes
            tree.records.leaves[leaf].brushes =
          .ok
            (tree.records.leafBrushes.extract
              tree.records.leaves[leaf].brushes.first
              tree.records.leaves[leaf].brushes.stop).toList :=
      lookupSpan_eq_ok_iff.mpr ⟨closed.leafBrushes _ member, rfl⟩
    rw [found, ok_bind]
    refine exists_considerBrushes closed ?_ ?_ first
    · intro id listed
      exact closed.brush id (mem_of_mem_lookupSpan found listed)
    · intro id listed
      exact keeps id ⟨_, _, foundLeaf, wanted, found, listed⟩
  · exact ⟨probe, rfl, first⟩

end

/-- A visit of a leaf takes a trace as far as its encounters do. -/
theorem exists_visitLeaf
    {becomes : Trace S → Trace S → Prop}
    {encounter : Encounter S}
    (closed : tree.records.Closed clusterCount)
    (progress : Progress becomes)
    (meets :
      ∀ contents faces leaf probe,
        becomes probe.trace (encounter contents faces leaf probe).trace)
    (policy : SkipPolicy)
    (mask : Contents)
    {id : Nat}
    (inRange : id < tree.records.leaves.size)
    (probe : Probe S) :
    ∃ after,
      tree.visitLeaf policy mask encounter id probe = .ok after ∧
        becomes probe.trace after.trace := by
  refine
    exists_visitLeaf_keeping closed inRange ?_ (progress.refl probe.trace)
  intro brush _ before after considers first
  cases considers with
  | skipped _ =>
      exact first
  | passed _ _ =>
      exact first
  | met _ _ =>
      exact progress.trans first (meets _ _ id (before.note brush))

end Visits

/-- A walk of a motion may descend as far as one that meets no node twice. -/
theorem depthBound_le_sweepBound
    (tree : Tree S) :
    tree.depthBound ≤ tree.sweepBound := by
  unfold sweepBound
  omega

section Sweeps

variable [Scalar S]
variable {motion : Motion S} {visit : Nat → Probe S → Except Fault (Probe S)}
variable {levels id : Nat} {child : Child} {node : Node} {plane : Plane S}
variable {segment : Segment S} {probe : Probe S}

/-- A part that begins where the motion was stopped is not walked. -/
theorem sweep_stopped
    (stopped : probe.trace.fraction ≤ segment.fromFraction) :
    tree.sweep motion visit levels child segment probe = .ok probe := by
  unfold sweep
  exact if_pos stopped

theorem sweep_leaf
    (goesOn : ¬probe.trace.fraction ≤ segment.fromFraction) :
    tree.sweep motion visit levels (.leaf id) segment probe =
      visit id probe := by
  unfold sweep
  exact if_neg goesOn

theorem sweep_whole
    (goesOn : ¬probe.trace.fraction ≤ segment.fromFraction)
    (foundNode : tree.node id = .ok node)
    (foundPlane : tree.plane node.plane = .ok plane)
    {side : Side}
    (route : segment.route motion plane = .whole side) :
    tree.sweep motion visit (levels + 1) (.node id) segment probe =
      tree.sweep motion visit levels (node.child side) segment probe := by
  rw [sweep, if_neg goesOn, foundNode, ok_bind, foundPlane, ok_bind, route]

theorem sweep_parts
    (goesOn : ¬probe.trace.fraction ≤ segment.fromFraction)
    (foundNode : tree.node id = .ok node)
    (foundPlane : tree.plane node.plane = .ok plane)
    {split : Split S}
    (route : segment.route motion plane = .parts split) :
    tree.sweep motion visit (levels + 1) (.node id) segment probe =
      tree.sweep motion visit levels (node.child split.near)
          (segment.upTo split.nearStop) probe >>=
        tree.sweep motion visit levels (node.child split.near.opposite)
          (segment.onwards split.farStart) := by
  rw [sweep, if_neg goesOn, foundNode, ok_bind, foundPlane, ok_bind, route]

/-- A sweep comes to an end where all walks do, and keeps what visits of leaves keep. -/
theorem EndsWithin.exists_sweep_keeping
    (ends : tree.EndsWithin levels child)
    {holds : Probe S → Prop}
    (visits :
      ∀ id < tree.records.leaves.size,
        tree.Below child (.leaf id) →
          ∀ probe, holds probe →
            ∃ after, visit id probe = .ok after ∧ holds after)
    {more : Nat}
    (enough : levels ≤ more)
    (segment : Segment S)
    {probe : Probe S}
    (first : holds probe) :
    ∃ after,
      tree.sweep motion visit more child segment probe = .ok after ∧
        holds after := by
  induction ends generalizing more segment probe with
  | @leaf levels id inRange =>
      by_cases stopped : probe.trace.fraction ≤ segment.fromFraction
      · exact ⟨probe, sweep_stopped stopped, first⟩
      · rw [sweep_leaf stopped]
        exact visits id inRange (.refl _) probe first
  | @node levels id node plane foundNode foundPlane _ inductionHypothesis =>
      obtain ⟨fewer, rfl⟩ := Nat.exists_eq_add_of_le' enough
      have enoughBelow : levels ≤ fewer + levels :=
        Nat.le_add_left levels fewer
      have visitsBelow
          (side : Side) :=
        inductionHypothesis side
          (fun leaf inRange below =>
            visits leaf inRange (below.ofChild foundNode))
          enoughBelow
      by_cases stopped : probe.trace.fraction ≤ segment.fromFraction
      · exact ⟨probe, sweep_stopped stopped, first⟩
      · rw [← Nat.add_assoc]
        cases route : segment.route motion plane with
        | whole side =>
            rw [sweep_whole stopped foundNode foundPlane route]
            exact visitsBelow side segment first
        | parts split =>
            obtain ⟨middle, sweepsNear, middleHolds⟩ :=
              visitsBelow split.near (segment.upTo split.nearStop) first
            rw [sweep_parts stopped foundNode foundPlane route, sweepsNear,
              ok_bind]
            exact
              visitsBelow split.near.opposite
                (segment.onwards split.farStart) middleHolds

/-- A sweep that came to a leaf has kept what a visit of it keeps. -/
theorem holds_of_sweep_leaf
    {holds : Probe S → Prop}
    (visits :
      ∀ before after,
        holds before → visit id before = .ok after → holds after)
    {final : Probe S}
    (first : holds probe)
    (sweeps :
      tree.sweep motion visit levels (.leaf id) segment probe = .ok final) :
    holds final := by
  by_cases stopped : probe.trace.fraction ≤ segment.fromFraction
  · rw [sweep_stopped stopped] at sweeps
    cases sweeps
    exact first
  · rw [sweep_leaf stopped] at sweeps
    exact visits probe final first sweeps

/-- A sweep that came to an end has kept what visits of leaves keep. -/
theorem holds_of_sweep
    {holds : Probe S → Prop}
    (visits :
      ∀ id,
        tree.Below child (.leaf id) →
          ∀ before after,
            holds before → visit id before = .ok after → holds after)
    {final : Probe S}
    (first : holds probe)
    (sweeps :
      tree.sweep motion visit levels child segment probe = .ok final) :
    holds final := by
  induction levels generalizing child segment probe final with
  | zero =>
      cases child with
      | leaf id =>
          exact holds_of_sweep_leaf (visits id (.refl _)) first sweeps
      | node id =>
          unfold sweep at sweeps
          split at sweeps
          · cases sweeps
            exact first
          · cases sweeps
  | succ levels inductionHypothesis =>
      cases child with
      | leaf id =>
          exact holds_of_sweep_leaf (visits id (.refl _)) first sweeps
      | node id =>
          by_cases stopped : probe.trace.fraction ≤ segment.fromFraction
          · rw [sweep_stopped stopped] at sweeps
            cases sweeps
            exact first
          · -- The look-ups of a sweep that ended were answered, so its arms apply.
            have looked := sweeps
            rw [sweep, if_neg stopped] at looked
            obtain ⟨node, foundNode, looked⟩ := bind_eq_ok_iff.mp looked
            obtain ⟨plane, foundPlane, _⟩ := bind_eq_ok_iff.mp looked
            have visitsBelow
                (side : Side)
                (leaf : Nat)
                (below : tree.Below (node.child side) (.leaf leaf)) :=
              visits leaf (below.ofChild foundNode)
            cases route : segment.route motion plane with
            | whole side =>
                rw [sweep_whole stopped foundNode foundPlane route] at sweeps
                exact inductionHypothesis (visitsBelow side) first sweeps
            | parts split =>
                rw [sweep_parts stopped foundNode foundPlane route] at sweeps
                obtain ⟨middle, near, far⟩ := bind_eq_ok_iff.mp sweeps
                have middleHolds :=
                  inductionHypothesis (visitsBelow split.near) first near
                exact
                  inductionHypothesis (visitsBelow split.near.opposite)
                    middleHolds far

/-- A sweep takes a trace as far as visits of leaves do. -/
theorem EndsWithin.exists_sweep
    {becomes : Trace S → Trace S → Prop}
    (ends : tree.EndsWithin levels child)
    (progress : Progress becomes)
    (visits :
      ∀ id < tree.records.leaves.size,
        ∀ probe,
          ∃ after,
            visit id probe = .ok after ∧ becomes probe.trace after.trace)
    {more : Nat}
    (enough : levels ≤ more)
    (segment : Segment S)
    (probe : Probe S) :
    ∃ after,
      tree.sweep motion visit more child segment probe = .ok after ∧
        becomes probe.trace after.trace := by
  refine
    ends.exists_sweep_keeping ?_ enough segment (progress.refl probe.trace)
  intro id inRange _ before first
  obtain ⟨after, visited, further⟩ := visits id inRange before
  exact ⟨after, visited, progress.trans first further⟩

/-- What becomes of a motion that goes somewhere is told by its sweep. -/
theorem probe_of_sweep
    {policy : SkipPolicy}
    {leafLimit : Nat}
    {swept : Probe S}
    (moves : motion.isStill = false)
    (sweeps :
      tree.sweep motion
          (tree.visitLeaf policy motion.mask (Probe.clip motion))
          tree.sweepBound tree.root motion.segment (.begin motion) =
        .ok swept) :
    tree.probe policy leafLimit motion = .ok (swept.arrive motion) := by
  rw [Tree.probe, if_neg (Bool.eq_false_iff.mp moves), probeSweep, sweeps,
    ok_bind, Probe.arrive]
  split
  · rfl
  · rfl

/-- The sweep of a motion that goes somewhere and was probed came to an end. -/
theorem exists_sweep_of_probe
    {policy : SkipPolicy}
    {leafLimit : Nat}
    {final : Probe S}
    (moves : motion.isStill = false)
    (probes : tree.probe policy leafLimit motion = .ok final) :
    ∃ swept,
      tree.sweep motion
            (tree.visitLeaf policy motion.mask (Probe.clip motion))
            tree.sweepBound tree.root motion.segment (.begin motion) =
          .ok swept ∧
        swept.arrive motion = final := by
  have answered := probes
  rw [Tree.probe, if_neg (Bool.eq_false_iff.mp moves)] at answered
  obtain ⟨swept, sweeps, _⟩ := bind_eq_ok_iff.mp answered
  refine ⟨swept, sweeps, ?_⟩
  rw [probe_of_sweep moves sweeps] at probes
  exact Except.ok.inj probes

/-- Visits that fail at one leaf. -/
def failingAt
    (leaf : Nat)
    (fault : Fault)
    (visit : Nat → Probe S → Except Fault (Probe S)) :
    Nat → Probe S → Except Fault (Probe S) :=
  fun id probe => if id = leaf then .error fault else visit id probe

/-- A sweep whose visits fail at a leaf fails like them or does not come to it. -/
theorem EndsWithin.sweep_failingAt
    (ends : tree.EndsWithin levels child)
    {leaf : Nat}
    {fault : Fault}
    {more : Nat}
    (enough : levels ≤ more)
    {segment : Segment S}
    {probe after : Probe S}
    (sweeps :
      tree.sweep motion visit more child segment probe = .ok after) :
    tree.sweep motion (failingAt leaf fault visit) more child segment probe =
        .error fault ∨
      tree.sweep motion (failingAt leaf fault visit) more child segment
          probe =
        .ok after := by
  induction ends generalizing more segment probe after with
  | @leaf levels id inRange =>
      by_cases stopped : probe.trace.fraction ≤ segment.fromFraction
      · rw [sweep_stopped stopped] at sweeps ⊢
        exact .inr sweeps
      · rw [sweep_leaf stopped] at sweeps ⊢
        by_cases isLeaf : id = leaf
        · exact .inl (if_pos isLeaf)
        · exact .inr ((if_neg isLeaf).trans sweeps)
  | @node levels id node plane foundNode foundPlane _ inductionHypothesis =>
      obtain ⟨fewer, rfl⟩ := Nat.exists_eq_add_of_le' enough
      have enoughBelow : levels ≤ fewer + levels :=
        Nat.le_add_left levels fewer
      rw [← Nat.add_assoc] at sweeps ⊢
      by_cases stopped : probe.trace.fraction ≤ segment.fromFraction
      · rw [sweep_stopped stopped] at sweeps ⊢
        exact .inr sweeps
      · cases route : segment.route motion plane with
        | whole side =>
            rw [sweep_whole stopped foundNode foundPlane route] at sweeps ⊢
            exact inductionHypothesis side enoughBelow sweeps
        | parts split =>
            rw [sweep_parts stopped foundNode foundPlane route] at sweeps ⊢
            obtain ⟨middle, near, far⟩ := bind_eq_ok_iff.mp sweeps
            rcases inductionHypothesis split.near enoughBelow near with
                failed | passed
            · rw [failed]
              exact .inl rfl
            · rw [passed, ok_bind]
              exact inductionHypothesis split.near.opposite enoughBelow far

/--
A sweep that comes to a leaf, and so fails where visits of the leaf fail, ends in what a
visit of the leaf leads to and all visits keep.
-/
theorem EndsWithin.reached_of_sweep
    (ends : tree.EndsWithin levels child)
    {leaf : Nat}
    {fault : Fault}
    {holds reached : Probe S → Prop}
    (visits :
      ∀ id,
        tree.Below child (.leaf id) →
          ∀ before after,
            holds before →
              visit id before = .ok after →
                holds after ∧ (reached before ∨ id = leaf → reached after))
    {more : Nat}
    (enough : levels ≤ more)
    {segment : Segment S}
    {probe after : Probe S}
    (first : holds probe)
    (sweeps :
      tree.sweep motion visit more child segment probe = .ok after)
    (fails :
      tree.sweep motion (failingAt leaf fault visit) more child segment
          probe =
        .error fault) :
    reached after := by
  induction ends generalizing more segment probe after with
  | @leaf levels id inRange =>
      by_cases stopped : probe.trace.fraction ≤ segment.fromFraction
      · rw [sweep_stopped stopped] at fails
        cases fails
      · rw [sweep_leaf stopped] at sweeps fails
        by_cases isLeaf : id = leaf
        · exact (visits id (.refl _) probe after first sweeps).2 (.inr isLeaf)
        · rw [failingAt, if_neg isLeaf, sweeps] at fails
          cases fails
  | @node levels id node plane foundNode foundPlane ends
      inductionHypothesis =>
      obtain ⟨fewer, rfl⟩ := Nat.exists_eq_add_of_le' enough
      have enoughBelow : levels ≤ fewer + levels :=
        Nat.le_add_left levels fewer
      have visitsBelow
          (side : Side)
          (leaf : Nat)
          (below : tree.Below (node.child side) (.leaf leaf)) :=
        visits leaf (below.ofChild foundNode)
      rw [← Nat.add_assoc] at sweeps fails
      by_cases stopped : probe.trace.fraction ≤ segment.fromFraction
      · rw [sweep_stopped stopped] at fails
        cases fails
      · cases route : segment.route motion plane with
        | whole side =>
            rw [sweep_whole stopped foundNode foundPlane route] at sweeps fails
            exact
              inductionHypothesis side (visitsBelow side) enoughBelow first
                sweeps fails
        | parts split =>
            rw [sweep_parts stopped foundNode foundPlane route] at sweeps fails
            obtain ⟨middle, near, far⟩ := bind_eq_ok_iff.mp sweeps
            have middleHolds : holds middle := by
              refine holds_of_sweep ?_ first near
              intro id below before after held visited
              exact
                (visitsBelow split.near id below before after held visited).1
            rcases bind_eq_error_iff.mp fails with
                nearFails | ⟨other, nearPasses, farFails⟩
            · -- The far part keeps what the near part reached.
              have middleReached :=
                inductionHypothesis split.near (visitsBelow split.near)
                  enoughBelow first near nearFails
              have keepsBoth
                  (id : Nat)
                  (below :
                    tree.Below (node.child split.near.opposite) (.leaf id))
                  (before after : Probe S)
                  (held : holds before ∧ reached before)
                  (visited : visit id before = .ok after) :
                  holds after ∧ reached after := by
                obtain ⟨afterHolds, reaches⟩ :=
                  visitsBelow split.near.opposite id below before after
                    held.1 visited
                exact ⟨afterHolds, reaches (.inl held.2)⟩
              exact (holds_of_sweep keepsBoth ⟨middleHolds, middleReached⟩ far).2
            · rcases (ends split.near).sweep_failingAt enoughBelow near with
                  failed | passed
              · rw [failed] at nearPasses
                cases nearPasses
              · rw [passed, Except.ok.injEq] at nearPasses
                subst nearPasses
                exact
                  inductionHypothesis split.near.opposite
                    (visitsBelow split.near.opposite) enoughBelow middleHolds
                    far farFails

end Sweeps

end Tree

end LevelCollision

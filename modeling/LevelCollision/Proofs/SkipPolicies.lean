import LevelCollision.Proofs.Retraces

namespace LevelCollision

/-!
# Skipped brushes

A query may skip a brush that it considered before, or meet it again: the usual policy
forgets a brush when it considers another one of the same remainder. Two queries that skip
different brushes stay alike for as long as to meet a brush again would change nothing.

For the test of a position this is so until the box turns out to be inside a brush, where
the test ends: the box is still outside every brush that it was outside of.
-/

namespace SkipPolicy

/-- Every brush that was considered is skipped, and no other one. -/
theorem remembers_once :
    once.Remembers :=
  fun _ _ skips => List.contains_iff_mem.mp skips

theorem remembers_never :
    never.Remembers :=
  fun _ _ skips => by cases skips

end SkipPolicy

/-- No leaf lists a brush twice. -/
def Records.ListsOnce
    {S : Type}
    (records : Records S) : Prop :=
  ∀ leaf ∈ records.leaves,
    (records.leafBrushes.extract leaf.brushes.first
      leaf.brushes.stop).toList.Nodup

instance
    {S : Type}
    (records : Records S) :
    Decidable records.ListsOnce :=
  inferInstanceAs (Decidable (∀ leaf ∈ records.leaves, _))

/-- The leaf of a hull lists one brush. -/
theorem Records.ListsOnce.withBoxHull
    {S : Type} [Scalar S]
    {own : Records S}
    {clusterCount : Nat}
    (listsOnce : own.ListsOnce)
    (closed : own.Closed clusterCount)
    (emptyLeaf : Nat)
    (bounds : Box S) :
    (own.withBoxHull emptyLeaf bounds).ListsOnce := by
  intro leaf member
  change
    ((own.leafBrushes.push own.brushes.size).extract leaf.brushes.first
      leaf.brushes.stop).toList.Nodup
  rcases mem_leaves_withBoxHull.mp member with isOwn | rfl
  · rw [Array.extract_push_of_le (closed.leafBrushes leaf isOwn)]
    exact listsOnce leaf isOwn
  · change
      ((own.leafBrushes.push own.brushes.size).extract own.leafBrushes.size
        (own.leafBrushes.size + 1)).toList.Nodup
    rw [Array.extract_push]
    simp

section Probes

variable {S : Type}

/-- Two probes that considered the same brushes and came to the same trace. -/
structure Probe.Same
    (one other : Probe S) : Prop where
  trace :
    one.trace = other.trace
  considered :
    one.considered = other.considered

namespace Probe.Same

variable {one other third : Probe S}

theorem refl
    (probe : Probe S) :
    probe.Same probe :=
  ⟨rfl, rfl⟩

theorem symm
    (same : one.Same other) :
    other.Same one :=
  ⟨same.trace.symm, same.considered.symm⟩

theorem trans
    (same : one.Same other)
    (sameAgain : other.Same third) :
    one.Same third :=
  ⟨same.trace.trans sameAgain.trace,
    same.considered.trans sameAgain.considered⟩

theorem note
    (same : one.Same other)
    (id : Nat) :
    (one.note id).Same (other.note id) :=
  ⟨same.trace, congrArg (id :: ·) same.considered⟩

end Probe.Same

/-- What an encounter makes of a probe does not depend on how often boxes were clipped. -/
def Encounter.Respects
    (encounter : Encounter S) : Prop :=
  ∀ contents faces leaf one other,
    one.Same other →
      (encounter contents faces leaf one).Same
        (encounter contents faces leaf other)

theorem Probe.respects_clip
    [Scalar S]
    (motion : Motion S) :
    Encounter.Respects (Probe.clip motion) :=
  fun contents faces leaf _ _ same =>
    ⟨congrArg (·.clip motion contents faces leaf) same.trace,
      same.considered⟩

theorem Probe.respects_test
    [Scalar S]
    (motion : Motion S) :
    Encounter.Respects (Probe.test motion) :=
  fun contents faces leaf _ _ same =>
    ⟨congrArg (·.test motion contents faces leaf) same.trace,
      same.considered⟩

namespace Tree

variable {tree : Tree S} {policy otherPolicy : SkipPolicy}
variable {mask : Contents} {encounter : Encounter S} {leaf id : Nat}
variable {one other after otherAfter : Probe S} {clusterCount : Nat}

/-- To meet a brush again would change nothing. -/
def Settled
    (tree : Tree S)
    (mask : Contents)
    (encounter : Encounter S)
    (probe : Probe S)
    (id : Nat) : Prop :=
  ∀ brush faces leaf,
    tree.Obstacle mask id brush faces →
      (encounter brush.contents faces leaf (probe.note id)).Same
        (probe.note id)

theorem Settled.ofSame
    (settled : tree.Settled mask encounter one id)
    (respects : encounter.Respects)
    (same : one.Same other) :
    tree.Settled mask encounter other id := by
  intro brush faces leaf obstacle
  have sameNoted := same.note id
  exact
    (respects brush.contents faces leaf _ _ sameNoted.symm).trans
      ((settled brush faces leaf obstacle).trans sameNoted)

/-- A brush that is settled is only noted. -/
theorem Settled.same
    (settled : tree.Settled mask encounter one id)
    (considers : tree.Considers policy mask encounter leaf id one after) :
    after.Same (one.note id) := by
  cases considers with
  | skipped _ =>
      exact .refl _
  | passed _ _ =>
      exact .refl _
  | met _ obstacle =>
      exact settled _ _ leaf obstacle

/-- Two policies make the same of a brush, if to meet it again would change nothing. -/
theorem Considers.same
    (considers : tree.Considers policy mask encounter leaf id one after)
    (otherConsiders :
      tree.Considers otherPolicy mask encounter leaf id other otherAfter)
    (remembers : policy.Remembers)
    (otherRemembers : otherPolicy.Remembers)
    (respects : encounter.Respects)
    (same : one.Same other)
    (settled :
      id ∈ one.considered → tree.Settled mask encounter one id) :
    after.Same otherAfter := by
  by_cases again : id ∈ one.considered
  · have otherSettled := (settled again).ofSame respects same
    exact
      ((settled again).same considers).trans
        ((same.note id).trans (otherSettled.same otherConsiders).symm)
  · -- A brush that is new is not skipped.
    have notAgain : id ∉ other.considered := by
      rw [← same.considered]
      exact again
    cases considers with
    | skipped skips =>
        exact absurd (remembers _ _ skips) again
    | passed _ noObstacle =>
        cases otherConsiders with
        | skipped skips =>
            exact absurd (otherRemembers _ _ skips) notAgain
        | passed _ _ =>
            exact same.note id
        | met _ obstacle =>
            exact absurd obstacle (noObstacle _ _)
    | met _ obstacle =>
        cases otherConsiders with
        | skipped skips =>
            exact absurd (otherRemembers _ _ skips) notAgain
        | passed _ noObstacle =>
            exact absurd obstacle (noObstacle _ _)
        | met _ another =>
            obtain ⟨rfl, rfl⟩ := obstacle.unique another
            exact respects _ _ leaf _ _ (same.note id)

/-- Two policies end a list of brushes at the same brush, or go on to the same brush. -/
theorem considerBrushes_cons_same
    (closed : tree.records.Closed clusterCount)
    (inRange : id < tree.records.brushes.size)
    (remembers : policy.Remembers)
    (otherRemembers : otherPolicy.Remembers)
    (respects : encounter.Respects)
    (same : one.Same other)
    (notSolid : one.trace.allSolid = false)
    (settled :
      id ∈ one.considered → tree.Settled mask encounter one id)
    (leaf : Nat)
    (rest : List Nat) :
    ∃ after otherAfter,
      tree.Considers policy mask encounter leaf id one after ∧
        after.Same otherAfter ∧
        (after.trace.allSolid = true ∧
            tree.considerBrushes policy mask encounter leaf (id :: rest)
                one =
              .ok after ∧
            tree.considerBrushes otherPolicy mask encounter leaf
                (id :: rest) other =
              .ok otherAfter ∨
          after.trace.allSolid = false ∧
            tree.considerBrushes policy mask encounter leaf (id :: rest)
                one =
              tree.considerBrushes policy mask encounter leaf rest after ∧
            tree.considerBrushes otherPolicy mask encounter leaf
                (id :: rest) other =
              tree.considerBrushes otherPolicy mask encounter leaf rest
                otherAfter) := by
  obtain ⟨after, considers, goesOn⟩ :=
    @considerBrushes_cons S tree clusterCount policy mask encounter leaf id
      closed inRange rest one
  obtain ⟨otherAfter, otherConsiders, otherGoesOn⟩ :=
    @considerBrushes_cons S tree clusterCount otherPolicy mask encounter leaf
      id closed inRange rest other
  have afterSame :=
    considers.same otherConsiders remembers otherRemembers respects same
      settled
  refine ⟨after, otherAfter, considers, afterSame, ?_⟩
  rw [← afterSame.trace, ← same.trace, notSolid] at otherGoesOn
  rw [notSolid] at goesOn
  rcases goesOn with ⟨solid, ends⟩ | ⟨kept, goesOn⟩
  · rcases otherGoesOn with ⟨_, otherEnds⟩ | ⟨otherKept, _⟩
    · exact .inl ⟨solid, ends, otherEnds⟩
    · exact absurd (otherKept solid) Bool.false_ne_true
  · have notSolidAfter : after.trace.allSolid = false :=
      Bool.eq_false_iff.mpr fun solid =>
        absurd (kept solid) Bool.false_ne_true
    rcases otherGoesOn with ⟨solid, _⟩ | ⟨_, otherGoesOn⟩
    · rw [notSolidAfter] at solid
      exact absurd solid Bool.false_ne_true
    · exact .inr ⟨notSolidAfter, goesOn, otherGoesOn⟩

/-- A leaf cannot stop the box, or its brushes are considered one after the other. -/
theorem visitLeaf_cases
    (closed : tree.records.Closed clusterCount)
    (inRange : leaf < tree.records.leaves.size)
    (mask : Contents)
    (encounter : Encounter S) :
    (∀ policy probe,
        tree.visitLeaf policy mask encounter leaf probe = .ok probe) ∨
      ∃ run : List Nat,
        (tree.records.ListsOnce → run.Nodup) ∧
          (∀ id ∈ run, id < tree.records.brushes.size) ∧
          ∀ policy probe,
            tree.visitLeaf policy mask encounter leaf probe =
              tree.considerBrushes policy mask encounter leaf run probe := by
  have member := Array.getElem_mem inRange
  have foundLeaf : tree.leaf leaf = .ok tree.records.leaves[leaf] :=
    lookup_of_lt inRange
  cases wanted : tree.records.leaves[leaf].contents.intersects mask with
  | false =>
      exact .inl fun _ => visitLeaf_of_unwanted foundLeaf wanted
  | true =>
      have found :=
        lookupSpan_eq_ok_iff.mpr
          ⟨closed.leafBrushes tree.records.leaves[leaf] member, rfl⟩
      refine .inr ⟨_, fun listsOnce => listsOnce _ member, ?_, ?_⟩
      · intro id listed
        exact closed.brush id (mem_of_mem_lookupSpan found listed)
      · intro policy probe
        rw [visitLeaf, foundLeaf, ok_bind, if_pos wanted, found, ok_bind]

section Tests

variable [Scalar S] {motion : Motion S} {ids : List Nat}

/-- The box is outside each brush that was considered. -/
structure Clear
    (tree : Tree S)
    (motion : Motion S)
    (probe : Probe S) : Prop where
  notSolid :
    probe.trace.allSolid = false
  outside :
    ∀ id ∈ probe.considered,
      ∀ brush faces,
        tree.Obstacle motion.mask id brush faces →
          faces.any motion.startsInFront = true

theorem clear_begin
    (tree : Tree S)
    (motion : Motion S) :
    tree.Clear motion (.begin motion) where
  notSolid := rfl
  outside id member := by
    cases member

/-- A position that is tested again is still outside the brush. -/
theorem Clear.settled
    (clear : tree.Clear motion one)
    (considered : id ∈ one.considered) :
    tree.Settled motion.mask (Probe.test motion) one id := by
  intro brush faces leaf obstacle
  exact ⟨if_pos (clear.outside id considered brush faces obstacle), rfl⟩

/-- A position is inside a brush that is considered, or it is outside one more. -/
theorem Clear.considers
    (clear : tree.Clear motion one)
    (remembers : policy.Remembers)
    (considers :
      tree.Considers policy motion.mask (Probe.test motion) leaf id one
        after)
    (notSolid : after.trace.allSolid = false) :
    tree.Clear motion after := by
  refine ⟨notSolid, ?_⟩
  have outsideAfter
      (outside :
        ∀ brush faces,
          tree.Obstacle motion.mask id brush faces →
            faces.any motion.startsInFront = true) :
      ∀ other ∈ id :: one.considered,
        ∀ brush faces,
          tree.Obstacle motion.mask other brush faces →
            faces.any motion.startsInFront = true := by
    intro other member
    rcases List.mem_cons.mp member with rfl | wasConsidered
    · exact outside
    · exact clear.outside other wasConsidered
  rcases considers.passes_or_meets remembers with
      ⟨rfl, nothingNew⟩ | ⟨brush, faces, rfl, obstacle⟩
  · exact
      outsideAfter fun brush faces obstacle =>
        clear.outside id (nothingNew brush faces obstacle) brush faces obstacle
  · refine outsideAfter fun other otherFaces another => ?_
    obtain ⟨_, rfl⟩ := obstacle.unique another
    by_contra inside
    have tested :
        one.trace.test motion brush.contents faces leaf =
          { one.trace with
            startSolid := true
            allSolid := true
            fraction := 0
            contents := brush.contents
            leaf := some leaf } :=
      if_neg inside
    change
      (one.trace.test motion brush.contents faces leaf).allSolid = false
      at notSolid
    rw [tested] at notSolid
    cases notSolid

section

variable (closed : tree.records.Closed clusterCount)
variable (remembers : policy.Remembers)
variable (otherRemembers : otherPolicy.Remembers)

include closed remembers otherRemembers

/-- A position is tested against a list of brushes alike, whatever is skipped. -/
theorem Clear.considerBrushes_same
    (clear : tree.Clear motion one)
    (same : one.Same other)
    (inRange : ∀ id ∈ ids, id < tree.records.brushes.size)
    (leaf : Nat) :
    ∃ after otherAfter,
      tree.considerBrushes policy motion.mask (Probe.test motion) leaf ids
            one =
          .ok after ∧
        tree.considerBrushes otherPolicy motion.mask (Probe.test motion)
              leaf ids other =
            .ok otherAfter ∧
          after.Same otherAfter ∧
            (after.trace.allSolid = false → tree.Clear motion after) := by
  induction ids generalizing one other with
  | nil =>
      exact ⟨one, other, rfl, rfl, same, fun _ => clear⟩
  | cons id rest inductionHypothesis =>
      obtain ⟨after, otherAfter, considers, afterSame, outcome⟩ :=
        considerBrushes_cons_same closed (inRange id List.mem_cons_self)
          remembers otherRemembers (Probe.respects_test motion) same
          clear.notSolid clear.settled leaf rest
      rcases outcome with
          ⟨solid, ends, otherEnds⟩ | ⟨notSolid, goesOn, otherGoesOn⟩
      · refine ⟨after, otherAfter, ends, otherEnds, afterSame, ?_⟩
        intro notSolid
        rw [solid] at notSolid
        cases notSolid
      · rw [goesOn, otherGoesOn]
        exact
          inductionHypothesis (clear.considers remembers considers notSolid)
            afterSame
            (fun other member =>
              inRange other (List.mem_cons_of_mem id member))

/-- So it is against the brushes of a leaf. -/
theorem Clear.visitLeaf_same
    (clear : tree.Clear motion one)
    (same : one.Same other)
    (inRange : leaf < tree.records.leaves.size) :
    ∃ after otherAfter,
      tree.visitLeaf policy motion.mask (Probe.test motion) leaf one =
          .ok after ∧
        tree.visitLeaf otherPolicy motion.mask (Probe.test motion) leaf
              other =
            .ok otherAfter ∧
          after.Same otherAfter ∧
            (after.trace.allSolid = false → tree.Clear motion after) := by
  rcases visitLeaf_cases closed inRange motion.mask (Probe.test motion) with
      unwanted | ⟨run, _, runInRange, visits⟩
  · exact ⟨one, other, unwanted _ _, unwanted _ _, same, fun _ => clear⟩
  · rw [visits, visits]
    exact
      clear.considerBrushes_same closed remembers otherRemembers same
        runInRange leaf

/-- And against the brushes of a list of leaves. -/
theorem Clear.testLeaves_same
    (clear : tree.Clear motion one)
    (same : one.Same other)
    (inRange : ∀ id ∈ ids, id < tree.records.leaves.size) :
    ∃ after otherAfter,
      tree.testLeaves policy motion ids one = .ok after ∧
        tree.testLeaves otherPolicy motion ids other = .ok otherAfter ∧
          after.Same otherAfter := by
  induction ids generalizing one other with
  | nil =>
      exact ⟨one, other, rfl, rfl, same⟩
  | cons id rest inductionHypothesis =>
      obtain ⟨after, otherAfter, visits, otherVisits, afterSame, stays⟩ :=
        clear.visitLeaf_same closed remembers otherRemembers same
          (inRange id List.mem_cons_self)
      rw [testLeaves, testLeaves, visits, otherVisits, ok_bind, ok_bind,
        ← afterSame.trace]
      split
      · exact ⟨after, otherAfter, rfl, rfl, afterSame⟩
      · rename_i notSolid
        exact
          inductionHypothesis (stays (Bool.eq_false_iff.mpr notSolid))
            afterSame
            (fun other member =>
              inRange other (List.mem_cons_of_mem id member))

/-- The position of a box is tested alike, whatever is skipped. -/
theorem exists_probe_same_of_still
    (ends : tree.EndsWithin tree.depthBound tree.root)
    (still : motion.isStill = true)
    (leafLimit : Nat) :
    ∃ one other,
      tree.probe policy leafLimit motion = .ok one ∧
        tree.probe otherPolicy leafLimit motion = .ok other ∧
          one.Same other := by
  obtain ⟨list, gathers, listed⟩ :=
    exists_boxLeaves ends
      (Box.grow
        { mins := motion.start + motion.box.mins
          maxs := motion.start + motion.box.maxs }
        1)
      leafLimit
  have inRange : ∀ id ∈ list.leaves.toList, id < tree.records.leaves.size :=
    fun id member =>
      ends.leaf_lt (listed id (Array.mem_toList_iff.mp member))
  obtain ⟨one, other, tests, otherTests, same⟩ :=
    (clear_begin tree motion).testLeaves_same closed remembers
      otherRemembers (.refl _) inRange
  exact
    ⟨_, _, probe_of_tests still gathers tests,
      probe_of_tests still gathers otherTests,
      congrArg (fun trace => { trace with endPoint := motion.start })
        same.trace,
      same.considered⟩

end

end Tests

end Tree

end Probes

end LevelCollision

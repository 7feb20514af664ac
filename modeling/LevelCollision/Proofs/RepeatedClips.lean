import LevelCollision.Proofs.SkipPolicies
import LevelCollision.Proofs.SweepPairs
import LevelCollision.Proofs.SweepSegments
import LevelCollision.Proofs.TouchedLeaves
import LevelCollision.Proofs.UnitScalars

namespace LevelCollision

/-!
# Clipping a motion to a brush again

A motion that does not start in a brush, and is clipped to it, has stopped at or before
its entry into the brush, or else at its start. What is walked afterwards begins where the
motion was not stopped yet, so that it was not stopped at its start. To clip the motion to
the brush again then changes nothing, and it does not matter whether the brush is skipped.

A motion that starts in a brush may be told from another one: the leaf in which it does is
noted again each time that the brush is met.
-/

open Scalar (LawfulOrder LawfulUnit)

namespace Segment

variable {S : Type} [Scalar S] [LawfulUnit S]

/-- Both ends of a segment are fractions of the motion. -/
structure InUnit
    (segment : Segment S) : Prop where
  start :
    Scalar.InUnit segment.fromFraction
  stop :
    Scalar.InUnit segment.toFraction

theorem inUnit_segment
    (motion : Motion S) :
    motion.segment.InUnit :=
  ⟨Scalar.inUnit_zero, Scalar.inUnit_one⟩

variable {segment : Segment S}

theorem InUnit.upTo
    (inUnit : segment.InUnit)
    {part : S}
    (partInUnit : Scalar.InUnit part) :
    (segment.upTo part).InUnit :=
  ⟨inUnit.start, LawfulUnit.between inUnit.start inUnit.stop partInUnit⟩

theorem InUnit.onwards
    (inUnit : segment.InUnit)
    {part : S}
    (partInUnit : Scalar.InUnit part) :
    (segment.onwards part).InUnit :=
  ⟨LawfulUnit.between inUnit.start inUnit.stop partInUnit, inUnit.stop⟩

end Segment

section Clips

variable {S : Type}

namespace Trace

variable [Scalar S] {trace : Trace S} {leaf : Nat}

/-- A motion that is inside a brush all the way starts in it. -/
theorem allSolid_clip
    {motion : Motion S}
    {contents : Contents}
    {faces : List (Face S)}
    (solid : (trace.clip motion contents faces leaf).allSolid = true) :
    trace.allSolid = true ∨
      (trace.clip motion contents faces leaf).startSolid = true := by
  rcases allSolid_clip_iff.mp solid with before | stays
  · exact .inl before
  · exact
      .inr
        ((startSolid_clip trace motion contents faces leaf).mpr
          (.inr stays.startsInside))

end Trace

namespace Tree

variable [Scalar S] {tree : Tree S} {policy otherPolicy : SkipPolicy}
variable {motion : Motion S} {leaf id : Nat} {ids : List Nat}
variable {one other after otherAfter : Probe S} {clusterCount : Nat}

/-- A brush that is considered is added to those that were. -/
theorem Considers.considered_clip
    {mask : Contents}
    (considers :
      tree.Considers policy mask (Probe.clip motion) leaf id one after) :
    after.considered = id :: one.considered := by
  cases considers <;> rfl

/-- A motion that starts in a brush is never told otherwise by a further one. -/
theorem Considers.startSolid_clip
    {mask : Contents}
    (considers :
      tree.Considers policy mask (Probe.clip motion) leaf id one after)
    (solid : one.trace.startSolid = true) :
    after.trace.startSolid = true := by
  cases considers with
  | skipped _ =>
      exact solid
  | passed _ _ =>
      exact solid
  | met _ _ =>
      exact (Trace.startSolid_clip _ motion _ _ leaf).mpr (.inl solid)

section Lost

variable (closed : tree.records.Closed clusterCount)

include closed

/-- Nor is it by the brushes of a list. -/
theorem exists_considerBrushes_startSolid
    (policy : SkipPolicy)
    (mask : Contents)
    (inRange : ∀ id ∈ ids, id < tree.records.brushes.size)
    (leaf : Nat)
    (solid : one.trace.startSolid = true) :
    ∃ after,
      tree.considerBrushes policy mask (Probe.clip motion) leaf ids one =
          .ok after ∧
        after.trace.startSolid = true :=
  exists_considerBrushes closed inRange
    (fun _ _ _ _ considers => considers.startSolid_clip) solid

/-- Nor is it by the brushes of a leaf. -/
theorem exists_visitLeaf_startSolid
    (policy : SkipPolicy)
    (mask : Contents)
    (inRange : leaf < tree.records.leaves.size)
    (solid : one.trace.startSolid = true) :
    ∃ after,
      tree.visitLeaf policy mask (Probe.clip motion) leaf one = .ok after ∧
        after.trace.startSolid = true :=
  exists_visitLeaf_keeping closed inRange
    (fun _ _ _ _ considers => considers.startSolid_clip) solid

end Lost

/-- A motion that did not start in any brush that was considered. -/
structure StartsOutside
    (tree : Tree S)
    (motion : Motion S)
    (probe : Probe S) : Prop where
  accounts :
    tree.Accounts motion probe
  notStartSolid :
    probe.trace.startSolid = false
  notAllSolid :
    probe.trace.allSolid = false

/-- A motion starts inside a brush that can stop it. -/
def StartsIn
    (tree : Tree S)
    (motion : Motion S)
    (id : Nat) : Prop :=
  ∃ brush faces,
    tree.Obstacle motion.mask id brush faces ∧ motion.StartsInside faces

theorem StartsOutside.not_startsIn
    (outside : tree.StartsOutside motion one)
    (considered : id ∈ one.considered) :
    ¬tree.StartsIn motion id := by
  rintro ⟨brush, faces, obstacle, inside⟩
  have solid :=
    outside.accounts.startSolid_iff.mpr
      ⟨id, considered, brush, faces, obstacle, inside⟩
  rw [outside.notStartSolid] at solid
  cases solid

/-- A motion was stopped at or before its entry into a brush, if that counts. -/
def StoppedBy
    (tree : Tree S)
    (motion : Motion S)
    (probe : Probe S)
    (id : Nat) : Prop :=
  ∀ brush faces crossing,
    tree.Obstacle motion.mask id brush faces →
      Crossing.ofFaces? motion faces = some crossing →
        crossing.Counts →
          probe.trace.fraction ≤ crossing.enter

section

variable [LawfulOrder S]

theorem StoppedBy.ofLe
    (stoppedBy : tree.StoppedBy motion one id)
    (notFarther : after.trace.fraction ≤ one.trace.fraction) :
    tree.StoppedBy motion after id :=
  fun brush faces crossing obstacle met counts =>
    LawfulOrder.le_trans notFarther
      (stoppedBy brush faces crossing obstacle met counts)

theorem startsOutside_begin
    (tree : Tree S)
    (motion : Motion S) :
    tree.StartsOutside motion (.begin motion) :=
  ⟨accounts_begin tree motion, rfl, rfl⟩

/-- A brush that is considered does not take a motion farther. -/
theorem Considers.fraction_clip_le
    {mask : Contents}
    (considers :
      tree.Considers policy mask (Probe.clip motion) leaf id one after)
    (measured : one.trace.Measured) :
    after.trace.fraction ≤ one.trace.fraction := by
  cases considers with
  | skipped _ =>
      exact LawfulOrder.le_self measured.isNumber
  | passed _ _ =>
      exact LawfulOrder.le_self measured.isNumber
  | met _ _ =>
      exact (measured.clip motion _ _ leaf).2

/-- Where a walk goes on the motion was not stopped at its start, but by the brushes. -/
theorem StartsOutside.stoppedBy
    (outside : tree.StartsOutside motion one)
    {start : S}
    (nonneg : 0 ≤ start)
    (goesOn : ¬one.trace.fraction ≤ start)
    (considered : id ∈ one.considered) :
    tree.StoppedBy motion one id := by
  intro brush faces crossing obstacle met counts
  have stopped :=
    outside.accounts.stopped id considered brush faces crossing obstacle met
      counts
  rw [Scalar.upper_zero] at stopped
  split at stopped
  · exact stopped
  · exact absurd (LawfulOrder.le_trans stopped nonneg) goesOn

/-- A motion starts in a brush that is considered, or outside of that one too. -/
theorem StartsOutside.considers
    (outside : tree.StartsOutside motion one)
    (remembers : policy.Remembers)
    (considers :
      tree.Considers policy motion.mask (Probe.clip motion) leaf id one
        after) :
    after.trace.startSolid = true ∨ tree.StartsOutside motion after := by
  cases notStartSolid : after.trace.startSolid with
  | true =>
      exact .inl rfl
  | false =>
      refine
        .inr
          ⟨outside.accounts.considers remembers considers, notStartSolid,
            Bool.eq_false_iff.mpr fun solid => ?_⟩
      have notSolid := outside.notAllSolid
      cases considers with
      | skipped _ =>
          exact absurd solid (Bool.eq_false_iff.mp notSolid)
      | passed _ _ =>
          exact absurd solid (Bool.eq_false_iff.mp notSolid)
      | met _ _ =>
          rcases Trace.allSolid_clip solid with solidBefore | startsInside
          · exact absurd solidBefore (Bool.eq_false_iff.mp notSolid)
          · exact absurd startsInside (Bool.eq_false_iff.mp notStartSolid)

end

variable [LawfulUnit S]

/-- A motion that was stopped by a brush is not stopped by it again. -/
theorem StartsOutside.settled
    (outside : tree.StartsOutside motion one)
    (considered : id ∈ one.considered)
    (stoppedBy : tree.StoppedBy motion one id) :
    tree.Settled motion.mask (Probe.clip motion) one id := by
  intro brush faces leaf obstacle
  refine ⟨?_, rfl⟩
  change one.trace.clip motion brush.contents faces leaf = one.trace
  have notInside : ¬motion.StartsInside faces := fun inside =>
    outside.not_startsIn considered ⟨brush, faces, obstacle, inside⟩
  cases met : Crossing.ofFaces? motion faces with
  | none =>
      exact Trace.clip_of_unmet met one.trace
  | some crossing =>
      rw [Trace.clip_of_outside notInside met, Trace.stopAt]
      split
      · refine if_neg fun stops => ?_
        obtain ⟨beforeExit, afterStart, stopsAgain⟩ := stops
        exact
          LawfulUnit.not_lt_of_le
            (stoppedBy brush faces crossing obstacle met
              ⟨afterStart, beforeExit⟩)
            stopsAgain
      · rfl

/--
Two probes of one motion: they came to the same trace, or the motion starts in a brush.
-/
inductive Alike
    (tree : Tree S)
    (motion : Motion S)
    (one other : Probe S) : Prop where
  | outside :
      one.Same other →
      tree.StartsOutside motion one →
      Alike tree motion one other
  | lost :
      one.trace.startSolid = true →
      other.trace.startSolid = true →
      Alike tree motion one other

section Sweeps

variable (closed : tree.records.Closed clusterCount)
variable (remembers : policy.Remembers)
variable (otherRemembers : otherPolicy.Remembers)

include closed remembers otherRemembers

/-- A motion is clipped to a list of brushes alike, whatever is skipped. -/
theorem StartsOutside.considerBrushes_alike
    (outside : tree.StartsOutside motion one)
    (same : one.Same other)
    (inRange : ∀ id ∈ ids, id < tree.records.brushes.size)
    (once : ids.Nodup)
    (stoppedBy :
      ∀ id ∈ ids, id ∈ one.considered → tree.StoppedBy motion one id)
    (leaf : Nat) :
    ∃ after otherAfter,
      tree.considerBrushes policy motion.mask (Probe.clip motion) leaf ids
            one =
          .ok after ∧
        tree.considerBrushes otherPolicy motion.mask (Probe.clip motion)
              leaf ids other =
            .ok otherAfter ∧
          tree.Alike motion after otherAfter := by
  induction ids generalizing one other with
  | nil =>
      exact ⟨one, other, rfl, rfl, .outside same outside⟩
  | cons id rest inductionHypothesis =>
      obtain ⟨isNew, restOnce⟩ := List.nodup_cons.mp once
      have restInRange :
          ∀ other ∈ rest, other < tree.records.brushes.size :=
        fun other member => inRange other (List.mem_cons_of_mem id member)
      obtain ⟨after, otherAfter, considers, afterSame, outcome⟩ :=
        considerBrushes_cons_same closed (inRange id List.mem_cons_self)
          remembers otherRemembers (Probe.respects_clip motion) same
          outside.notAllSolid
          (fun considered =>
            outside.settled considered
              (stoppedBy id List.mem_cons_self considered))
          leaf rest
      have alike : tree.Alike motion after otherAfter := by
        rcases outside.considers remembers considers with
            startsInside | outsideAfter
        · refine .lost startsInside ?_
          rw [← afterSame.trace]
          exact startsInside
        · exact .outside afterSame outsideAfter
      rcases outcome with
          ⟨_, ends, otherEnds⟩ | ⟨_, goesOn, otherGoesOn⟩
      · exact ⟨after, otherAfter, ends, otherEnds, alike⟩
      · rw [goesOn, otherGoesOn]
        cases alike with
        | lost solid otherSolid =>
            obtain ⟨final, considersRest, finalSolid⟩ :=
              exists_considerBrushes_startSolid closed policy motion.mask
                restInRange leaf solid
            obtain ⟨otherFinal, otherConsidersRest, otherFinalSolid⟩ :=
              exists_considerBrushes_startSolid closed otherPolicy
                motion.mask restInRange leaf otherSolid
            exact
              ⟨final, otherFinal, considersRest, otherConsidersRest,
                .lost finalSolid otherFinalSolid⟩
        | outside _ outsideAfter =>
            refine
              inductionHypothesis outsideAfter afterSame restInRange restOnce
                ?_
            intro brush member considered
            -- The brush was not considered just now, as the list has it once.
            rw [considers.considered_clip] at considered
            have wasConsidered :=
              (List.mem_cons.mp considered).resolve_left fun isFirst =>
                isNew (isFirst ▸ member)
            exact
              (stoppedBy brush (List.mem_cons_of_mem id member)
                wasConsidered).ofLe
                (considers.fraction_clip_le outside.accounts.measured)

/-- So it is to the brushes of a leaf that is visited before the motion was stopped. -/
theorem StartsOutside.visitLeaf_alike
    (listsOnce : tree.records.ListsOnce)
    (outside : tree.StartsOutside motion one)
    (same : one.Same other)
    {start : S}
    (nonneg : 0 ≤ start)
    (goesOn : ¬one.trace.fraction ≤ start)
    (inRange : leaf < tree.records.leaves.size) :
    ∃ after otherAfter,
      tree.visitLeaf policy motion.mask (Probe.clip motion) leaf one =
          .ok after ∧
        tree.visitLeaf otherPolicy motion.mask (Probe.clip motion) leaf
              other =
            .ok otherAfter ∧
          tree.Alike motion after otherAfter := by
  rcases visitLeaf_cases closed inRange motion.mask (Probe.clip motion) with
      unwanted | ⟨run, once, runInRange, visits⟩
  · exact
      ⟨one, other, unwanted _ _, unwanted _ _, .outside same outside⟩
  · rw [visits, visits]
    exact
      outside.considerBrushes_alike closed remembers otherRemembers same
        runInRange (once listsOnce)
        (fun _ _ considered =>
          outside.stoppedBy nonneg goesOn considered)
        leaf

/-- Sweeps that skip other brushes stay together until the motion starts in a brush. -/
theorem paired_sweeps
    (listsOnce : tree.records.ListsOnce) :
    tree.Paired tree motion
      (tree.visitLeaf policy motion.mask (Probe.clip motion))
      (tree.visitLeaf otherPolicy motion.mask (Probe.clip motion))
      Segment.InUnit
      (fun one other => one.Same other ∧ tree.StartsOutside motion one)
      (fun probe => probe.trace.startSolid = true) where
  node _ := rfl
  plane _ := rfl
  leafCount := rfl
  parts segment plane split inUnit route := by
    obtain ⟨nearInUnit, farInUnit⟩ := Segment.inUnit_of_route route
    exact ⟨inUnit.upTo nearInUnit, inUnit.onwards farInUnit⟩
  fraction _ _ alike := congrArg Trace.fraction alike.1.trace
  visits id inRange segment one other inUnit alike goesOn := by
    obtain ⟨same, outside⟩ := alike
    obtain ⟨after, otherAfter, visits, otherVisits, alikeAfter⟩ :=
      outside.visitLeaf_alike closed remembers otherRemembers listsOnce same
        inUnit.start.nonneg goesOn inRange
    refine ⟨after, otherAfter, visits, otherVisits, ?_⟩
    cases alikeAfter with
    | outside sameAfter outsideAfter =>
        exact .inl ⟨sameAfter, outsideAfter⟩
    | lost solid otherSolid =>
        exact .inr ⟨solid, otherSolid⟩
  stays _ inRange _ :=
    exists_visitLeaf_startSolid closed policy motion.mask inRange
  otherStays _ inRange _ :=
    exists_visitLeaf_startSolid closed otherPolicy motion.mask inRange

/-- A motion that goes somewhere becomes alike, whatever is skipped. -/
theorem exists_probe_alike_of_moves
    (listsOnce : tree.records.ListsOnce)
    (ends : tree.EndsWithin tree.depthBound tree.root)
    (moves : motion.isStill = false)
    (leafLimit : Nat) :
    ∃ one other,
      tree.probe policy leafLimit motion = .ok one ∧
        tree.probe otherPolicy leafLimit motion = .ok other ∧
          one.trace.startSolid = other.trace.startSolid ∧
            (one.trace.startSolid = false → one.trace = other.trace) := by
  obtain ⟨one, other, sweeps, otherSweeps, outcome⟩ :=
    (paired_sweeps closed remembers otherRemembers listsOnce).sweep ends
      tree.depthBound_le_sweepBound (Segment.inUnit_segment motion)
      ⟨.refl _, startsOutside_begin tree motion⟩
  refine
    ⟨_, _, probe_of_sweep moves sweeps, probe_of_sweep moves otherSweeps, ?_⟩
  rw [Probe.startSolid_arrive, Probe.startSolid_arrive]
  rcases outcome with ⟨same, _⟩ | ⟨solid, otherSolid⟩
  · refine ⟨congrArg Trace.startSolid same.trace, fun _ => ?_⟩
    unfold Probe.arrive
    rw [← same.trace]
    split
    · rfl
    · exact same.trace
  · rw [solid, otherSolid]
    exact ⟨rfl, fun notSolid => by cases notSolid⟩

end Sweeps

end Tree

end Clips

namespace Level

/--
The trace of a motion does not depend on which of the brushes that were considered before
are skipped, in a level in which no leaf lists a brush twice. This holds of every test of
a position and of every motion that does not start in a brush. The usual policy may be
one of the two, or the one that skips all of these brushes, or the one that skips none.
-/
theorem probe_trace_eq
    {level : Level Float32}
    (origin : level = .empty ∨ ∃ bytes, (read bytes).outcome = .ok level)
    (listsOnce : level.own.ListsOnce)
    {head : Head Float32}
    (rooted : (level.tree head).root.In (level.tree head).records)
    (acyclic : (level.tree head).Acyclic)
    (motion : Motion Float32)
    (leafLimit : Nat)
    {policy otherPolicy : SkipPolicy}
    (remembers : policy.Remembers)
    (otherRemembers : otherPolicy.Remembers) :
    ∃ one other,
      (level.tree head).probe policy leafLimit motion = .ok one ∧
        (level.tree head).probe otherPolicy leafLimit motion = .ok other ∧
          one.trace.startSolid = other.trace.startSolid ∧
            (motion.isStill = true ∨ one.trace.startSolid = false →
              one.trace = other.trace) := by
  have sound := sound_of_origin origin
  have closed := sound.closed_tree head
  have ends := acyclic.endsWithin closed rooted
  cases moves : motion.isStill with
  | true =>
      obtain ⟨one, other, probes, otherProbes, same⟩ :=
        Tree.exists_probe_same_of_still closed remembers otherRemembers ends
          moves leafLimit
      exact
        ⟨one, other, probes, otherProbes,
          congrArg Trace.startSolid same.trace, fun _ => same.trace⟩
  | false =>
      have listsOnceToo : (level.tree head).records.ListsOnce := by
        rw [records_tree]
        exact listsOnce.withBoxHull sound.closed level.emptyLeaf _
      obtain ⟨one, other, probes, otherProbes, sameStart, sameTrace⟩ :=
        Tree.exists_probe_alike_of_moves closed remembers otherRemembers
          listsOnceToo ends moves leafLimit
      refine
        ⟨one, other, probes, otherProbes, sameStart, fun premise => ?_⟩
      exact
        sameTrace (premise.resolve_left Bool.false_ne_true)

end Level

/-- The wall beside the door, across a floor, so that the leaves on both sides list it. -/
def Stored.Level.sharedWall : Stored.Level :=
  { doorway with
    leaves :=
      [{ contents := 1, cluster := -1, area := 0, firstBrush := 0,
          brushCount := 1 },
        { contents := 0, cluster := 0, area := 1, firstBrush := 0,
          brushCount := 0 },
        { contents := 1, cluster := -1, area := 0, firstBrush := 0,
          brushCount := 1 }]
    planes :=
      [{ normal := ⟨0x3f800000, 0, 0⟩, dist := 0, kind := .axial .x },
        { normal := ⟨0, 0x3f800000, 0⟩, dist := 0, kind := .axial .y }]
    nodes := [{ plane := 1, front := -3, back := -1 }] }

namespace Level

/-- A point that comes through the floor before it would come to the wall. -/
def throughFloor : Motion Float32 where
  start := ⟨1, 1, 0⟩
  stop := ⟨-1, -4, 0⟩
  box := BoxHull.unplaced
  mask := .solid

/-- The point is clipped to the wall a second time where it is not skipped, for nothing. -/
theorem probe_trace_throughFloor :
    ∃ (level : Level Float32) (one other : Probe Float32),
      (read Stored.Level.sharedWall.packed).outcome = .ok level ∧
        (level.tree (.tree (.node 0))).probe .usual 8 throughFloor =
            .ok one ∧
          (level.tree (.tree (.node 0))).probe .never 8 throughFloor =
              .ok other ∧
            one.clips = 1 ∧
              other.clips = 2 ∧
                one.trace.isObstructed = true ∧
                  one.trace = other.trace := by
  have run :
      ((read Stored.Level.sharedWall.packed).outcome.toOption.bind
        fun level =>
          ((level.tree (.tree (.node 0))).probe .usual 8
              throughFloor).toOption.bind
            fun one =>
              ((level.tree (.tree (.node 0))).probe .never 8
                  throughFloor).toOption.map
                fun other =>
                  (level.isEmpty, level.full.nodes.size,
                    (level.tree (.tree (.node 0))).goesForward &&
                      decide level.own.ListsOnce,
                    one.clips, other.clips,
                    one.trace.isObstructed && !one.trace.startSolid)) =
        some (false, 7, true, 1, 2, true) := by
    decide +kernel
  simp only [Option.bind_eq_some_iff, Option.map_eq_some_iff,
    toOption_eq_some_iff, Prod.mk.injEq, Bool.and_eq_true,
    decide_eq_true_eq, Bool.not_eq_true'] at run
  obtain ⟨level, accepted, one, probes, other, otherProbes, mapped,
    nodeCount, ⟨forward, listsOnce⟩, isOne, isTwo, obstructed, notSolid⟩ :=
    run
  have hasNode : 0 < level.full.nodes.size := by
    rw [nodeCount]
    decide
  obtain ⟨_, _, probesAgain, otherProbesAgain, _, sameTrace⟩ :=
    probe_trace_eq (.inr ⟨_, accepted⟩) listsOnce
      (rooted_of_mapped mapped hasNode)
      (Tree.acyclic_of_goesForward forward) throughFloor 8
      (SkipPolicy.remembers_bySlot 16) SkipPolicy.remembers_never
  cases probes.symm.trans probesAgain
  cases otherProbes.symm.trans otherProbesAgain
  exact
    ⟨level, one, other, accepted, probes, otherProbes, isOne, isTwo,
      obstructed, sameTrace (.inr notSolid)⟩

/-- A motion that starts in the wall notes the leaf again when it meets the wall again. -/
example :
    ((read Stored.Level.sharedWall.packed).outcome.toOption.bind
      fun level =>
        let motion := { throughFloor with start := ⟨-1, 1, 0⟩ }
        ((level.tree (.tree (.node 0))).probe .usual 8 motion).toOption.bind
          fun one =>
            ((level.tree (.tree (.node 0))).probe .never 8
                motion).toOption.map
              fun other => (one.trace.leaf, other.trace.leaf)) =
      some (some 2, some 0) := by
  decide +kernel

end Level

end LevelCollision

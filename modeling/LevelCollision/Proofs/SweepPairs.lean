import LevelCollision.Proofs.SweepRuns

namespace LevelCollision

/-!
# Pairs of sweeps

Two sweeps of one motion go through trees with the same nodes and planes alike for as long
as the motion has come equally far in both. Whatever visits of leaves keep of two probes
that have, the sweeps keep, unless both probes come to a state that no visit leaves.
-/

namespace Tree

variable {S : Type} [Scalar S] {tree other : Tree S} {motion : Motion S}
variable {visit otherVisit : Nat → Probe S → Except Fault (Probe S)}
variable {within : Segment S → Prop}
variable {together : Probe S → Probe S → Prop} {lost : Probe S → Prop}

/-- Two sweeps whose probes stay together until both are lost. -/
structure Paired
    (tree other : Tree S)
    (motion : Motion S)
    (visit otherVisit : Nat → Probe S → Except Fault (Probe S))
    (within : Segment S → Prop)
    (together : Probe S → Probe S → Prop)
    (lost : Probe S → Prop) : Prop where
  node :
    ∀ id, other.node id = tree.node id
  plane :
    ∀ id, other.plane id = tree.plane id
  leafCount :
    other.records.leaves.size = tree.records.leaves.size
  /-- The parts of a segment are what the segment is. -/
  parts :
    ∀ segment plane split,
      within segment →
        segment.route motion plane = .parts split →
          within (segment.upTo split.nearStop) ∧
            within (segment.onwards split.farStart)
  fraction :
    ∀ one otherOne,
      together one otherOne →
        one.trace.fraction = otherOne.trace.fraction
  /-- Visits that are made before the motion is stopped. -/
  visits :
    ∀ id < tree.records.leaves.size,
      ∀ segment one otherOne,
        within segment →
          together one otherOne →
            ¬one.trace.fraction ≤ segment.fromFraction →
              ∃ after otherAfter,
                visit id one = .ok after ∧
                  otherVisit id otherOne = .ok otherAfter ∧
                    (together after otherAfter ∨
                      lost after ∧ lost otherAfter)
  stays :
    ∀ id < tree.records.leaves.size,
      ∀ probe, lost probe →
        ∃ after, visit id probe = .ok after ∧ lost after
  otherStays :
    ∀ id < tree.records.leaves.size,
      ∀ probe, lost probe →
        ∃ after, otherVisit id probe = .ok after ∧ lost after

namespace Paired

variable {levels more : Nat} {child : Child} {one otherOne : Probe S}

/-- Walks end in one tree where they end in the other. -/
theorem endsWithin
    (paired :
      tree.Paired other motion visit otherVisit within together lost)
    (ends : tree.EndsWithin levels child) :
    other.EndsWithin levels child := by
  induction ends with
  | leaf inRange =>
      rw [← paired.leafCount] at inRange
      exact .leaf inRange
  | node foundNode foundPlane _ inductionHypothesis =>
      rw [← paired.node] at foundNode
      rw [← paired.plane] at foundPlane
      exact .node foundNode foundPlane inductionHypothesis

/-- Sweeps of what is below a child lose no probe that is lost already. -/
theorem sweep_lost
    (paired :
      tree.Paired other motion visit otherVisit within together lost)
    (ends : tree.EndsWithin levels child)
    (enough : levels ≤ more)
    (segment : Segment S)
    (isLost : lost one)
    (otherIsLost : lost otherOne) :
    ∃ after otherAfter,
      tree.sweep motion visit more child segment one = .ok after ∧
        other.sweep motion otherVisit more child segment otherOne =
            .ok otherAfter ∧
          lost after ∧ lost otherAfter := by
  have otherStays
      (id : Nat)
      (inRange : id < other.records.leaves.size)
      (_ : other.Below child (.leaf id)) :=
    paired.otherStays id (paired.leafCount ▸ inRange)
  obtain ⟨after, sweeps, lostAfter⟩ :=
    ends.exists_sweep_keeping
      (fun id inRange _ => paired.stays id inRange) enough segment isLost
  obtain ⟨otherAfter, otherSweeps, otherLostAfter⟩ :=
    (paired.endsWithin ends).exists_sweep_keeping otherStays enough segment
      otherIsLost
  exact
    ⟨after, otherAfter, sweeps, otherSweeps, lostAfter, otherLostAfter⟩

/-- Sweeps of what is below a child keep probes together, or lose both. -/
theorem sweep
    (paired :
      tree.Paired other motion visit otherVisit within together lost)
    (ends : tree.EndsWithin levels child)
    (enough : levels ≤ more)
    {segment : Segment S}
    (isWithin : within segment)
    (areTogether : together one otherOne) :
    ∃ after otherAfter,
      tree.sweep motion visit more child segment one = .ok after ∧
        other.sweep motion otherVisit more child segment otherOne =
            .ok otherAfter ∧
          (together after otherAfter ∨ lost after ∧ lost otherAfter) := by
  induction ends generalizing more segment one otherOne with
  | @leaf levels id inRange =>
      have sameFraction := paired.fraction one otherOne areTogether
      by_cases stopped : one.trace.fraction ≤ segment.fromFraction
      · have otherStopped := stopped
        rw [sameFraction] at otherStopped
        exact
          ⟨one, otherOne, sweep_stopped stopped, sweep_stopped otherStopped,
            .inl areTogether⟩
      · have otherGoesOn := stopped
        rw [sameFraction] at otherGoesOn
        rw [sweep_leaf stopped, sweep_leaf otherGoesOn]
        exact
          paired.visits id inRange segment one otherOne isWithin areTogether
            stopped
  | @node levels id node plane foundNode foundPlane ends
      inductionHypothesis =>
      obtain ⟨fewer, rfl⟩ := Nat.exists_eq_add_of_le' enough
      have enoughBelow : levels ≤ fewer + levels :=
        Nat.le_add_left levels fewer
      have sameFraction := paired.fraction one otherOne areTogether
      rw [← Nat.add_assoc]
      by_cases stopped : one.trace.fraction ≤ segment.fromFraction
      · have otherStopped := stopped
        rw [sameFraction] at otherStopped
        exact
          ⟨one, otherOne, sweep_stopped stopped, sweep_stopped otherStopped,
            .inl areTogether⟩
      · have otherGoesOn := stopped
        rw [sameFraction] at otherGoesOn
        have otherFoundNode := (paired.node id).trans foundNode
        have otherFoundPlane := (paired.plane _).trans foundPlane
        cases route : segment.route motion plane with
        | whole side =>
            rw [sweep_whole stopped foundNode foundPlane route,
              sweep_whole otherGoesOn otherFoundNode otherFoundPlane route]
            exact inductionHypothesis side enoughBelow isWithin areTogether
        | parts split =>
            obtain ⟨nearWithin, farWithin⟩ :=
              paired.parts segment plane split isWithin route
            obtain ⟨middle, otherMiddle, near, otherNear, outcome⟩ :=
              inductionHypothesis split.near enoughBelow nearWithin
                areTogether
            rw [sweep_parts stopped foundNode foundPlane route,
              sweep_parts otherGoesOn otherFoundNode otherFoundPlane route,
              near, otherNear, ok_bind, ok_bind]
            rcases outcome with areTogetherThen | ⟨isLost, otherIsLost⟩
            · exact
                inductionHypothesis split.near.opposite enoughBelow farWithin
                  areTogetherThen
            · obtain ⟨after, otherAfter, far, otherFar, bothLost⟩ :=
                paired.sweep_lost (ends split.near.opposite) enoughBelow
                  (segment.onwards split.farStart) isLost otherIsLost
              exact ⟨after, otherAfter, far, otherFar, .inr bothLost⟩

end Paired

end Tree

end LevelCollision

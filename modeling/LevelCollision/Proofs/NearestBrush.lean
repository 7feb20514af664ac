import LevelCollision.Proofs.RepeatedClips
import LevelCollision.Proofs.ScalarDifferences

namespace LevelCollision

/-!
# The nearest brush

A motion that starts outside of all brushes that it is clipped to is stopped by the nearest
of them. Its trace is the one that this brush would leave on its own, and no other brush
would have stopped the motion sooner. Several brushes may be equally near; which of them
the trace tells of depends on their order, but how far the motion comes does not.
-/

open Scalar (LawfulOrder LawfulUnit LawfulLine)

namespace Trace

variable {S : Type} [Scalar S]

/-- What becomes of a motion that meets nothing but a brush of a leaf. -/
def alone
    (motion : Motion S)
    (contents : Contents)
    (faces : List (Face S))
    (leaf : Nat) : Trace S :=
  (unobstructed motion.stop).clip motion contents faces leaf

/-- A trace that has its end still to be set and tells at most of a brush that was hit. -/
structure Plain
    (trace : Trace S)
    (motion : Motion S) : Prop where
  notAllSolid :
    trace.allSolid = false
  notStartSolid :
    trace.startSolid = false
  endPoint :
    trace.endPoint = motion.stop
  atMostOne :
    trace.fraction ≤ 1
  unsigned :
    Scalar.Unsigned trace.fraction

variable {trace : Trace S} {motion : Motion S} {contents : Contents}
variable {faces : List (Face S)} {leaf : Nat}

/-- A brush on its own lets a motion come to its end, or stops it at an entry that counts. -/
theorem fraction_alone_cases
    (outside : ¬motion.StartsInside faces)
    (contents : Contents)
    (leaf : Nat) :
    (alone motion contents faces leaf).fraction = 1 ∨
      ∃ crossing,
        Crossing.ofFaces? motion faces = some crossing ∧
          crossing.Counts ∧
            (alone motion contents faces leaf).fraction =
              Scalar.upper 0 crossing.enter := by
  unfold alone
  cases met : Crossing.ofFaces? motion faces with
  | none =>
      rw [clip_of_unmet met]
      exact .inl rfl
  | some crossing =>
      rw [clip_of_outside outside met, stopAt]
      split
      · split
        · rename_i stops
          exact .inr ⟨crossing, rfl, ⟨stops.2.1, stops.1⟩, rfl⟩
        · exact .inl rfl
      · exact .inl rfl

theorem plain_unobstructed
    [LawfulOrder S]
    (motion : Motion S) :
    (unobstructed motion.stop).Plain motion where
  notAllSolid := rfl
  notStartSolid := rfl
  endPoint := rfl
  atMostOne := LawfulOrder.le_self LawfulOrder.one_beq_one
  unsigned := Scalar.unsigned_one

/-- A brush on its own leaves a plain trace. -/
theorem plain_alone
    [LawfulOrder S]
    (outside : ¬motion.StartsInside faces)
    (contents : Contents)
    (leaf : Nat) :
    (alone motion contents faces leaf).Plain motion := by
  have plain := plain_unobstructed motion
  unfold alone
  cases met : Crossing.ofFaces? motion faces with
  | none =>
      rw [clip_of_unmet met]
      exact plain
  | some crossing =>
      rw [clip_of_outside outside met, stopAt]
      split
      · split
        · rename_i stops
          exact
            { plain with
              atMostOne :=
                Scalar.upper_le (LawfulOrder.le_of_lt LawfulOrder.zero_lt_one)
                  (LawfulOrder.le_of_lt stops.2.2)
              unsigned := Scalar.unsigned_upper crossing.enter }
        · exact plain
      · exact plain

/--
A plain trace is left as it is by a brush, or it becomes the trace of a motion that the
brush stops on its own.
-/
theorem Plain.clip_eq_or_eq_alone
    [LawfulUnit S]
    (plain : trace.Plain motion)
    (outside : ¬motion.StartsInside faces)
    (contents : Contents)
    (leaf : Nat) :
    trace.clip motion contents faces leaf = trace ∨
      trace.clip motion contents faces leaf =
          alone motion contents faces leaf ∧
        (alone motion contents faces leaf).fraction < 1 := by
  unfold alone
  cases met : Crossing.ofFaces? motion faces with
  | none =>
      exact .inl (clip_of_unmet met trace)
  | some crossing =>
      simp only [clip_of_outside outside met, stopAt]
      split
      · by_cases stops :
            crossing.enter < crossing.leave ∧ -1 < crossing.enter ∧
              crossing.enter < trace.fraction
        · have beforeEnd : crossing.enter < 1 :=
            Scalar.lt_of_lt_of_le LawfulOrder.one_beq_one stops.2.2
              plain.atMostOne
          refine .inr ?_
          rw [if_pos stops, if_pos ⟨stops.1, stops.2.1, beforeEnd⟩]
          refine ⟨?_, Scalar.upper_zero_lt_one beforeEnd⟩
          simp only [unobstructed, plain.notAllSolid, plain.notStartSolid,
            plain.endPoint]
        · exact .inl (if_neg stops)
      · exact .inl rfl

end Trace

namespace Tree

variable {S : Type} [Scalar S] {tree : Tree S} {motion : Motion S}
variable {one other after : Probe S} {leaf id : Nat} {ids : List Nat}

/-- A brush of a leaf stops the motion on its own, and leaves a trace. -/
def Stops
    (tree : Tree S)
    (motion : Motion S)
    (id : Nat)
    (trace : Trace S) : Prop :=
  ∃ leaf brush faces,
    tree.ListsBrush motion.mask leaf id ∧
      tree.Obstacle motion.mask id brush faces ∧
        trace = Trace.alone motion brush.contents faces leaf ∧
          trace.fraction < 1

/--
A motion that did not start in any brush that was considered came to its end, or one of
these brushes stops it on its own and leaves the same trace.
-/
structure Nearest
    (tree : Tree S)
    (motion : Motion S)
    (probe : Probe S) : Prop where
  outside :
    tree.StartsOutside motion probe
  told :
    probe.trace = .unobstructed motion.stop ∨
      ∃ id ∈ probe.considered, tree.Stops motion id probe.trace

theorem nearest_begin
    [LawfulOrder S]
    (tree : Tree S)
    (motion : Motion S) :
    tree.Nearest motion (.begin motion) :=
  ⟨startsOutside_begin tree motion, .inl rfl⟩

theorem Nearest.plain
    [LawfulOrder S]
    (nearest : tree.Nearest motion one) :
    one.trace.Plain motion := by
  rcases nearest.told with
      nothing | ⟨id, considered, leaf, brush, faces, _, obstacle, alone, _⟩
  · rw [nothing]
    exact Trace.plain_unobstructed motion
  · rw [alone]
    exact
      Trace.plain_alone
        (fun inside =>
          nearest.outside.not_startsIn considered
            ⟨brush, faces, obstacle, inside⟩)
        brush.contents leaf

section Comparisons

variable {otherTree : Tree S}

/-- No brush that was considered would have stopped the motion sooner on its own. -/
theorem Nearest.fraction_le
    [LawfulOrder S]
    (nearest : tree.Nearest motion one)
    (otherNearest : otherTree.Nearest motion other)
    (obstacles :
      ∀ id brush faces,
        otherTree.Obstacle motion.mask id brush faces →
          tree.Obstacle motion.mask id brush faces)
    (covers : ∀ id ∈ other.considered, id ∈ one.considered) :
    one.trace.fraction ≤ other.trace.fraction := by
  rcases otherNearest.told with
      nothing | ⟨id, considered, leaf, brush, faces, _, obstacle, alone, _⟩
  · rw [nothing]
    exact nearest.plain.atMostOne
  · rw [alone]
    have outside : ¬motion.StartsInside faces := fun inside =>
      otherNearest.outside.not_startsIn considered
        ⟨brush, faces, obstacle, inside⟩
    rcases Trace.fraction_alone_cases outside brush.contents leaf with
        whole | ⟨crossing, met, counts, stopped⟩
    · rw [whole]
      exact nearest.plain.atMostOne
    · rw [stopped]
      exact
        nearest.outside.accounts.stopped id (covers id considered) brush faces
          crossing (obstacles id brush faces obstacle) met counts

/-- How far a motion comes is told by the brushes, whatever their order. -/
theorem Nearest.fraction_eq
    [LawfulLine S]
    (nearest : tree.Nearest motion one)
    (otherNearest : otherTree.Nearest motion other)
    (obstacles :
      ∀ id brush faces,
        otherTree.Obstacle motion.mask id brush faces ↔
          tree.Obstacle motion.mask id brush faces)
    (same : ∀ id, id ∈ one.considered ↔ id ∈ other.considered) :
    one.trace.fraction = other.trace.fraction :=
  nearest.plain.unsigned.eq_of_le_of_le otherNearest.plain.unsigned
    (nearest.fraction_le otherNearest
      (fun id brush faces => (obstacles id brush faces).mp)
      fun id => (same id).mpr)
    (otherNearest.fraction_le nearest
      (fun id brush faces => (obstacles id brush faces).mpr)
      fun id => (same id).mp)

end Comparisons

section Runs

variable [LawfulUnit S] {policy : SkipPolicy} {clusterCount : Nat}

/-- A motion starts in the brush that is considered, or it comes to the nearest still. -/
theorem Nearest.considers
    (nearest : tree.Nearest motion one)
    (remembers : policy.Remembers)
    (lists : tree.ListsBrush motion.mask leaf id)
    (considers :
      tree.Considers policy motion.mask (Probe.clip motion) leaf id one
        after) :
    tree.StartsIn motion id ∧ after.trace.startSolid = true ∨
      tree.Nearest motion after := by
  have toldBefore
      {trace : Trace S}
      (same : trace = one.trace) :
      trace = .unobstructed motion.stop ∨
        ∃ other ∈ id :: one.considered, tree.Stops motion other trace := by
    rw [same]
    rcases nearest.told with nothing | ⟨other, considered, stops⟩
    · exact .inl nothing
    · exact .inr ⟨other, List.mem_cons_of_mem id considered, stops⟩
  have notSolid := nearest.outside.notStartSolid
  rcases nearest.outside.considers remembers considers with solid | outside
  · cases considers with
    | skipped _ =>
        exact absurd solid (Bool.eq_false_iff.mp notSolid)
    | passed _ _ =>
        exact absurd solid (Bool.eq_false_iff.mp notSolid)
    | @met brush faces _ obstacle =>
        rcases (Trace.startSolid_clip _ motion _ _ leaf).mp solid with
            solidBefore | inside
        · exact absurd solidBefore (Bool.eq_false_iff.mp notSolid)
        · exact .inl ⟨⟨brush, faces, obstacle, inside⟩, solid⟩
  · refine .inr ⟨outside, ?_⟩
    cases considers with
    | skipped _ =>
        exact toldBefore rfl
    | passed _ _ =>
        exact toldBefore rfl
    | @met brush faces _ obstacle =>
        have startsOutside : ¬motion.StartsInside faces := fun inside =>
          outside.not_startsIn List.mem_cons_self
            ⟨brush, faces, obstacle, inside⟩
        rcases nearest.plain.clip_eq_or_eq_alone startsOutside brush.contents
            leaf with same | ⟨alone, beforeEnd⟩
        · exact toldBefore same
        · rw [← alone] at beforeEnd
          exact
            .inr
              ⟨id, List.mem_cons_self, leaf, brush, faces, lists, obstacle,
                alone, beforeEnd⟩

/--
A motion starts in one of the brushes of a list, or it is the nearest brush of the list and
of those before that the trace tells of.
-/
theorem Nearest.exists_considerBrushes
    (nearest : tree.Nearest motion one)
    (closed : tree.records.Closed clusterCount)
    (remembers : policy.Remembers)
    (inRange : ∀ id ∈ ids, id < tree.records.brushes.size)
    (lists : ∀ id ∈ ids, tree.ListsBrush motion.mask leaf id) :
    ∃ after,
      tree.considerBrushes policy motion.mask (Probe.clip motion) leaf ids
            one =
          .ok after ∧
        ((∃ id ∈ ids, tree.StartsIn motion id) ∧
            after.trace.startSolid = true ∨
          tree.Nearest motion after ∧
            ∀ id,
              id ∈ after.considered ↔ id ∈ ids ∨ id ∈ one.considered) := by
  induction ids generalizing one with
  | nil =>
      refine ⟨one, rfl, .inr ⟨nearest, fun id => ?_⟩⟩
      simp only [List.not_mem_nil, false_or]
  | cons id rest inductionHypothesis =>
      have restInRange
          (other : Nat)
          (member : other ∈ rest) :
          other < tree.records.brushes.size :=
        inRange other (List.mem_cons_of_mem id member)
      obtain ⟨middle, considers, goesOn⟩ :=
        considerBrushes_cons closed (inRange id List.mem_cons_self) rest one
      rcases nearest.considers remembers (lists id List.mem_cons_self)
          considers with ⟨startsIn, solid⟩ | nearestThen
      · -- Whatever follows, the motion is known to start in this brush.
        rcases goesOn with ⟨_, ends⟩ | ⟨_, goesOn⟩
        · exact
            ⟨middle, ends, .inl ⟨⟨id, List.mem_cons_self, startsIn⟩, solid⟩⟩
        · obtain ⟨after, considersRest, solidAfter⟩ :=
            exists_considerBrushes_startSolid closed policy motion.mask
              restInRange leaf solid
          rw [goesOn]
          exact
            ⟨after, considersRest,
              .inl ⟨⟨id, List.mem_cons_self, startsIn⟩, solidAfter⟩⟩
      · rcases goesOn with ⟨solid, _⟩ | ⟨_, goesOn⟩
        · rw [nearestThen.outside.notAllSolid] at solid
          cases solid
        · obtain ⟨after, considersRest, outcome⟩ :=
            inductionHypothesis nearestThen restInRange
              (fun other member =>
                lists other (List.mem_cons_of_mem id member))
          rw [goesOn]
          refine ⟨after, considersRest, ?_⟩
          rcases outcome with
              ⟨⟨other, member, startsIn⟩, solid⟩ | ⟨nearestAfter, covers⟩
          · exact
              .inl
                ⟨⟨other, List.mem_cons_of_mem id member, startsIn⟩, solid⟩
          · refine .inr ⟨nearestAfter, fun other => ?_⟩
            rw [covers, considers.considered_clip, List.mem_cons,
              List.mem_cons]
            exact or_left_comm.trans or_assoc.symm

end Runs

end Tree

end LevelCollision

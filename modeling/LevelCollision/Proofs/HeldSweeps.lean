import LevelCollision.Proofs.HullOverlaps
import LevelCollision.Proofs.Retraces

namespace LevelCollision

/-!
# Motions inside brushes

A brush stops a motion at a face that the motion comes to from the front, so that a
brush in which the motion starts never stops it. A motion that stays inside a brush is
found to be wholly solid, but it has its fraction still at one if no other brush stops
it. The test of a position is different: the brush that holds the box sets the fraction
to zero.
-/

open Scalar (LawfulOrder)

section

variable {S : Type} [Scalar S]

/-- A motion comes to the brush with these faces, and its entry into the brush counts. -/
def Motion.IsStoppedBy
    (motion : Motion S)
    (faces : List (Face S)) : Prop :=
  ∃ crossing,
    Crossing.ofFaces? motion faces = some crossing ∧ crossing.Counts

/-- A trace has its fraction at one as long as nothing stopped the motion. -/
def Trace.Stands
    (trace : Trace S)
    (isStopped : Prop) : Prop :=
  trace.fraction = 1 ∧ ¬isStopped ∨ trace.fraction < 1 ∧ isStopped

/-- What a probe tells of the brushes that hold the whole motion and of those that stop it. -/
structure Tree.Reports
    (tree : Tree S)
    (motion : Motion S)
    (probe : Probe S) : Prop where
  allSolid_iff :
    probe.trace.allSolid = true ↔
      tree.HasMet motion probe motion.StaysInside
  stands :
    probe.trace.Stands (tree.HasMet motion probe motion.IsStoppedBy)

theorem Trace.Stands.fraction_eq_one
    {trace : Trace S}
    {isStopped : Prop}
    (stands : trace.Stands isStopped)
    (notObstructed : trace.isObstructed = false) :
    trace.fraction = 1 := by
  rcases stands with ⟨isOne, _⟩ | ⟨less, _⟩
  · exact isOne
  · exact absurd less (decide_eq_false_iff_not.mp notObstructed)

theorem Tree.reports_begin
    (tree : Tree S)
    (motion : Motion S) :
    tree.Reports motion (.begin motion) where
  allSolid_iff := iff_of_false Bool.false_ne_true not_hasMet_begin
  stands := .inl ⟨rfl, not_hasMet_begin⟩

/-- Where a sweep arrives, it is as solid as it was on its way. -/
theorem Probe.allSolid_arrive
    (probe : Probe S)
    (motion : Motion S) :
    (probe.arrive motion).trace.allSolid = probe.trace.allSolid := by
  unfold arrive
  split <;> rfl

/-- A face leaves the exit where it was, or hastens it. -/
theorem Crossing.leave_meet_cases
    (crossing : Crossing S)
    (face : Face S)
    (startDist stopDist : S) :
    (crossing.meet face startDist stopDist).leave = crossing.leave ∨
      (crossing.meet face startDist stopDist).leave < crossing.leave := by
  dsimp only [meet]
  split
  · exact .inl rfl
  · split
    · split
      · exact .inl rfl
      · exact .inl rfl
    · split
      · exact .inr ‹_›
      · exact .inl rfl

variable [LawfulOrder S]

namespace Crossing

variable {motion : Motion S} {faces : List (Face S)} {crossing : Crossing S}

/-- The exit does not come after the end of the motion. -/
theorem leave_cases
    (met : ofFaces? motion faces = some crossing) :
    crossing.leave = 1 ∨ crossing.leave < 1 := by
  refine
    holds_of_ofFaces?
      (fun crossing : Crossing S =>
        crossing.leave = 1 ∨ crossing.leave < 1)
      met (.inl rfl) ?_
  intro face _ before after metFace known
  rw [← (meet?_eq_some_iff.mp metFace).2]
  rcases before.leave_meet_cases face (motion.startDist face)
      (motion.stopDist face) with same | hastened
  · rw [same]
    exact known
  · rcases known with atEnd | beforeEnd
    · rw [atEnd] at hastened
      exact .inr hastened
    · exact .inr (LawfulOrder.lt_trans hastened beforeEnd)

/-- An entry that counts comes before the end of the motion. -/
theorem Counts.beforeEnd
    (counts : crossing.Counts)
    (met : ofFaces? motion faces = some crossing) :
    crossing.enter < 1 := by
  have beforeExit := counts.beforeExit
  rcases leave_cases met with atEnd | beforeEnd
  · rw [atEnd] at beforeExit
    exact beforeExit
  · exact LawfulOrder.lt_trans beforeExit beforeEnd

end Crossing

/-- A brush does not stop a motion that starts in it. -/
theorem Motion.IsStoppedBy.not_startsInside
    {motion : Motion S}
    {faces : List (Face S)}
    (stopped : motion.IsStoppedBy faces) :
    ¬motion.StartsInside faces := by
  obtain ⟨crossing, met, counts⟩ := stopped
  intro inside
  cases isLead : crossing.lead with
  | none =>
      -- Without a face that leads the entry is still at `-1`.
      have enter := counts.afterStart
      rw [Crossing.enter_of_lead_none met isLead] at enter
      exact LawfulOrder.lt_irrefl _ enter
  | some face =>
      have leads := Crossing.leads_of_lead met isLead
      exact inside face leads.isFace leads.inFront

namespace Trace

variable {trace : Trace S} {motion : Motion S} {contents : Contents}
variable {faces : List (Face S)} {leaf : Nat} {isStopped : Prop}

theorem Stands.obstructed_iff
    (stands : trace.Stands isStopped) :
    trace.isObstructed = true ↔ isStopped := by
  rw [isObstructed, decide_eq_true_iff]
  rcases stands with ⟨isOne, notStopped⟩ | ⟨less, stopped⟩
  · rw [isOne]
    exact iff_of_false (LawfulOrder.lt_irrefl _) notStopped
  · exact iff_of_true less stopped

/-- A brush that the motion is clipped to may be the one that stops it. -/
theorem Stands.clip
    (stands : trace.Stands isStopped) :
    (trace.clip motion contents faces leaf).Stands
      (isStopped ∨ motion.IsStoppedBy faces) := by
  rcases fraction_clip_cases trace motion contents faces leaf with
      same | ⟨crossing, met, counts, _, isEntry⟩
  · unfold Stands
    rw [same]
    rcases stands with ⟨isOne, notStopped⟩ | ⟨less, stopped⟩
    · refine .inl ⟨isOne, not_or.mpr ⟨notStopped, ?_⟩⟩
      rintro ⟨crossing, met, counts⟩
      -- An entry that counts comes before the end, and would have moved the fraction.
      have beforeEnd := counts.beforeEnd met
      have goesOn : crossing.enter < trace.fraction := by
        rw [isOne]
        exact beforeEnd
      have isEntry :
          (trace.clip motion contents faces leaf).fraction =
            Scalar.upper 0 crossing.enter :=
        fraction_clip_of_counts met counts goesOn
      have less := Scalar.upper_zero_lt_one beforeEnd
      rw [← isEntry, same, isOne] at less
      exact LawfulOrder.lt_irrefl _ less
    · exact .inr ⟨less, .inl stopped⟩
  · refine .inr ⟨?_, .inr ⟨crossing, met, counts⟩⟩
    rw [isEntry]
    exact Scalar.upper_zero_lt_one (counts.beforeEnd met)

/-- A position that was tested has its fraction at zero exactly if a brush holds it. -/
theorem stands_standing
    (point : Vec3 S)
    (hit : Option (Nat × Contents)) :
    (standing point hit).Stands ((standing point hit).allSolid = true) := by
  cases hit with
  | none =>
      exact .inl ⟨rfl, Bool.false_ne_true⟩
  | some _ =>
      exact .inr ⟨LawfulOrder.zero_lt_one, rfl⟩

end Trace

namespace Tree

variable {tree : Tree S} {motion : Motion S}

/-- Each brush that is considered is reported, and none is reported twice. -/
theorem keeps_reports
    (tree : Tree S)
    (motion : Motion S) :
    tree.Keeps .usual motion.mask (Probe.clip motion)
      (tree.Reports motion) := by
  intro leaf id _ _ before after considers reports
  rcases considers.passes_or_meets (SkipPolicy.remembers_bySlot 16) with
      ⟨rfl, nothingNew⟩ | ⟨brush, faces, rfl, obstacle⟩
  · refine ⟨?_, ?_⟩
    · rw [hasMet_note_iff nothingNew]
      exact reports.allSolid_iff
    · rw [hasMet_note_iff nothingNew]
      exact reports.stands
  · refine ⟨?_, ?_⟩
    · rw [hasMet_clip_iff obstacle leaf, ← reports.allSolid_iff]
      exact Trace.allSolid_clip_iff
    · rw [hasMet_clip_iff obstacle leaf]
      exact reports.stands.clip

end Tree

end

namespace World

/--
What a trace tells of a box that is inside a brush. In the test of a position the box is
wholly solid exactly if it is obstructed. A motion that goes somewhere is wholly solid if
it stays inside a brush that it considers, and is obstructed if it is stopped by a brush
that it considers and does not start in. One that stays inside a brush is therefore not
obstructed, and has its fraction at one, unless another brush stops it.
-/
theorem exists_trace_held_or_stopped
    {world : World Float32}
    {head : Head Float32}
    {motion : Motion Float32}
    (origin :
      world.level = .empty ∨
        ∃ bytes, (Level.read bytes).outcome = .ok world.level)
    (rooted :
      (world.level.tree head).root.In (world.level.tree head).records)
    (acyclic : (world.level.tree head).Acyclic) :
    ∃ trace after,
      world.trace head motion = .ok (trace, after) ∧
        (trace.isObstructed = false → trace.fraction = 1) ∧
        (motion.isStill = true →
          (trace.isObstructed = true ↔ trace.allSolid = true)) ∧
        (motion.isStill = false →
          (trace.allSolid = true ↔
            ∃ id faces,
              world.Considers head motion id faces ∧
                motion.StaysInside faces) ∧
          (trace.isObstructed = true ↔
            ∃ id faces,
              world.Considers head motion id faces ∧
                motion.IsStoppedBy faces ∧ ¬motion.StartsInside faces)) := by
  have closed := (Level.sound_of_origin origin).closed_tree head
  have ends := acyclic.endsWithin closed rooted
  cases isStill : motion.isStill with
  | true =>
      obtain ⟨leaves, top, touches⟩ :=
        ends.exists_touches motion.surroundings
      obtain ⟨after, traces⟩ :=
        exists_trace_scan closed ends isStill touches
      have stands :=
        Trace.stands_standing motion.start
          ((world.level.tree head).scan motion
            (leaves.take world.config.maxTouchedLeaves))
      exact
        ⟨_, after, traces, stands.fraction_eq_one,
          fun _ => stands.obstructed_iff,
          fun moves => absurd moves.symm Bool.false_ne_true⟩
  | false =>
      obtain ⟨swept, reports, probes⟩ :=
        (Tree.keeps_reports (world.level.tree head)
          motion).exists_probe_of_moves ends closed isStill
          (Tree.reports_begin _ motion) world.config.maxTouchedLeaves
      have stands :
          (swept.arrive motion).trace.Stands
            ((world.level.tree head).HasMet motion swept
              motion.IsStoppedBy) := by
        unfold Trace.Stands
        rw [Probe.fraction_arrive]
        exact reports.stands
      rw [trace, probes]
      refine
        ⟨_, _, rfl, stands.fraction_eq_one,
          fun still => absurd still Bool.false_ne_true, fun _ => ⟨?_, ?_⟩⟩
      · rw [Probe.allSolid_arrive, reports.allSolid_iff]
        exact hasMet_iff_considers probes
      · rw [stands.obstructed_iff, hasMet_iff_considers probes]
        simp only [and_iff_left_of_imp Motion.IsStoppedBy.not_startsInside]

/-- A point that moves about in the wall beside the door. -/
def aboutInWall : Motion Float32 where
  start := ⟨-2, 0, 0⟩
  stop := ⟨-1, 0, 0⟩
  box := BoxHull.unplaced
  mask := .solid

/-- The wall holds the whole of the motion, and there is no brush that stops it. -/
theorem allSolid_aboutInWall :
    ∃ (world after : World Float32) (trace : Trace Float32),
      (Level.read Stored.Level.doorway.packed).outcome = .ok world.level ∧
        world.trace (.tree (.node 0)) aboutInWall = .ok (trace, after) ∧
        trace.allSolid = true ∧
        trace.fraction = 1 ∧
        (∃ id faces,
          world.Considers (.tree (.node 0)) aboutInWall id faces ∧
            aboutInWall.StaysInside faces) ∧
        ∀ id faces,
          world.Considers (.tree (.node 0)) aboutInWall id faces →
            aboutInWall.IsStoppedBy faces →
              aboutInWall.StartsInside faces := by
  have run :
      ((Level.read Stored.Level.doorway.packed).outcome.toOption.bind
        fun level => (World.ofLevel level).toOption.bind
          fun world =>
            (world.trace (.tree (.node 0)) aboutInWall).toOption.map
              fun answer =>
                (world.level.isEmpty, world.level.full.nodes.size,
                  (world.level.tree (.tree (.node 0))).goesForward,
                  answer.1.allSolid, answer.1.isObstructed)) =
        some (false, 7, true, true, false) := by
    decide +kernel
  simp only [Option.bind_eq_some_iff, Option.map_eq_some_iff,
    toOption_eq_some_iff, Prod.mk.injEq] at run
  obtain ⟨level, accepted, world, loaded, ⟨trace, after⟩, traces, mapped,
    nodeCount, forward, solid, free⟩ := run
  cases level_of_ofLevel loaded
  have hasNode : 0 < world.level.full.nodes.size := by
    rw [nodeCount]
    decide
  obtain ⟨_, _, tracesAgain, isOne, _, told⟩ :=
    exists_trace_held_or_stopped (.inr ⟨_, accepted⟩)
      (Level.rooted_of_mapped mapped hasNode)
      (Tree.acyclic_of_goesForward forward)
  cases traces.symm.trans tracesAgain
  obtain ⟨solid_iff, obstructed_iff⟩ :=
    told (show aboutInWall.isStill = false by decide +kernel)
  refine
    ⟨world, after, trace, accepted, traces, solid, isOne free,
      solid_iff.mp solid, fun id faces considers stops => ?_⟩
  by_contra outside
  have obstructed :=
    obstructed_iff.mpr ⟨id, faces, considers, stops, outside⟩
  rw [free] at obstructed
  cases obstructed

end World

end LevelCollision

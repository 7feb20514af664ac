import LevelCollision.Proofs.ExactCrossings
import LevelCollision.Proofs.Retraces
import LevelCollision.Proofs.TraceConsistency

namespace LevelCollision

/-!
# Tracing on in exact arithmetic

In exact arithmetic a motion ends where its fraction says, so that no end is rounded to
behind a face. A motion that goes on from there then does not start solid, unless the
first motion missed a brush or dropped its entry into one.
-/

namespace Motion

variable {motion : Motion Rat} {face : Face Rat} {fraction : Rat}

/-- A motion that stays in front of a face is in front of it where it is stopped. -/
theorem StaysInFront.distAt_pos
    (staysInFront : motion.StaysInFront face fraction)
    (nonneg : 0 ≤ fraction) :
    0 < motion.distAt face fraction := by
  have startsInFront := staysInFront.startsInFront
  rw [distAt]
  rcases staysInFront.stopped with ahead | ⟨approaches, atEntry⟩
  · have further := mul_nonneg nonneg (sub_nonneg.mpr ahead)
    linarith
  · rw [Scalar.upper_eq] at atEntry
    rcases le_max_iff.mp atEntry with atMostZero | notAfter
    · rw [le_antisymm atMostZero nonneg, zero_mul, add_zero]
      exact startsInFront
    · have positive := Scalar.distEpsilon_pos
      rw [le_div_iff₀ (sub_pos.mpr approaches)] at notAfter
      linarith

end Motion

namespace World

variable {world after last : World Rat} {head : Head Rat}
variable {motion : Motion Rat} {trace again : Trace Rat} {stop : Vec3 Rat}

/-- A motion ends in the point at its fraction. -/
theorem endPoint_of_trace
    (moves : motion.isStill = false)
    (traces : world.trace head motion = .ok (trace, after)) :
    0 ≤ trace.fraction ∧
      trace.endPoint = motion.pointAt trace.fraction := by
  obtain ⟨final, probes, made⟩ := bind_eq_ok_iff.mp traces
  cases made
  obtain ⟨swept, ⟨accounted, struck⟩, arrives⟩ :=
    (Tree.keeps_clip .usual motion).exists_swept_of_probe moves
      ⟨Trace.accounted_unobstructed (world.level.tree head) motion.mask
          motion.stop,
        Trace.struck_unobstructed (world.level.tree head) motion⟩
      probes
  have consistent := accounted.consistent_arrive struck moves
  rw [arrives] at consistent
  refine ⟨consistent.inUnit.1, ?_⟩
  rcases lt_or_eq_of_le consistent.inUnit.2 with underway | atStop
  · exact consistent.underway moves underway
  · rw [consistent.atStop moves atStop, atStop, Motion.pointAt]
    refine Vec3.ext_get fun axis => ?_
    simp

/-- The distance of the end in front of a face is the one at the fraction. -/
theorem endDist_of_trace
    (moves : motion.isStill = false)
    (traces : world.trace head motion = .ok (trace, after))
    (face : Face Rat) :
    motion.endDist trace face = motion.distAt face trace.fraction := by
  rw [Motion.endDist, (endPoint_of_trace moves traces).2, Motion.distAt_eq,
    Motion.metDist_eq]

/--
A motion that goes on from the end of one that did not start solid does not start solid
either, if the first motion came to all brushes that it considers, and if the entries of
the first motion into them count.
-/
theorem not_startSolid_retrace
    (moves : motion.isStill = false)
    (traces : world.trace head motion = .ok (trace, after))
    (notSolid : trace.startSolid = false)
    (movesOn : (motion.retrace trace stop).isStill = false)
    (tracesOn :
      after.trace head (motion.retrace trace stop) = .ok (again, last))
    (seen :
      ∀ id faces,
        after.Considers head (motion.retrace trace stop) id faces →
          world.Considers head motion id faces)
    (counted :
      ∀ id faces crossing,
        world.Considers head motion id faces →
          Crossing.ofFaces? motion faces = some crossing →
            crossing.Counts) :
    again.startSolid = false := by
  rw [Bool.eq_false_iff, ne_eq,
    startSolid_retrace_iff_escapes moves traces notSolid movesOn tracesOn]
  rintro ⟨id, faces, considersOn, _, escapes⟩
  have considers := seen id faces considersOn
  cases escapes with
  | unseen notSeen =>
      exact notSeen considers
  | dropped _ met notCounts =>
      exact notCounts (counted id faces _ considers met)
  | rounded _ staysInFront notInFront =>
      rw [endDist_of_trace moves traces] at notInFront
      exact
        notInFront
          (staysInFront.distAt_pos (endPoint_of_trace moves traces).1)

end World

end LevelCollision

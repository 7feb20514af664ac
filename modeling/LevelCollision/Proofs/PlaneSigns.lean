import LevelCollision.Proofs.PointsInBoxes
import LevelCollision.Proofs.TraceConsistency

namespace LevelCollision

/-!
# Signs of planes

A plane is made with the signs of its normal, so that all planes of a level and of its box
hulls have the mask of their own normal, and so has the plane that stops a motion. A plane
whose normal is turned back to the world keeps the mask that it had. It is the right one only
where turning changes the sign of no component.
-/

open Scalar (LawfulOrder)

namespace Scalar

/-- Of two binary scalars the lesser one is not equal to the other. -/
theorem beq_eq_false_of_lt
    {first second : Float32}
    (less : first < second) :
    (first == second) = false := by
  refine Bool.eq_false_iff.mpr fun same => ?_
  obtain ⟨before, isBefore, after, isAfter, less⟩ := float32_lt_iff.mp less
  obtain ⟨place, isFirst, isSecond⟩ := float32_beq_iff.mp same
  cases Option.mem_unique isBefore isFirst
  cases Option.mem_unique isAfter isSecond
  exact lt_irrefl before less

end Scalar

/-- Positions in a vector are those of the axes. -/
theorem Axis.exists_index_eq
    {position : Nat}
    (inRange : position < 3) :
    ∃ axis : Axis, axis.index = position := by
  match position, inRange with
  | 0, _ =>
      exact ⟨.x, rfl⟩
  | 1, _ =>
      exact ⟨.y, rfl⟩
  | 2, _ =>
      exact ⟨.z, rfl⟩

namespace Plane

section

variable {S : Type} {plane : Plane S}

/-- The mask has the recorded sign of each axis. -/
theorem testBit_signBits
    (plane : Plane S)
    (axis : Axis) :
    plane.signBits.testBit axis.index = plane.signs.get axis := by
  unfold signBits
  rcases plane.signs with ⟨_ | _, _ | _, _ | _⟩ <;> cases axis <;> decide

/-- It has nothing else. -/
theorem lt_three_of_testBit
    {bit : Nat}
    (isSet : plane.signBits.testBit bit = true) :
    bit < 3 := by
  have small : plane.signBits < 2 ^ 3 := by
    unfold signBits
    rcases plane.signs with ⟨_ | _, _ | _, _ | _⟩ <;> decide
  exact
    (Nat.pow_lt_pow_iff_right Nat.one_lt_two).mp
      (Nat.lt_of_le_of_lt (Nat.ge_two_pow_of_testBit isSet) small)

/-- So it has the bits of the axes whose recorded sign is set. -/
theorem testBit_signBits_iff
    {bit : Nat} :
    plane.signBits.testBit bit = true ↔
      ∃ axis : Axis, axis.index = bit ∧ plane.signs.get axis = true := by
  constructor
  · intro isSet
    obtain ⟨axis, rfl⟩ := Axis.exists_index_eq (lt_three_of_testBit isSet)
    rw [testBit_signBits] at isSet
    exact ⟨axis, rfl, isSet⟩
  · rintro ⟨axis, rfl, isSet⟩
    rw [testBit_signBits]
    exact isSet

end

variable {S : Type} [Scalar S] {plane : Plane S}

/-- The mask has the bit of an axis for each component of the normal that is negative. -/
def Masked
    (plane : Plane S) : Prop :=
  ∀ bit,
    plane.signBits.testBit bit = true ↔
      ∃ axis : Axis, axis.index = bit ∧ plane.normal.get axis < 0

/-- The recorded signs are those of a vector if they are so along each axis. -/
theorem signs_eq_signsOf_iff
    {normal : Vec3 S} :
    plane.signs = signsOf normal ↔
      ∀ axis, plane.signs.get axis = true ↔ normal.get axis < 0 := by
  have get_signsOf
      (axis : Axis) :
      (signsOf normal).get axis = true ↔ normal.get axis < 0 := by
    rw [signsOf, Vec3.get_map, decide_eq_true_iff]
  simp only [← get_signsOf]
  constructor
  · intro signs axis
    rw [signs]
  · intro along
    exact Vec3.ext_get fun axis => Bool.eq_iff_iff.mpr (along axis)

/-- The mask is that of the normal when the recorded signs are. -/
theorem masked_iff_signed :
    plane.Masked ↔ plane.Signed := by
  unfold Masked Signed
  simp only [testBit_signBits_iff, signs_eq_signsOf_iff]
  constructor
  · intro masked axis
    have index_injective
        {other : Axis}
        (sameIndex : other.index = axis.index) :
        other = axis := by
      rw [← Axis.ofIndex_index other, sameIndex, Axis.ofIndex_index]
    constructor
    · intro isSet
      obtain ⟨other, sameIndex, negative⟩ :=
        (masked axis.index).mp ⟨axis, rfl, isSet⟩
      rwa [← index_injective sameIndex]
    · intro negative
      obtain ⟨other, sameIndex, isSet⟩ :=
        (masked axis.index).mpr ⟨axis, rfl, negative⟩
      rwa [← index_injective sameIndex]
  · intro along bit
    simp only [along]

/-- A plane that is given another normal keeps the mask of the one it had. -/
theorem masked_withNormal_iff
    (signed : plane.Signed)
    (normal : Vec3 S) :
    (plane.withNormal normal).Masked ↔
      ∀ axis, normal.get axis < 0 ↔ plane.normal.get axis < 0 := by
  have along := signs_eq_signsOf_iff.mp signed
  have sameSigns : (plane.withNormal normal).signs = plane.signs := rfl
  rw [masked_iff_signed, Signed, signs_eq_signsOf_iff, sameSigns]
  simp only [along]
  exact forall_congr' fun axis => Iff.comm

end Plane

/-- The plane of a side of a brush is one of the tree's. -/
theorem Tree.HasSide.mem_planes
    {S : Type}
    {tree : Tree S}
    {mask contents : Contents}
    {plane : Plane S}
    {surface : Option Nat}
    (hasSide : tree.HasSide mask contents plane surface) :
    plane ∈ tree.records.planes := by
  cases hasSide with
  | ofBrush _ _ _ _ _ _ found =>
      exact Array.mem_of_getElem? found

section

variable {S : Type} [Scalar S] {tree : Tree S} {policy : SkipPolicy}
variable {motion : Motion S} {probe final : Probe S}

/-- Arriving does not change the plane that stopped a motion. -/
theorem Probe.plane_arrive
    (probe : Probe S)
    (motion : Motion S) :
    (probe.arrive motion).trace.plane = probe.trace.plane := by
  unfold arrive
  split <;> rfl

/-- No plane was met yet. -/
def Probe.MetNoPlane
    (probe : Probe S) : Prop :=
  probe.trace.plane = none

theorem Probe.metNoPlane_begin
    (motion : Motion S) :
    (Probe.begin motion).MetNoPlane :=
  rfl

/-- The test of a position meets no plane of the brushes that it considers. -/
theorem Probe.MetNoPlane.considers
    {mask : Contents}
    {leaf brush : Nat}
    (metNone : probe.MetNoPlane)
    (considers :
      tree.Considers policy mask (Probe.test motion) leaf brush probe final) :
    final.MetNoPlane := by
  cases considers with
  | skipped _ =>
      exact metNone
  | passed _ _ =>
      exact metNone
  | met _ _ =>
      unfold Probe.test Trace.test MetNoPlane
      dsimp only
      split
      · exact metNone
      · exact metNone

namespace Tree

/-- Leaves that were tested have kept what visits of leaves keep. -/
theorem holds_of_testLeaves
    {holds : Probe S → Prop}
    (visits :
      ∀ id before after,
        holds before →
          tree.visitLeaf policy motion.mask (Probe.test motion) id before =
              .ok after →
            holds after)
    {ids : List Nat}
    (first : holds probe)
    (tests : tree.testLeaves policy motion ids probe = .ok final) :
    holds final := by
  induction ids generalizing probe with
  | nil =>
      cases tests
      exact first
  | cons id rest inductionHypothesis =>
      obtain ⟨tested, visited, goesOn⟩ := bind_eq_ok_iff.mp tests
      have testedHolds := visits id probe tested first visited
      split at goesOn
      · cases goesOn
        exact testedHolds
      · exact inductionHypothesis testedHolds goesOn

/-- The test of a position meets no plane. -/
theorem plane_of_probe_of_still
    {leafLimit : Nat}
    (still : motion.isStill = true)
    (probes : tree.probe policy leafLimit motion = .ok final) :
    final.trace.plane = none := by
  rw [probe, if_pos still] at probes
  obtain ⟨list, _, probes⟩ := bind_eq_ok_iff.mp probes
  obtain ⟨tested, tests, made⟩ := bind_eq_ok_iff.mp probes
  have meetsNone : tested.MetNoPlane := by
    refine holds_of_testLeaves ?_ (Probe.metNoPlane_begin motion) tests
    intro id before after metNone visited
    refine holds_of_visitLeaf ?_ metNone visited
    intro brush _ middle next considers metNone
    exact metNone.considers considers
  cases made
  exact meetsNone

/-- A plane that stops a motion is one of the tree's. -/
theorem plane_of_probe
    [LawfulOrder S]
    {leafLimit : Nat}
    {plane : Plane S}
    (probes : tree.probe policy leafLimit motion = .ok final)
    (isPlane : final.trace.plane = some plane) :
    plane ∈ tree.records.planes ∧ final.trace.fraction < 1 := by
  cases still : motion.isStill with
  | true =>
      rw [plane_of_probe_of_still still probes] at isPlane
      cases isPlane
  | false =>
      obtain ⟨swept, ⟨_, struck⟩, rfl⟩ :=
        (keeps_clip policy motion).exists_swept_of_probe still
          ⟨Trace.accounted_unobstructed tree motion.mask motion.stop,
            Trace.struck_unobstructed tree motion⟩
          probes
      rw [Probe.plane_arrive] at isPlane
      rw [Probe.fraction_arrive]
      refine ⟨?_, struck.plane_iff.mp (Option.isSome_of_eq_some isPlane)⟩
      exact (struck.side plane isPlane).mem_planes

end Tree

namespace World

variable {world after : World S} {head : Head S} {trace : Trace S}
variable {plane : Plane S}

/-- The planes that can be had of a level in use, none of which is turned. -/
inductive Gives
    (world : World S) :
    Plane S → Prop where
  | made
      (normal : Vec3 S)
      (dist : S)
      (kind : PlaneKind) :
      Gives world (.ofNormal normal dist kind)
  /-- A plane of the level itself or of the hull of a box. -/
  | recorded
      {head : Head S}
      {plane : Plane S} :
      plane ∈ (world.level.tree head).records.planes →
      Gives world plane
  | opposite
      (plane : Plane S) :
      Gives world plane.opposite
  /-- A plane that stopped a motion. -/
  | met
      {head : Head S}
      {motion : Motion S}
      {trace : Trace S}
      {after : World S}
      {plane : Plane S} :
      world.trace head motion = .ok (trace, after) →
      trace.plane = some plane →
      Gives world plane

variable [LawfulOrder S]

/-- A plane that stopped a motion is one of those below the head. -/
theorem plane_of_trace
    (traces : world.trace head motion = .ok (trace, after))
    (isPlane : trace.plane = some plane) :
    plane ∈ (world.level.tree head).records.planes ∧ trace.fraction < 1 := by
  obtain ⟨final, probes, made⟩ := bind_eq_ok_iff.mp traces
  cases made
  exact Tree.plane_of_probe probes isPlane

/-- All planes that can be had have the signs of their normals if the level's own do. -/
theorem Gives.signed
    (gives : world.Gives plane)
    (signed : world.level.own.Signed) :
    plane.Signed := by
  cases gives with
  | made normal dist kind =>
      exact Plane.signed_ofNormal normal dist kind
  | recorded member =>
      exact Level.signed_tree signed _ _ member
  | opposite other =>
      exact Plane.signed_ofNormal _ _ _
  | met traces isPlane =>
      exact Level.signed_tree signed _ _ (plane_of_trace traces isPlane).1

end World

end

/-- The planes of a level without a map and of one that was read have their signs. -/
theorem Level.signed_of_origin
    {level : Level Float32}
    (origin : level = .empty ∨ ∃ bytes, (read bytes).outcome = .ok level) :
    level.own.Signed := by
  rcases origin with rfl | ⟨bytes, accepted⟩
  · intro plane member
    exact absurd member (Array.not_mem_empty plane)
  · exact signed_of_read accepted

namespace World

/--
All planes that can be had of a level, and those that stop a motion, have the mask of their
own normal, however often they are made to face the other way. The plane that stops a motion
below a head that stands elsewhere is the one that the motion meets there. If the head is
turned, it has the mask of the normal that it has there, which is the mask of the normal in
the world only if turning back leaves the sign of each component as it is.
-/
theorem masked_placedTrace_iff
    {world : World Float32}
    (origin :
      world.level = .empty ∨
        ∃ bytes, (Level.read bytes).outcome = .ok world.level) :
    (∀ plane, world.Gives plane → plane.Masked) ∧
      ∀ [Trig Float32] (head : Head Float32) (placement : Placement Float32)
        (motion : Motion Float32) (trace : Trace Float32)
        (after : World Float32) (plane : Plane Float32),
        world.placedTrace head placement motion = .ok (trace, after) →
          trace.plane = some plane →
            ∃ localTrace met,
              world.trace head (placement.motionToLocal head motion) =
                  .ok (localTrace, after) ∧
                localTrace.plane = some met ∧
                (placement.turns head = false → plane = met) ∧
                (placement.turns head = true →
                  plane = placement.planeToWorld met ∧
                    (plane.Masked ↔
                      ∀ axis,
                        plane.normal.get axis < 0 ↔
                          met.normal.get axis < 0)) := by
  have signed := Level.signed_of_origin origin
  refine
    ⟨fun plane gives => Plane.masked_iff_signed.mpr (gives.signed signed),
      ?_⟩
  intro _ head placement motion trace after plane traces isPlane
  obtain ⟨⟨localTrace, next⟩, tracesThere, made⟩ := bind_eq_ok_iff.mp traces
  cases made
  unfold Placement.traceToWorld at isPlane
  dsimp only at isPlane
  cases turns : placement.turns head with
  | false =>
      simp only [turns, Bool.false_and, Bool.false_eq_true, ↓reduceIte]
        at isPlane
      exact
        ⟨localTrace, plane, tracesThere, isPlane, fun _ => rfl,
          fun isTurned => absurd isTurned Bool.false_ne_true⟩
  | true =>
      cases isMet : localTrace.plane with
      | none =>
          rw [isMet] at isPlane
          split at isPlane <;> cases isPlane
      | some met =>
          have gives : world.Gives met := .met tracesThere isMet
          have stopped := (plane_of_trace tracesThere isMet).2
          simp only [turns, bne, Scalar.beq_eq_false_of_lt stopped, isMet,
            Bool.not_false, Bool.and_self, ↓reduceIte, Option.map_some,
            Option.some.injEq] at isPlane
          subst isPlane
          exact
            ⟨localTrace, met, tracesThere, isMet,
              fun isUpright => absurd isUpright.symm Bool.false_ne_true,
              fun _ =>
                ⟨rfl, Plane.masked_withNormal_iff (gives.signed signed) _⟩⟩

/-- Sines and cosines of no turn and of quarter turns. -/
@[reducible] def quarterTurns : Trig Float32 where
  sin degrees :=
    if degrees == 90 then 1 else if degrees == -90 then -1 else 0
  cos degrees :=
    if degrees == 0 then 1 else 0

/-- A quarter turn about the vertical axis. -/
def quarterTurned : Placement Float32 where
  origin := Vec3.zero
  angles := ⟨0, -90, 0⟩

/-- A point that moves into the wall when the wall is turned by a quarter. -/
def intoTurnedWall : Motion Float32 where
  start := ⟨0, -1, 0⟩
  stop := ⟨0, 1, 0⟩
  box := BoxHull.unplaced
  mask := .solid

/--
The wall faces along the first axis where it stands, and against the second one when it is
turned. Its mask still has no bit then.
-/
theorem not_masked_turnedWall :
    ∃ (world after : World Float32) (trace : Trace Float32)
      (plane : Plane Float32),
      (Level.read Stored.Level.doorway.packed).outcome = .ok world.level ∧
        @placedTrace _ _ quarterTurns world (.tree (.node 0)) quarterTurned
            intoTurnedWall =
          .ok (trace, after) ∧
        trace.plane = some plane ∧
        ¬plane.Masked := by
  have run :
      ((Level.read Stored.Level.doorway.packed).outcome.toOption.bind
        fun level => (ofLevel level).toOption.bind
          fun world =>
            (@placedTrace _ _ quarterTurns world (.tree (.node 0))
                quarterTurned intoTurnedWall).toOption.bind
              fun answer =>
                answer.1.plane.bind
                  fun plane =>
                    (world.trace (.tree (.node 0))
                        (@Placement.motionToLocal _ _ quarterTurns
                          quarterTurned (.tree (.node 0))
                          intoTurnedWall)).toOption.bind
                      fun there =>
                        there.1.plane.map
                          fun met =>
                            (decide (plane.normal.y < 0),
                              decide (met.normal.y < 0))) =
        some (true, false) := by
    decide +kernel
  simp only [Option.bind_eq_some_iff, Option.map_eq_some_iff,
    toOption_eq_some_iff, Prod.mk.injEq, decide_eq_true_iff,
    decide_eq_false_iff_not] at run
  obtain ⟨level, accepted, world, loaded, ⟨trace, after⟩, traces, plane,
    isPlane, ⟨_, _⟩, tracesThere, met, isMet, turned, upright⟩ := run
  cases level_of_ofLevel loaded
  obtain ⟨_, placed⟩ := masked_placedTrace_iff (.inr ⟨_, accepted⟩)
  obtain ⟨_, other, tracesAgain, isOther, _, turns⟩ :=
    @placed quarterTurns _ _ _ _ _ _ traces isPlane
  cases tracesThere.symm.trans tracesAgain
  cases isMet.symm.trans isOther
  have isTurned : quarterTurned.turns (.tree (.node 0)) = true := by
    decide +kernel
  refine ⟨world, after, trace, plane, accepted, traces, isPlane, ?_⟩
  intro masked
  exact upright (((turns isTurned).2.mp masked .y).mp turned)

end World

end LevelCollision

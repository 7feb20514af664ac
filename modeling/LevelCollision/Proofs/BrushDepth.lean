import LevelCollision.Proofs.HullDepth

namespace LevelCollision

/-!
# How deep a motion comes into a brush

In exact arithmetic a motion that starts in front of a face of a brush comes nowhere more
than `distEpsilon` behind all faces before it is stopped, and where the brush stops it,
it is not farther than that in front of any face.

Each face that was met bounds what is known of the brush: the motion was behind the face
all the way, or its entry there is not later than the latest one, or its exit there is not
earlier than the earliest one. The place of the latest entry then lies near all faces.
-/

namespace Crossing

variable {motion : Motion Rat} {faces : List (Face Rat)} {face : Face Rat}
variable {crossing before after : Crossing Rat}

/-- A further face may delay the entry, and may hasten the exit. -/
theorem enter_le_meet
    (crossing : Crossing Rat)
    (face : Face Rat)
    (startDist stopDist : Rat) :
    crossing.enter ≤ (crossing.meet face startDist stopDist).enter ∧
      (crossing.meet face startDist stopDist).leave ≤ crossing.leave := by
  dsimp only [meet]
  split
  · exact ⟨le_refl _, le_refl _⟩
  · split
    · split
      · rename_i later
        exact ⟨le_of_lt later, le_refl _⟩
      · exact ⟨le_refl _, le_refl _⟩
    · split
      · rename_i earlier
        exact ⟨le_refl _, le_of_lt earlier⟩
      · exact ⟨le_refl _, le_refl _⟩

/-- How a face that was met bounds the entry into a brush and the exit from it. -/
inductive Heeds
    (crossing : Crossing Rat)
    (motion : Motion Rat)
    (face : Face Rat) : Prop where
  | behind :
      motion.startDist face ≤ 0 →
      motion.stopDist face ≤ 0 →
      Heeds crossing motion face
  | approached :
      motion.stopDist face < motion.startDist face →
      (motion.startDist face - Scalar.distEpsilon) /
            (motion.startDist face - motion.stopDist face) ≤
          crossing.enter →
      Heeds crossing motion face
  | receded :
      motion.startDist face ≤ 0 →
      motion.startDist face < motion.stopDist face →
      crossing.leave ≤
          (motion.startDist face + Scalar.distEpsilon) /
            (motion.startDist face - motion.stopDist face) →
      Heeds crossing motion face

theorem heeds_of_meet?
    (met : before.meet? motion face = some after) :
    after.Heeds motion face := by
  obtain ⟨notAhead, rfl⟩ := meet?_eq_some_iff.mp met
  dsimp only [meet]
  split
  · rename_i bothBehind
    exact .behind bothBehind.1 bothBehind.2
  · rename_i notBehind
    split
    · rename_i approaches
      refine .approached approaches ?_
      split
      · exact le_refl _
      · rename_i notLater
        exact not_lt.mp notLater
    · rename_i notApproaches
      have startsBehind : motion.startDist face ≤ 0 :=
        not_lt.mp fun inFront =>
          notAhead ⟨inFront, not_lt.mp notApproaches⟩
      have stopsInFront : 0 < motion.stopDist face :=
        not_le.mp fun stopsBehind => notBehind ⟨startsBehind, stopsBehind⟩
      refine .receded startsBehind (lt_of_le_of_lt startsBehind stopsInFront) ?_
      split
      · exact le_refl _
      · rename_i notEarlier
        exact not_lt.mp notEarlier

/-- Faces that are met later keep the bounds of those before them. -/
theorem Heeds.meet?
    {other : Face Rat}
    (heeds : before.Heeds motion face)
    (met : before.meet? motion other = some after) :
    after.Heeds motion face := by
  obtain ⟨_, rfl⟩ := meet?_eq_some_iff.mp met
  obtain ⟨notEarlier, notLater⟩ :=
    before.enter_le_meet other (motion.startDist other)
      (motion.stopDist other)
  cases heeds with
  | behind startsBehind stopsBehind =>
      exact .behind startsBehind stopsBehind
  | approached approaches entered =>
      exact .approached approaches (le_trans entered notEarlier)
  | receded startsBehind recedes left =>
      exact .receded startsBehind recedes (le_trans notLater left)

/-- Every face of a brush that was met bounds the entry and the exit. -/
theorem heeds_of_mem
    (met : ofFaces? motion faces = some crossing)
    (member : face ∈ faces) :
    crossing.Heeds motion face :=
  holds_of_mem_faces (fun crossing => crossing.Heeds motion face) met member
    (fun _ _ => heeds_of_meet?)
    (fun _ _ _ _ metOther heeds => heeds.meet? metOther)

/-- At the entry the box is not far in front of a face. -/
theorem Heeds.distAt_le
    (heeds : crossing.Heeds motion face)
    (beforeExit : crossing.enter < crossing.leave)
    (beforeEnd : crossing.enter ≤ 1) :
    motion.distAt face (max 0 crossing.enter) ≤ Scalar.distEpsilon := by
  have positive := Scalar.distEpsilon_pos
  have nonneg : 0 ≤ max 0 crossing.enter := le_max_left 0 crossing.enter
  have atMostOne : max 0 crossing.enter ≤ 1 := max_le zero_le_one beforeEnd
  cases heeds with
  | behind startsBehind stopsBehind =>
      have between :
          motion.distAt face (max 0 crossing.enter) =
            (1 - max 0 crossing.enter) * motion.startDist face +
              max 0 crossing.enter * motion.stopDist face := by
        rw [Motion.distAt]
        ring
      have startPart :=
        mul_nonpos_of_nonneg_of_nonpos (sub_nonneg.mpr atMostOne)
          startsBehind
      have stopPart := mul_nonpos_of_nonneg_of_nonpos nonneg stopsBehind
      linarith
  | approached approaches entered =>
      have entered := le_trans entered (le_max_right 0 crossing.enter)
      rw [div_le_iff₀ (sub_pos.mpr approaches)] at entered
      rw [Motion.distAt]
      linarith
  | receded startsBehind recedes left =>
      rcases le_total crossing.enter 0 with beforeStart | afterStart
      · rw [max_eq_left beforeStart, Motion.distAt_zero]
        linarith
      · have notLeft := lt_of_lt_of_le beforeExit left
        rw [lt_div_iff_of_neg (sub_neg.mpr recedes)] at notLeft
        rw [max_eq_right afterStart, Motion.distAt]
        linarith

/-- At the entry the box is still in front of the face of the latest entry. -/
theorem Leads.distAt_pos
    (leads : crossing.Leads face motion faces) :
    0 < motion.distAt face (max 0 crossing.enter) := by
  rcases le_total crossing.enter 0 with beforeStart | afterStart
  · rw [max_eq_left beforeStart, Motion.distAt_zero]
    exact leads.inFront
  · have length : motion.startDist face - motion.stopDist face ≠ 0 :=
      ne_of_gt (sub_pos.mpr leads.approaches)
    have covered :=
      div_mul_cancel₀ (motion.startDist face - Scalar.distEpsilon) length
    rw [← leads.enter] at covered
    have positive := Scalar.distEpsilon_pos
    rw [max_eq_right afterStart, Motion.distAt]
    linarith

end Crossing

namespace Trace

variable {S : Type} [Scalar S]

/-- A motion that a brush stops earlier is stopped at the entry in front of a face. -/
theorem exists_lead_of_clip_ne
    {trace : Trace S}
    {motion : Motion S}
    {contents : Contents}
    {faces : List (Face S)}
    {leaf : Nat}
    (stopped :
      (trace.clip motion contents faces leaf).fraction ≠ trace.fraction) :
    ∃ crossing face,
      Crossing.ofFaces? motion faces = some crossing ∧
        crossing.Leads face motion faces ∧
        crossing.Counts ∧
        crossing.enter < trace.fraction ∧
        (trace.clip motion contents faces leaf).fraction =
          Scalar.upper 0 crossing.enter ∧
        (trace.clip motion contents faces leaf).plane = some face.plane ∧
        (trace.clip motion contents faces leaf).surface = face.surface := by
  cases met : Crossing.ofFaces? motion faces with
  | none =>
      simp only [clip, met, ne_eq, not_true] at stopped
  | some crossing =>
      simp only [clip, met] at stopped ⊢
      rw [← fraction_noteStart trace crossing leaf] at stopped ⊢
      unfold stopAt at stopped ⊢
      split at stopped
      · rename_i face isLead
        split at stopped
        · rename_i stops
          refine
            ⟨crossing, face, rfl, Crossing.leads_of_lead met isLead,
              ⟨stops.2.1, stops.1⟩, stops.2.2, ?_⟩
          simp only [stops, and_self, ↓reduceIte]
        · exact absurd rfl stopped
      · exact absurd rfl stopped

/-- Where a brush stops a motion earlier the box is near to the brush. -/
theorem near_of_clip_lt
    {trace : Trace Rat}
    {motion : Motion Rat}
    {contents : Contents}
    {faces : List (Face Rat)}
    {leaf : Nat}
    (atMostOne : trace.fraction ≤ 1)
    (stopped :
      (trace.clip motion contents faces leaf).fraction < trace.fraction) :
    (∀ face ∈ faces,
      motion.distAt face (trace.clip motion contents faces leaf).fraction ≤
        Scalar.distEpsilon) ∧
      ∃ face ∈ faces,
        (trace.clip motion contents faces leaf).plane = some face.plane ∧
          (trace.clip motion contents faces leaf).surface = face.surface ∧
          0 <
            motion.distAt face
              (trace.clip motion contents faces leaf).fraction := by
  obtain ⟨crossing, face, met, leads, counts, goesOn, fraction, plane,
    surface⟩ := exists_lead_of_clip_ne (ne_of_lt stopped)
  rw [Scalar.upper_eq] at fraction
  have beforeEnd : crossing.enter ≤ 1 :=
    le_trans (le_of_lt goesOn) atMostOne
  rw [fraction]
  constructor
  · intro other member
    exact
      (Crossing.heeds_of_mem met member).distAt_le counts.beforeExit
        beforeEnd
  · exact ⟨face, leads.isFace, plane, surface, leads.distAt_pos⟩

end Trace

namespace Tree

/-- A brush that has a face has sides. -/
theorem count_ne_zero_of_mem_faces
    {S : Type}
    {tree : Tree S}
    {brush : Brush}
    {faces : List (Face S)}
    (found : tree.faces brush = .ok faces)
    {face : Face S}
    (member : face ∈ faces) :
    brush.sides.count ≠ 0 := by
  obtain ⟨sides, foundSides, lookedUp⟩ := bind_eq_ok_iff.mp found
  obtain ⟨side, isSide, _⟩ := exists_of_mem_mapM lookedUp member
  obtain ⟨position, afterFirst, beforeStop, _⟩ :=
    (mem_lookupSpan_iff foundSides).mp isSide
  unfold Span.stop at beforeStop
  omega

/--
A motion that starts in front of a face of a brush is clipped to the brush. Before it is
stopped it is nowhere more than `distEpsilon` behind all faces. If the brush stops it, then
no face is more than `distEpsilon` ahead of it there, and the plane that is recorded is
still ahead of it.
-/
theorem exists_meetBrush_within_epsilon
    {tree : Tree Rat}
    {brush : Brush}
    {faces : List (Face Rat)}
    (found : tree.faces brush = .ok faces)
    {motion : Motion Rat}
    (startsInFront : ∃ face ∈ faces, 0 < motion.startDist face)
    {probe : Probe Rat}
    (inUnit : Scalar.InUnit probe.trace.fraction)
    (leaf : Nat) :
    ∃ after,
      tree.meetBrush (Probe.clip motion) leaf brush probe = .ok after ∧
        (∀ place,
          0 ≤ place → place ≤ after.trace.fraction →
            ∃ face ∈ faces,
              -Scalar.distEpsilon ≤ motion.distAt face place) ∧
        (after.trace.fraction < probe.trace.fraction →
          (∀ face ∈ faces,
            motion.distAt face after.trace.fraction ≤
              Scalar.distEpsilon) ∧
            ∃ face ∈ faces,
              after.trace.plane = some face.plane ∧
                after.trace.surface = face.surface ∧
                0 < motion.distAt face after.trace.fraction ∧
                motion.distAt face after.trace.fraction ≤
                  Scalar.distEpsilon) := by
  have measured : probe.trace.Measured :=
    ⟨beq_self_eq_true _, inUnit.nonneg⟩
  have hasSides : brush.sides.count ≠ 0 := by
    obtain ⟨face, member, _⟩ := startsInFront
    exact count_ne_zero_of_mem_faces found member
  rw [meetBrush, if_neg hasSides, found, ok_bind]
  refine
    ⟨_, rfl, fun place nonneg unstopped => ?_, fun stopped => ?_⟩
  · have notLater :=
      (measured.clip motion brush.contents faces leaf).2
    have atMostOne : place ≤ 1 :=
      le_trans unstopped (le_trans notLater inUnit.atMostOne)
    have notDeep :=
      measured.not_deepBehind_of_clip startsInFront nonneg atMostOne
        unstopped
    simpa only [Motion.DeepBehind, not_forall, exists_prop, not_lt] using
      notDeep
  · obtain ⟨near, face, member, plane, surface, inFront⟩ :=
      Trace.near_of_clip_lt inUnit.atMostOne stopped
    exact
      ⟨near, face, member, plane, surface, inFront, near face member⟩

/-- The hull of a cube around the origin, in a world without a map. -/
def hullOfCube : Tree Rat :=
  (Level.empty : Level Rat).tree (.box World.cube)

/-- The smaller cube that moves through the hull is stopped near to it by its brush. -/
theorem exists_meetBrush_throughCube :
    ∃ faces after,
      hullOfCube.faces (BoxHull.brush (Level.empty : Level Rat).own) =
          .ok faces ∧
        hullOfCube.meetBrush (Probe.clip World.throughCube) 1
            (BoxHull.brush (Level.empty : Level Rat).own)
            (.begin World.throughCube) =
          .ok after ∧
        after.trace.fraction < 1 ∧
        (∃ face ∈ faces,
          -Scalar.distEpsilon ≤
            World.throughCube.distAt face after.trace.fraction) ∧
        ∃ face ∈ faces,
          after.trace.plane = some face.plane ∧
            0 < World.throughCube.distAt face after.trace.fraction ∧
            World.throughCube.distAt face after.trace.fraction ≤
              Scalar.distEpsilon := by
  have run :
      (hullOfCube.faces
            (BoxHull.brush (Level.empty : Level Rat).own)).toOption.bind
          (fun faces =>
            (hullOfCube.meetBrush (Probe.clip World.throughCube) 1
                (BoxHull.brush (Level.empty : Level Rat).own)
                (.begin World.throughCube)).toOption.map
              fun after =>
                (faces.any fun face =>
                    decide (0 < World.throughCube.startDist face),
                  decide (0 ≤ after.trace.fraction),
                  decide (after.trace.fraction < 1))) =
        some (true, true, true) := by
    decide +kernel
  simp only [Option.bind_eq_some_iff, Option.map_eq_some_iff,
    toOption_eq_some_iff, Prod.mk.injEq, List.any_eq_true,
    decide_eq_true_eq] at run
  obtain ⟨faces, found, after, meets, startsInFront, nonneg, stopped⟩ := run
  have unstopped :
      Scalar.InUnit (Probe.begin World.throughCube).trace.fraction :=
    Scalar.inUnit_one
  obtain ⟨afterAgain, meetsAgain, notDeep, near⟩ :=
    exists_meetBrush_within_epsilon found startsInFront unstopped 1
  rw [meets, Except.ok.injEq] at meetsAgain
  subst meetsAgain
  obtain ⟨_, face, member, plane, _, inFront, notFar⟩ := near stopped
  exact
    ⟨faces, after, found, meets, stopped,
      notDeep after.trace.fraction nonneg (le_refl _), face, member, plane,
      inFront, notFar⟩

end Tree

end LevelCollision

import LevelCollision.Proofs.Crossings
import LevelCollision.Proofs.FloodFaults
import LevelCollision.Proofs.PackedLevel
import LevelCollision.Proofs.QueryRuns
import LevelCollision.Proofs.ScalarOrder
import LevelCollision.Proofs.SoundLevels
import LevelCollision.World

namespace LevelCollision

/-!
# Tracing on from where a motion ended

A motion that ended may be followed by another one from its end point. That one starts
solid when a brush that it considers holds the point. A brush that the first motion
considered, and did not start in, has stopped it at or before its entry, unless the entry
did not count: an entry counts if it comes after `-1`, where the search for it begins, and
before the exit.

The entry is taken to be `distEpsilon` before the brush. A motion that begins closer to
a brush than that, and is shorter than its distance from there, enters at `-1` or before.
Such an entry does not count, and the motion ends inside the brush.
-/

open Scalar (LawfulOrder)

/-- The entry into a brush counts, so that a motion that comes to it is stopped there. -/
structure Crossing.Counts
    {S : Type} [Scalar S]
    (crossing : Crossing S) : Prop where
  afterStart :
    -1 < crossing.enter
  beforeExit :
    crossing.enter < crossing.leave

namespace SkipPolicy

/-- What a policy skips was considered before. -/
def Remembers
    (policy : SkipPolicy) : Prop :=
  ∀ considered brush,
    policy considered brush = true → brush ∈ considered

theorem remembers_bySlot
    (slots : Nat) :
    (bySlot slots).Remembers :=
  fun _ _ skips => List.mem_of_find?_eq_some (beq_iff_eq.mp skips)

end SkipPolicy

/-- A brush that is considered is met, unless it is in no way or was considered before. -/
theorem Tree.Considers.passes_or_meets
    {S : Type}
    {tree : Tree S}
    {policy : SkipPolicy}
    {mask : Contents}
    {encounter : Encounter S}
    {leaf id : Nat}
    {before after : Probe S}
    (considers :
      tree.Considers policy mask encounter leaf id before after)
    (remembers : policy.Remembers) :
    (after = before.note id ∧
        ∀ brush faces,
          tree.Obstacle mask id brush faces → id ∈ before.considered) ∨
      ∃ brush faces,
        after = encounter brush.contents faces leaf (before.note id) ∧
          tree.Obstacle mask id brush faces := by
  cases considers with
  | skipped skips =>
      exact .inl ⟨rfl, fun _ _ _ => remembers before.considered id skips⟩
  | passed _ noObstacle =>
      exact
        .inl ⟨rfl, fun brush faces obstacle =>
          absurd obstacle (noObstacle brush faces)⟩
  | met _ obstacle =>
      exact .inr ⟨_, _, rfl, obstacle⟩

section

variable {S : Type} [Scalar S]

/-- A motion that comes nearer to a face, and is not behind it, starts in front of it. -/
theorem Crossing.Leads.inFront
    [LawfulOrder S]
    {face : Face S}
    {crossing : Crossing S}
    {motion : Motion S}
    {faces : List (Face S)}
    (leads : crossing.Leads face motion faces) :
    0 < motion.startDist face := by
  have startIsNumber := LawfulOrder.beq_self_of_gt leads.approaches
  have zeroIsNumber := LawfulOrder.beq_self_of_lt (LawfulOrder.zero_lt_one (S := S))
  by_contra notInFront
  have startBehind :=
    LawfulOrder.le_of_not_lt zeroIsNumber startIsNumber notInFront
  refine leads.notBehind ⟨startBehind, ?_⟩
  exact
    LawfulOrder.le_trans (LawfulOrder.le_of_lt leads.approaches) startBehind

namespace Trace

variable {trace : Trace S} {motion : Motion S} {contents : Contents}
variable {faces : List (Face S)} {leaf : Nat} {crossing : Crossing S}

/--
A trace that is clipped to a brush ends where it did, or before that at an entry that
counts.
-/
theorem fraction_clip_cases
    (trace : Trace S)
    (motion : Motion S)
    (contents : Contents)
    (faces : List (Face S))
    (leaf : Nat) :
    (trace.clip motion contents faces leaf).fraction = trace.fraction ∨
      ∃ crossing,
        Crossing.ofFaces? motion faces = some crossing ∧
          crossing.Counts ∧
            crossing.enter < trace.fraction ∧
              (trace.clip motion contents faces leaf).fraction =
                Scalar.upper 0 crossing.enter := by
  unfold clip
  split
  · rename_i crossing met
    rw [← fraction_noteStart trace crossing leaf]
    unfold stopAt
    split
    · split
      · rename_i stops
        obtain ⟨beforeExit, afterStart, goesOn⟩ := stops
        exact
          .inr ⟨crossing, met, ⟨afterStart, beforeExit⟩, goesOn, rfl⟩
      · exact .inl rfl
    · exact .inl rfl
  · exact .inl rfl

variable [LawfulOrder S]

/-- It ends at an entry that counts, if it did not end before. -/
theorem fraction_clip_of_counts
    (met : Crossing.ofFaces? motion faces = some crossing)
    (counts : crossing.Counts)
    (goesOn : crossing.enter < trace.fraction) :
    (trace.clip motion contents faces leaf).fraction =
      Scalar.upper 0 crossing.enter := by
  rw [← fraction_noteStart trace crossing leaf] at goesOn
  simp only [clip, met]
  cases leads : crossing.lead with
  | none =>
      have enter := counts.afterStart
      rw [Crossing.enter_of_lead_none met leads] at enter
      exact absurd enter (LawfulOrder.lt_irrefl _)
  | some face =>
      simp only [stopAt, leads, counts.beforeExit, counts.afterStart, goesOn,
        and_self, ↓reduceIte]

/-- The fraction of a trace is a number that is not negative. -/
structure Measured
    (trace : Trace S) : Prop where
  isNumber :
    (trace.fraction == trace.fraction) = true
  nonneg :
    0 ≤ trace.fraction

theorem measured_unobstructed
    (endPoint : Vec3 S) :
    (unobstructed endPoint).Measured where
  isNumber := LawfulOrder.one_beq_one
  nonneg := LawfulOrder.le_of_lt LawfulOrder.zero_lt_one

/-- A trace that is clipped to a brush does not end later than it did. -/
theorem Measured.clip
    (measured : trace.Measured)
    (motion : Motion S)
    (contents : Contents)
    (faces : List (Face S))
    (leaf : Nat) :
    (trace.clip motion contents faces leaf).Measured ∧
      (trace.clip motion contents faces leaf).fraction ≤ trace.fraction := by
  rcases fraction_clip_cases trace motion contents faces leaf with
      same | ⟨crossing, _, _, goesOn, stopped⟩
  · refine ⟨⟨?_, ?_⟩, ?_⟩
    · rw [same]
      exact measured.isNumber
    · rw [same]
      exact measured.nonneg
    · rw [same]
      exact LawfulOrder.le_self measured.isNumber
  · refine ⟨⟨?_, ?_⟩, ?_⟩
    · rw [stopped]
      exact Scalar.beq_self_upper crossing.enter
    · rw [stopped]
      exact Scalar.zero_le_upper crossing.enter
    · rw [stopped]
      exact Scalar.upper_le measured.nonneg (LawfulOrder.le_of_lt goesOn)

/-- It ends at or before the entry into the brush, if that counts. -/
theorem Measured.clip_le
    (measured : trace.Measured)
    (met : Crossing.ofFaces? motion faces = some crossing)
    (counts : crossing.Counts) :
    (trace.clip motion contents faces leaf).fraction ≤
      Scalar.upper 0 crossing.enter := by
  by_cases goesOn : crossing.enter < trace.fraction
  · rw [fraction_clip_of_counts met counts goesOn]
    exact LawfulOrder.le_self (Scalar.beq_self_upper crossing.enter)
  · have isNumber := LawfulOrder.beq_self_of_gt counts.afterStart
    have notLater := (measured.clip motion contents faces leaf).2
    have notBefore :=
      LawfulOrder.le_of_not_lt isNumber measured.isNumber goesOn
    exact
      LawfulOrder.le_trans notLater
        (LawfulOrder.le_trans notBefore (Scalar.le_upper isNumber))

end Trace

namespace Tree

variable {tree : Tree S} {motion : Motion S} {clusterCount : Nat}
variable {before after : Probe S} {leaf id : Nat}

/-- One of the brushes that a probe considered has faces of some kind. -/
def HasMet
    (tree : Tree S)
    (motion : Motion S)
    (probe : Probe S)
    (isOfKind : List (Face S) → Prop) : Prop :=
  ∃ id ∈ probe.considered,
    ∃ brush faces,
      tree.Obstacle motion.mask id brush faces ∧ isOfKind faces

variable {isOfKind : List (Face S) → Prop}

theorem not_hasMet_begin :
    ¬tree.HasMet motion (.begin motion) isOfKind := by
  rintro ⟨_, member, _⟩
  cases member

omit [Scalar S] in
/-- A brush that adds nothing new has not met anything new. -/
theorem hasMet_note_iff
    (nothingNew :
      ∀ brush faces,
        tree.Obstacle motion.mask id brush faces → id ∈ before.considered) :
    tree.HasMet motion (before.note id) isOfKind ↔
      tree.HasMet motion before isOfKind := by
  constructor
  · rintro ⟨other, member, brush, faces, obstacle, holds⟩
    rcases List.mem_cons.mp member with isNoted | wasConsidered
    · subst isNoted
      exact
        ⟨other, nothingNew brush faces obstacle, brush, faces, obstacle,
          holds⟩
    · exact ⟨other, wasConsidered, brush, faces, obstacle, holds⟩
  · rintro ⟨other, member, known⟩
    exact ⟨other, List.mem_cons_of_mem id member, known⟩

/-- A brush that the motion is clipped to adds its own faces. -/
theorem hasMet_clip_iff
    {brush : Brush}
    {faces : List (Face S)}
    (obstacle : tree.Obstacle motion.mask id brush faces)
    (leaf : Nat) :
    tree.HasMet motion
        (Probe.clip motion brush.contents faces leaf (before.note id))
        isOfKind ↔
      tree.HasMet motion before isOfKind ∨ isOfKind faces := by
  constructor
  · rintro ⟨other, member, otherBrush, otherFaces, another, holds⟩
    rcases List.mem_cons.mp member with isMet | wasConsidered
    · subst isMet
      obtain ⟨_, sameFaces⟩ := obstacle.unique another
      rw [← sameFaces] at holds
      exact .inr holds
    · exact
        .inl ⟨other, wasConsidered, otherBrush, otherFaces, another, holds⟩
  · rintro (⟨other, member, known⟩ | holds)
    · exact ⟨other, List.mem_cons_of_mem id member, known⟩
    · exact ⟨id, List.mem_cons_self, brush, faces, obstacle, holds⟩

/-- What a probe tells of the brushes that were considered on its way. -/
structure Accounts
    (tree : Tree S)
    (motion : Motion S)
    (probe : Probe S) : Prop where
  measured :
    probe.trace.Measured
  /-- The motion is known to start in each brush that holds its start. -/
  startSolid_iff :
    probe.trace.startSolid = true ↔
      ∃ id ∈ probe.considered,
        ∃ brush faces,
          tree.Obstacle motion.mask id brush faces ∧
            motion.StartsInside faces
  /-- The motion has ended at or before each entry that counts. -/
  stopped :
    ∀ id ∈ probe.considered,
      ∀ brush faces crossing,
        tree.Obstacle motion.mask id brush faces →
          Crossing.ofFaces? motion faces = some crossing →
            crossing.Counts →
              probe.trace.fraction ≤ Scalar.upper 0 crossing.enter

/-- A brush that adds nothing new leaves the account as it was. -/
theorem Accounts.note
    (accounts : tree.Accounts motion before)
    (nothingNew :
      ∀ brush faces,
        tree.Obstacle motion.mask id brush faces → id ∈ before.considered) :
    tree.Accounts motion (before.note id) where
  measured := accounts.measured
  startSolid_iff :=
    accounts.startSolid_iff.trans (hasMet_note_iff nothingNew).symm
  stopped other member brush faces crossing obstacle := by
    rcases List.mem_cons.mp member with isNoted | wasConsidered
    · subst isNoted
      exact
        accounts.stopped other (nothingNew brush faces obstacle) brush faces
          crossing obstacle
    · exact
        accounts.stopped other wasConsidered brush faces crossing obstacle

variable [LawfulOrder S]

theorem accounts_begin
    (tree : Tree S)
    (motion : Motion S) :
    tree.Accounts motion (.begin motion) where
  measured := Trace.measured_unobstructed motion.stop
  startSolid_iff := by
    simp [Probe.begin, Trace.unobstructed]
  stopped id member := by
    cases member

/-- A brush that the motion is clipped to is taken into account. -/
theorem Accounts.clip
    (accounts : tree.Accounts motion before)
    {brush : Brush}
    {faces : List (Face S)}
    (obstacle : tree.Obstacle motion.mask id brush faces)
    (leaf : Nat) :
    tree.Accounts motion
      (Probe.clip motion brush.contents faces leaf (before.note id)) where
  measured :=
    (accounts.measured.clip motion brush.contents faces leaf).1
  startSolid_iff := by
    change
      (before.trace.clip _ _ _ _).startSolid = true ↔
        tree.HasMet motion _ motion.StartsInside
    rw [Trace.startSolid_clip, accounts.startSolid_iff,
      hasMet_clip_iff obstacle leaf]
    rfl
  stopped other member otherBrush otherFaces crossing another met counts := by
    rcases List.mem_cons.mp member with isMet | wasConsidered
    · subst isMet
      obtain ⟨_, sameFaces⟩ := obstacle.unique another
      rw [← sameFaces] at met
      exact accounts.measured.clip_le met counts
    · have stoppedBefore :=
        accounts.stopped other wasConsidered otherBrush otherFaces crossing
          another met counts
      exact
        LawfulOrder.le_trans
          (accounts.measured.clip motion brush.contents faces leaf).2
          stoppedBefore

/-- A brush that is considered is taken into account. -/
theorem Accounts.considers
    {policy : SkipPolicy}
    (accounts : tree.Accounts motion before)
    (remembers : policy.Remembers)
    (considers :
      tree.Considers policy motion.mask (Probe.clip motion) leaf id before
        after) :
    tree.Accounts motion after := by
  rcases considers.passes_or_meets remembers with
      ⟨rfl, nothingNew⟩ | ⟨brush, faces, rfl, obstacle⟩
  · exact accounts.note nothingNew
  · exact accounts.clip obstacle leaf

theorem keeps_accounts
    (tree : Tree S)
    (motion : Motion S) :
    tree.Keeps .usual motion.mask (Probe.clip motion)
      (tree.Accounts motion) :=
  fun _ _ _ _ _ _ considers accounts =>
    accounts.considers (SkipPolicy.remembers_bySlot 16) considers

end Tree

/-- The motion from where a trace ended to a point, with the same box and mask. -/
def Motion.retrace
    (motion : Motion S)
    (trace : Trace S)
    (stop : Vec3 S) : Motion S :=
  { motion with
    start := trace.endPoint
    stop := stop }

/-- Distance in front of a face of the point in which a motion ended. -/
def Motion.endDist
    (motion : Motion S)
    (trace : Trace S)
    (face : Face S) : S :=
  trace.endPoint.dot face.plane.normal - motion.metDist face

theorem Motion.startDist_retrace
    (motion : Motion S)
    (trace : Trace S)
    (stop : Vec3 S)
    (face : Face S) :
    (motion.retrace trace stop).startDist face =
      motion.endDist trace face :=
  rfl

/--
A motion that is stopped at a fraction stays in front of a face: it does not come nearer
to the face, or it is stopped no later than `distEpsilon` before the face.
-/
structure Motion.StaysInFront
    (motion : Motion S)
    (face : Face S)
    (fraction : S) : Prop where
  startsInFront :
    0 < motion.startDist face
  stopped :
    motion.startDist face ≤ motion.stopDist face ∨
      motion.stopDist face < motion.startDist face ∧
        fraction ≤
          Scalar.upper 0
            ((motion.startDist face - Scalar.distEpsilon) /
              (motion.startDist face - motion.stopDist face))

namespace World

variable {world after last : World S} {head : Head S}
variable {motion : Motion S} {trace again : Trace S} {stop : Vec3 S}

/-- The trace of a motion considers a brush that can stop the motion. -/
def Considers
    (world : World S)
    (head : Head S)
    (motion : Motion S)
    (id : Nat)
    (faces : List (Face S)) : Prop :=
  ∃ final brush,
    (world.level.tree head).probe .usual world.config.maxTouchedLeaves
          motion =
        .ok final ∧
      id ∈ final.considered ∧
      (world.level.tree head).Obstacle motion.mask id brush faces

/-- How a brush can come to hold the end of a motion that did not start in it. -/
inductive Escapes
    (world : World S)
    (head : Head S)
    (motion : Motion S)
    (trace : Trace S)
    (id : Nat)
    (faces : List (Face S)) : Prop where
  /-- The motion came to no leaf that lists the brush. -/
  | unseen :
      ¬world.Considers head motion id faces →
      Escapes world head motion trace id faces
  /-- The motion started outside the brush, and its entry into it did not count. -/
  | dropped
      {crossing : Crossing S} :
      ¬motion.StartsInside faces →
      Crossing.ofFaces? motion faces = some crossing →
      ¬crossing.Counts →
      Escapes world head motion trace id faces
  /-- The motion was stopped in front of a face, and its end was rounded to behind it. -/
  | rounded
      {face : Face S} :
      face ∈ faces →
      motion.StaysInFront face trace.fraction →
      ¬0 < motion.endDist trace face →
      Escapes world head motion trace id faces

/-- What a trace considers is what its sweep did. -/
theorem considers_iff
    {swept : Probe S}
    (probes :
      (world.level.tree head).probe .usual world.config.maxTouchedLeaves
          motion =
        .ok (swept.arrive motion))
    {id : Nat}
    {faces : List (Face S)} :
    world.Considers head motion id faces ↔
      id ∈ swept.considered ∧
        ∃ brush,
          (world.level.tree head).Obstacle motion.mask id brush faces := by
  rw [← Probe.considered_arrive swept motion]
  constructor
  · rintro ⟨other, brush, probesOther, member, obstacle⟩
    rw [probes, Except.ok.injEq] at probesOther
    rw [probesOther]
    exact ⟨member, brush, obstacle⟩
  · rintro ⟨member, brush, obstacle⟩
    exact ⟨_, brush, probes, member, obstacle⟩

/-- So is what it met of some kind. -/
theorem hasMet_iff_considers
    {swept : Probe S}
    (probes :
      (world.level.tree head).probe .usual world.config.maxTouchedLeaves
          motion =
        .ok (swept.arrive motion))
    {isOfKind : List (Face S) → Prop} :
    (world.level.tree head).HasMet motion swept isOfKind ↔
      ∃ id faces,
        world.Considers head motion id faces ∧ isOfKind faces := by
  constructor
  · rintro ⟨id, member, brush, faces, obstacle, holds⟩
    exact
      ⟨id, faces, (considers_iff probes).mpr ⟨member, brush, obstacle⟩,
        holds⟩
  · rintro ⟨id, faces, considers, holds⟩
    obtain ⟨member, brush, obstacle⟩ := (considers_iff probes).mp considers
    exact ⟨id, member, brush, faces, obstacle, holds⟩

variable [LawfulOrder S]

/-- A motion that went somewhere is accounted for by what it considered. -/
theorem accounts_of_trace
    (moves : motion.isStill = false)
    (traces : world.trace head motion = .ok (trace, after)) :
    (trace.startSolid = true ↔
        ∃ id faces,
          world.Considers head motion id faces ∧
            motion.StartsInside faces) ∧
      ∀ id faces crossing,
        world.Considers head motion id faces →
          Crossing.ofFaces? motion faces = some crossing →
            crossing.Counts →
              trace.fraction ≤ Scalar.upper 0 crossing.enter := by
  obtain ⟨final, probes, made⟩ := bind_eq_ok_iff.mp traces
  cases made
  obtain ⟨swept, accounts, arrives⟩ :=
    (Tree.keeps_accounts (world.level.tree head)
      motion).exists_swept_of_probe moves (Tree.accounts_begin _ motion)
      probes
  rw [← arrives] at probes
  constructor
  · rw [← arrives, Probe.startSolid_arrive, accounts.startSolid_iff]
    exact hasMet_iff_considers probes
  · intro id faces crossing considers met counts
    obtain ⟨member, brush, obstacle⟩ := (considers_iff probes).mp considers
    rw [← arrives, Probe.fraction_arrive]
    exact
      accounts.stopped id member brush faces crossing obstacle met counts

/-- A motion stays in front of a brush that it considers if the entry counts. -/
theorem exists_staysInFront
    (moves : motion.isStill = false)
    (traces : world.trace head motion = .ok (trace, after))
    {id : Nat}
    {faces : List (Face S)}
    (considers : world.Considers head motion id faces)
    (counted :
      ∀ crossing,
        Crossing.ofFaces? motion faces = some crossing →
          crossing.Counts) :
    ∃ face ∈ faces, motion.StaysInFront face trace.fraction := by
  obtain ⟨startSolid_iff, stopped⟩ := accounts_of_trace moves traces
  rcases Crossing.ofFaces?_cases motion faces with
      ⟨crossing, met⟩ | ⟨face, member, before, unmet⟩
  · have counts := counted crossing met
    have stoppedHere := stopped id faces crossing considers met counts
    cases isLead : crossing.lead with
    | none =>
        -- Without a lead the entry is still at `-1`, which does not count.
        have enter := counts.afterStart
        rw [Crossing.enter_of_lead_none met isLead] at enter
        exact absurd enter (LawfulOrder.lt_irrefl _)
    | some face =>
        have leads := Crossing.leads_of_lead met isLead
        rw [leads.enter] at stoppedHere
        exact
          ⟨face, leads.isFace, leads.inFront,
            .inr ⟨leads.approaches, stoppedHere⟩⟩
  · obtain ⟨inFront, ahead⟩ := Crossing.inFront_of_meet?_eq_none unmet
    exact ⟨face, member, inFront, .inl ahead⟩

/--
A motion that goes on from the end of one that did not start solid starts solid exactly
when it considers a brush that holds the end, and that escaped the first motion.
-/
theorem startSolid_retrace_iff_escapes
    (moves : motion.isStill = false)
    (traces : world.trace head motion = .ok (trace, after))
    (notSolid : trace.startSolid = false)
    (movesOn : (motion.retrace trace stop).isStill = false)
    (tracesOn :
      after.trace head (motion.retrace trace stop) = .ok (again, last)) :
    again.startSolid = true ↔
      ∃ id faces,
        after.Considers head (motion.retrace trace stop) id faces ∧
          (motion.retrace trace stop).StartsInside faces ∧
            world.Escapes head motion trace id faces := by
  rw [(accounts_of_trace movesOn tracesOn).1]
  constructor
  · rintro ⟨id, faces, considers, inside⟩
    refine ⟨id, faces, considers, inside, ?_⟩
    by_cases considered : world.Considers head motion id faces
    · by_cases counted :
          ∀ crossing,
            Crossing.ofFaces? motion faces = some crossing →
              crossing.Counts
      · obtain ⟨face, member, staysInFront⟩ :=
          exists_staysInFront moves traces considered counted
        have notInFront := inside face member
        rw [Motion.startDist_retrace] at notInFront
        exact .rounded member staysInFront notInFront
      · obtain ⟨crossing, notCounted⟩ := not_forall.mp counted
        obtain ⟨met, notCounts⟩ := Classical.not_imp.mp notCounted
        refine .dropped (fun startsInside => ?_) met notCounts
        have solid :=
          (accounts_of_trace moves traces).1.mpr
            ⟨id, faces, considered, startsInside⟩
        rw [notSolid] at solid
        cases solid
    · exact .unseen considered
  · rintro ⟨id, faces, considers, inside, _⟩
    exact ⟨id, faces, considers, inside⟩

end World

end

namespace World

/--
In a level that was read, a motion that goes on from the end of one that did not start
solid starts solid exactly when it considers a brush that holds the end. The first motion
did not come to that brush, or dropped its entry into it, or was stopped in front of one
of its faces at a point that was rounded to behind the face.
-/
theorem startSolid_retrace_iff
    {bytes : List UInt8}
    {level : Level Float32}
    (accepted : (Level.read bytes).outcome = .ok level)
    (head : Head Float32)
    {world : World Float32}
    (uses : world.level = level)
    {motion : Motion Float32}
    (moves : motion.isStill = false) :
    ((level.tree head).root.In (level.tree head).records →
        (level.tree head).Acyclic →
          ∃ trace after, world.trace head motion = .ok (trace, after)) ∧
      ∀ trace after,
        world.trace head motion = .ok (trace, after) →
          trace.startSolid = false →
            after.level = level ∧
              ∀ stop again last,
                (motion.retrace trace stop).isStill = false →
                  after.trace head (motion.retrace trace stop) =
                      .ok (again, last) →
                    (again.startSolid = true ↔
                      ∃ id faces,
                        after.Considers head (motion.retrace trace stop) id
                            faces ∧
                          (motion.retrace trace stop).StartsInside faces ∧
                            world.Escapes head motion trace id faces) := by
  refine ⟨fun rooted acyclic => ?_, fun trace after traces notSolid => ?_⟩
  · have closed := (Level.sound_of_read accepted).closed_tree head
    obtain ⟨swept, _, probes⟩ :=
      (Tree.keeps_accounts (level.tree head) motion).exists_probe_of_moves
        (acyclic.endsWithin closed rooted) closed moves
        (Tree.accounts_begin _ motion) world.config.maxTouchedLeaves
    rw [World.trace, uses, probes]
    exact ⟨_, _, rfl⟩
  · refine ⟨?_, fun stop again last movesOn tracesOn => ?_⟩
    · obtain ⟨final, _, made⟩ := bind_eq_ok_iff.mp traces
      cases made
      exact uses
    · exact
        startSolid_retrace_iff_escapes moves traces notSolid movesOn tracesOn

/-- A point just in front of the wall beside the door that moves into it by a little. -/
def shortIntoWall : Motion Float32 where
  start := ⟨Float32.ofBits 0x3a800000, 0, 0⟩
  stop := ⟨Float32.ofBits 0xbc000000, 0, 0⟩
  box := BoxHull.unplaced
  mask := .solid

/-- The wall does not stop the point, and holds the point in which it ends. -/
theorem startSolid_shortIntoWall :
    ∃ (level : Level Float32) (world after last : World Float32)
      (trace again : Trace Float32),
      (Level.read Stored.Level.doorway.packed).outcome = .ok level ∧
        ofLevel level = .ok world ∧
        world.trace (.tree (.node 0)) shortIntoWall = .ok (trace, after) ∧
        trace.startSolid = false ∧
        after.trace (.tree (.node 0))
            (shortIntoWall.retrace trace ⟨1, 0, 0⟩) =
          .ok (again, last) ∧
        again.startSolid = true ∧
        ∃ id faces,
          (shortIntoWall.retrace trace ⟨1, 0, 0⟩).StartsInside faces ∧
            world.Escapes (.tree (.node 0)) shortIntoWall trace id
              faces := by
  have run :
      ((Level.read Stored.Level.doorway.packed).outcome.toOption.bind
        fun level => (ofLevel level).toOption.bind
          fun world =>
            (world.trace (.tree (.node 0)) shortIntoWall).toOption.bind
              fun answer =>
                (answer.2.trace (.tree (.node 0))
                    (shortIntoWall.retrace answer.1
                      ⟨1, 0, 0⟩)).toOption.map
                  fun second =>
                    (answer.1.startSolid,
                      (shortIntoWall.retrace answer.1 ⟨1, 0, 0⟩).isStill,
                      second.1.startSolid)) =
        some (false, false, true) := by
    decide +kernel
  simp only [Option.bind_eq_some_iff, Option.map_eq_some_iff,
    toOption_eq_some_iff, Prod.mk.injEq] at run
  obtain ⟨level, accepted, world, loaded, ⟨trace, after⟩, traces,
    ⟨again, last⟩, tracesOn, notSolid, movesOn, solid⟩ := run
  have moves : shortIntoWall.isStill = false := by
    decide +kernel
  obtain ⟨_, retraces⟩ :=
    startSolid_retrace_iff accepted (.tree (.node 0))
      (level_of_ofLevel loaded) moves
  obtain ⟨_, solid_iff⟩ := retraces trace after traces notSolid
  obtain ⟨id, faces, _, inside, escapes⟩ :=
    (solid_iff ⟨1, 0, 0⟩ again last movesOn tracesOn).mp solid
  exact
    ⟨level, world, after, last, trace, again, accepted, loaded, traces,
      notSolid, tracesOn, solid, id, faces, inside, escapes⟩

end World

end LevelCollision

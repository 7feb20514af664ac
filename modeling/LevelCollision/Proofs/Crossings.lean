import Mathlib.Logic.Basic
import LevelCollision.Proofs.SweepRuns

namespace LevelCollision

/-!
# Crossings of brushes

What is known about a brush is gathered face by face, so that whatever each face keeps
is true in the end. The face that stops a motion is one of those that were met, and a
motion that starts in front of any face is known to start outside the brush.
-/

namespace Crossing

variable {S : Type} [Scalar S] {motion : Motion S}
variable {faces : List (Face S)} {face : Face S}
variable {crossing before after : Crossing S}

/-- A face adds to what is known unless all of the motion is in front of it. -/
theorem meet?_eq_some_iff :
    before.meet? motion face = some after ↔
      ¬(0 < motion.startDist face ∧
          motion.startDist face ≤ motion.stopDist face) ∧
        before.meet face (motion.startDist face) (motion.stopDist face) =
          after := by
  dsimp only [meet?]
  split <;> simp_all

/-- A face that leaves the brush unmet has all of the motion in front of it. -/
theorem inFront_of_meet?_eq_none
    (unmet : before.meet? motion face = none) :
    0 < motion.startDist face ∧
      motion.startDist face ≤ motion.stopDist face := by
  dsimp only [meet?] at unmet
  split at unmet
  · rename_i ahead
    exact ahead
  · cases unmet

/-- What is known of the start after a face tells whether it is in front of that face. -/
theorem startOutside_meet
    (crossing : Crossing S)
    (face : Face S)
    (startDist stopDist : S) :
    (crossing.meet face startDist stopDist).startOutside =
      (crossing.startOutside || decide (0 < startDist)) := by
  dsimp only [meet]
  split
  · rfl
  · split
    · split
      · rfl
      · rfl
    · split
      · rfl
      · rfl

/-- So does what is known of the end. -/
theorem endOutside_meet
    (crossing : Crossing S)
    (face : Face S)
    (startDist stopDist : S) :
    (crossing.meet face startDist stopDist).endOutside =
      (crossing.endOutside || decide (0 < stopDist)) := by
  dsimp only [meet]
  split
  · rfl
  · split
    · split
      · rfl
      · rfl
    · split
      · rfl
      · rfl

/-- A face delays the entry, and then it leads, or it leaves the entry as it was. -/
theorem enter_meet_cases
    (crossing : Crossing S)
    (face : Face S)
    (startDist stopDist : S) :
    (crossing.meet face startDist stopDist).lead = crossing.lead ∧
        (crossing.meet face startDist stopDist).enter = crossing.enter ∨
      (crossing.meet face startDist stopDist).lead = some face ∧
        (crossing.meet face startDist stopDist).enter =
          (startDist - Scalar.distEpsilon) / (startDist - stopDist) ∧
        stopDist < startDist ∧
        ¬(startDist ≤ 0 ∧ stopDist ≤ 0) := by
  dsimp only [meet]
  split
  · exact .inl ⟨rfl, rfl⟩
  · rename_i notBehind
    split
    · rename_i approaches
      split
      · exact .inr ⟨rfl, rfl, approaches, notBehind⟩
      · exact .inl ⟨rfl, rfl⟩
    · split
      · exact .inl ⟨rfl, rfl⟩
      · exact .inl ⟨rfl, rfl⟩

/-- What each of some faces keeps is kept by all of them. -/
theorem holds_of_foldlM
    (holds : Crossing S → Prop)
    (met :
      faces.foldlM (fun crossing face => crossing.meet? motion face) before =
        some after)
    (first : holds before)
    (keeps :
      ∀ face ∈ faces, ∀ before after,
        before.meet? motion face = some after →
          holds before → holds after) :
    holds after := by
  induction faces generalizing before with
  | nil =>
      cases met
      exact first
  | cons face rest inductionHypothesis =>
      rw [List.foldlM_cons, Option.bind_eq_bind,
        Option.bind_eq_some_iff] at met
      obtain ⟨middle, metFirst, metRest⟩ := met
      exact
        inductionHypothesis metRest
          (keeps face List.mem_cons_self before middle metFirst first)
          (fun other member =>
            keeps other (List.mem_cons_of_mem face member))

/-- What holds at first, and each face keeps, is true of a crossing. -/
theorem holds_of_ofFaces?
    (holds : Crossing S → Prop)
    (met : ofFaces? motion faces = some crossing)
    (first : holds initial)
    (keeps :
      ∀ face ∈ faces, ∀ before after,
        before.meet? motion face = some after →
          holds before → holds after) :
    holds crossing :=
  holds_of_foldlM holds met first keeps

/-- So is what holds after one of the faces, and each face keeps. -/
theorem holds_of_mem_faces
    (holds : Crossing S → Prop)
    (met : ofFaces? motion faces = some crossing)
    (member : face ∈ faces)
    (holdsAfter :
      ∀ before after : Crossing S,
        before.meet? motion face = some after → holds after)
    (keeps :
      ∀ face ∈ faces, ∀ before after,
        before.meet? motion face = some after →
          holds before → holds after) :
    holds crossing := by
  obtain ⟨earlier, later, shape⟩ := List.append_of_mem member
  subst shape
  rw [ofFaces?, List.foldlM_append, Option.bind_eq_bind,
    Option.bind_eq_some_iff] at met
  obtain ⟨before, _, met⟩ := met
  rw [List.foldlM_cons, Option.bind_eq_bind, Option.bind_eq_some_iff] at met
  obtain ⟨after, metFace, metLater⟩ := met
  refine
    holds_of_foldlM holds metLater (holdsAfter before after metFace) ?_
  intro other inLater
  exact
    keeps other
      (List.mem_append_right earlier (List.mem_cons_of_mem face inLater))

/-- A brush is met unless one of its faces leaves it unmet. -/
theorem ofFaces?_cases
    (motion : Motion S)
    (faces : List (Face S)) :
    (∃ crossing, ofFaces? motion faces = some crossing) ∨
      ∃ face ∈ faces, ∃ before : Crossing S,
        before.meet? motion face = none := by
  unfold ofFaces?
  generalize (initial : Crossing S) = start
  induction faces generalizing start with
  | nil =>
      exact .inl ⟨start, rfl⟩
  | cons face rest inductionHypothesis =>
      rw [List.foldlM_cons]
      cases met : start.meet? motion face with
      | none =>
          exact .inr ⟨face, List.mem_cons_self, start, met⟩
      | some middle =>
          rcases inductionHypothesis middle with
              isMet | ⟨other, member, before, unmet⟩
          · exact .inl isMet
          · exact
              .inr ⟨other, List.mem_cons_of_mem face member, before, unmet⟩

/-- What is noted of each face that passes a test is known if one of them passes it. -/
theorem noted_iff
    {noted : Crossing S → Bool}
    {passes : Face S → Prop} [DecidablePred passes]
    (met : ofFaces? motion faces = some crossing)
    (first : noted initial = false)
    (notes :
      ∀ face before after,
        before.meet? motion face = some after →
          noted after = (noted before || decide (passes face))) :
    noted crossing = true ↔ ∃ face ∈ faces, passes face := by
  constructor
  · refine
      holds_of_ofFaces?
        (fun crossing : Crossing S =>
          noted crossing = true → ∃ face ∈ faces, passes face)
        met ?_ ?_
    · rw [first]
      exact fun isNoted => by cases isNoted
    · intro face member before after metFace known isNoted
      rw [notes face before after metFace, Bool.or_eq_true,
        decide_eq_true_eq] at isNoted
      rcases isNoted with before | now
      · exact known before
      · exact ⟨face, member, now⟩
  · rintro ⟨face, member, now⟩
    refine
      holds_of_mem_faces
        (fun crossing : Crossing S => noted crossing = true) met member ?_ ?_
    · intro before after metFace
      rw [notes face before after metFace, decide_eq_true now, Bool.or_true]
    · intro other _ before after metOther isNoted
      rw [notes other before after metOther, isNoted, Bool.true_or]

/-- A motion is known to start outside when it is in front of a face that was met. -/
theorem startOutside_iff
    (met : ofFaces? motion faces = some crossing) :
    crossing.startOutside = true ↔
      ∃ face ∈ faces, 0 < motion.startDist face := by
  refine noted_iff met rfl fun face before after metFace => ?_
  rw [← (meet?_eq_some_iff.mp metFace).2, startOutside_meet]

/-- It is known to end outside when its end is in front of such a face. -/
theorem endOutside_iff
    (met : ofFaces? motion faces = some crossing) :
    crossing.endOutside = true ↔
      ∃ face ∈ faces, 0 < motion.stopDist face := by
  refine noted_iff met rfl fun face before after metFace => ?_
  rw [← (meet?_eq_some_iff.mp metFace).2, endOutside_meet]

/--
The face of the latest entry is a face of the brush that the motion comes nearer to. The
entry is counted `distEpsilon` before it.
-/
structure Leads
    (crossing : Crossing S)
    (face : Face S)
    (motion : Motion S)
    (faces : List (Face S)) : Prop where
  isFace :
    face ∈ faces
  enter :
    crossing.enter =
      (motion.startDist face - Scalar.distEpsilon) /
        (motion.startDist face - motion.stopDist face)
  approaches :
    motion.stopDist face < motion.startDist face
  notBehind :
    ¬(motion.startDist face ≤ 0 ∧ motion.stopDist face ≤ 0)

theorem leads_of_lead
    (met : ofFaces? motion faces = some crossing)
    (isLead : crossing.lead = some face) :
    crossing.Leads face motion faces := by
  have eachLeads :
      ∀ lead ∈ crossing.lead, crossing.Leads lead motion faces := by
    refine
      holds_of_ofFaces?
        (fun crossing =>
          ∀ lead ∈ crossing.lead, crossing.Leads lead motion faces)
        met ?_ ?_
    · intro lead isLead
      cases isLead
    · intro face member before after metFace leads lead isLead
      rw [← (meet?_eq_some_iff.mp metFace).2] at isLead ⊢
      rcases before.enter_meet_cases face (motion.startDist face)
          (motion.stopDist face) with
          ⟨sameLead, sameEnter⟩ | ⟨isFace, enter, approaches, notBehind⟩
      · rw [sameLead] at isLead
        have led := leads lead isLead
        exact { led with enter := sameEnter.trans led.enter }
      · rw [isFace] at isLead
        cases isLead
        exact ⟨member, enter, approaches, notBehind⟩
  exact eachLeads face isLead

/-- Without a face that leads, nothing has delayed the entry. -/
theorem enter_of_lead_none
    (met : ofFaces? motion faces = some crossing)
    (none : crossing.lead = none) :
    crossing.enter = -1 := by
  have unlessLed : crossing.lead = Option.none → crossing.enter = -1 := by
    refine
      holds_of_ofFaces?
        (fun crossing => crossing.lead = Option.none → crossing.enter = -1)
        met ?_ ?_
    · intro _
      rfl
    · intro face _ before after metFace known notLed
      rw [← (meet?_eq_some_iff.mp metFace).2] at notLed ⊢
      rcases before.enter_meet_cases face (motion.startDist face)
          (motion.stopDist face) with ⟨sameLead, sameEnter⟩ | ⟨isFace, _⟩
      · rw [sameEnter]
        exact known (sameLead.symm.trans notLed)
      · rw [isFace] at notLed
        cases notLed
  exact unlessLed none

end Crossing

namespace Motion

variable {S : Type} [Scalar S]

/-- A motion starts in front of none of these faces. -/
def StartsInside
    (motion : Motion S)
    (faces : List (Face S)) : Prop :=
  ∀ face ∈ faces, ¬0 < motion.startDist face

/-- Neither end of a motion is in front of any of these faces. -/
def StaysInside
    (motion : Motion S)
    (faces : List (Face S)) : Prop :=
  ∀ face ∈ faces,
    ¬0 < motion.startDist face ∧ ¬0 < motion.stopDist face

variable {motion : Motion S} {faces : List (Face S)}

theorem StaysInside.startsInside
    (stays : motion.StaysInside faces) :
    motion.StartsInside faces :=
  fun face member => (stays face member).1

/-- A motion starts inside a brush that was met if nothing else was noted. -/
theorem startsInside_iff
    {crossing : Crossing S}
    (met : Crossing.ofFaces? motion faces = some crossing) :
    motion.StartsInside faces ↔ crossing.startOutside = false := by
  rw [← Bool.not_eq_true, Crossing.startOutside_iff met]
  simp only [StartsInside, not_exists, not_and]

theorem staysInside_iff
    {crossing : Crossing S}
    (met : Crossing.ofFaces? motion faces = some crossing) :
    motion.StaysInside faces ↔
      crossing.startOutside = false ∧ crossing.endOutside = false := by
  rw [← startsInside_iff met, ← Bool.not_eq_true, Crossing.endOutside_iff met]
  simp only [StaysInside, StartsInside, not_exists, not_and, forall_and]

/-- A motion does not start inside a brush that it never meets. -/
theorem not_startsInside_of_unmet
    (unmet : Crossing.ofFaces? motion faces = none) :
    ¬motion.StartsInside faces := by
  intro inside
  rcases Crossing.ofFaces?_cases motion faces with
      ⟨crossing, met⟩ | ⟨face, member, _, unmetFace⟩
  · rw [unmet] at met
    cases met
  · exact
      inside face member (Crossing.inFront_of_meet?_eq_none unmetFace).1

end Motion

namespace Trace

variable {S : Type}

theorem fraction_noteStart
    (trace : Trace S)
    (crossing : Crossing S)
    (leaf : Nat) :
    (trace.noteStart crossing leaf).fraction = trace.fraction := by
  unfold noteStart
  split <;> rfl

theorem startSolid_noteStart
    (trace : Trace S)
    (crossing : Crossing S)
    (leaf : Nat) :
    (trace.noteStart crossing leaf).startSolid =
      (trace.startSolid || !crossing.startOutside) := by
  unfold noteStart
  cases crossing.startOutside with
  | true =>
      exact (Bool.or_false _).symm
  | false =>
      exact (Bool.or_true _).symm

theorem allSolid_noteStart
    (trace : Trace S)
    (crossing : Crossing S)
    (leaf : Nat) :
    (trace.noteStart crossing leaf).allSolid =
      (trace.allSolid || !crossing.startOutside && !crossing.endOutside) := by
  unfold noteStart
  cases crossing.startOutside with
  | true =>
      exact (Bool.or_false _).symm
  | false =>
      rfl

variable [Scalar S]

theorem startSolid_stopAt
    (trace : Trace S)
    (crossing : Crossing S)
    (contents : Contents)
    (leaf : Nat) :
    (trace.stopAt crossing contents leaf).startSolid = trace.startSolid := by
  unfold stopAt
  split
  · split <;> rfl
  · rfl

/-- To be clipped to a brush is to be found inside it if the motion starts inside. -/
theorem startSolid_clip
    (trace : Trace S)
    (motion : Motion S)
    (contents : Contents)
    (faces : List (Face S))
    (leaf : Nat) :
    (trace.clip motion contents faces leaf).startSolid = true ↔
      trace.startSolid = true ∨ motion.StartsInside faces := by
  unfold clip
  split
  · rename_i crossing met
    rw [startSolid_stopAt, startSolid_noteStart, Bool.or_eq_true,
      Bool.not_eq_true', Motion.startsInside_iff met]
  · rename_i unmet
    exact (or_iff_left (Motion.not_startsInside_of_unmet unmet)).symm

theorem allSolid_stopAt
    (trace : Trace S)
    (crossing : Crossing S)
    (contents : Contents)
    (leaf : Nat) :
    (trace.stopAt crossing contents leaf).allSolid = trace.allSolid := by
  unfold stopAt
  split
  · split <;> rfl
  · rfl

/-- It is to be found inside it all the way if the motion stays inside. -/
theorem allSolid_clip_iff
    {trace : Trace S}
    {motion : Motion S}
    {contents : Contents}
    {faces : List (Face S)}
    {leaf : Nat} :
    (trace.clip motion contents faces leaf).allSolid = true ↔
      trace.allSolid = true ∨ motion.StaysInside faces := by
  unfold clip
  split
  · rename_i crossing met
    rw [allSolid_stopAt, allSolid_noteStart, Bool.or_eq_true,
      Bool.and_eq_true, Bool.not_eq_true', Bool.not_eq_true',
      Motion.staysInside_iff met]
  · rename_i unmet
    have notInside : ¬motion.StaysInside faces :=
      fun stays => Motion.not_startsInside_of_unmet unmet stays.startsInside
    exact (or_iff_left notInside).symm

/-- A brush that is never met leaves a trace as it is. -/
theorem clip_of_unmet
    {motion : Motion S}
    {contents : Contents}
    {faces : List (Face S)}
    {leaf : Nat}
    (unmet : Crossing.ofFaces? motion faces = none)
    (trace : Trace S) :
    trace.clip motion contents faces leaf = trace := by
  simp only [clip, unmet]

/-- A motion that starts outside of a brush is only stopped by it. -/
theorem clip_of_outside
    {motion : Motion S}
    {contents : Contents}
    {faces : List (Face S)}
    {leaf : Nat}
    {crossing : Crossing S}
    (outside : ¬motion.StartsInside faces)
    (met : Crossing.ofFaces? motion faces = some crossing)
    (trace : Trace S) :
    trace.clip motion contents faces leaf =
      trace.stopAt crossing contents leaf := by
  have inFront : crossing.startOutside = true := by
    rw [← Bool.not_eq_false, ← Motion.startsInside_iff met]
    exact outside
  simp only [clip, met, noteStart, inFront, ↓reduceIte]

end Trace

end LevelCollision

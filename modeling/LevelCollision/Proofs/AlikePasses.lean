import LevelCollision.Proofs.AreaQueries
import LevelCollision.Proofs.FloodReach

namespace LevelCollision

/-!
# Passes that number areas alike

Two passes with the same portals open give the same numbers to what inner areas reach,
whatever labels they begin with. This needs that neither of them takes a label that it
begins with for one of its own.
-/

section

variable {S : Type} {records : Records S} {isOpen : Nat → Bool}

namespace AreaState

variable {within : Nat → Prop} {clusterCount steps floods next : Nat}
variable {firstPass secondPass : UInt32} {firstOpen secondOpen : Array Bool}
variable {firstLabels secondLabels : Array AreaLabel}
variable {firstAfter secondAfter : Array AreaLabel}

/-- Two passes have come to the same area and have numbered areas alike so far. -/
structure Alike
    (records : Records S)
    (isOpen : Nat → Bool)
    (within : Nat → Prop)
    (firstPass secondPass : UInt32)
    (floods next : Nat)
    (firstLabels secondLabels : Array AreaLabel) : Prop where
  first :
    UpTo records isOpen within firstPass floods next firstLabels
  second :
    UpTo records isOpen within secondPass floods next secondLabels
  sameFlood :
    ∀ area firstLabel secondLabel,
      within area →
        firstLabels[area]? = some firstLabel →
          secondLabels[area]? = some secondLabel →
            firstLabel.pass = firstPass →
              secondLabel.pass = secondPass →
                firstLabel.flood = secondLabel.flood

/-- What one of them has labelled the other one has labelled too. -/
theorem Alike.labelled_iff
    (alike :
      Alike records isOpen within firstPass secondPass floods next
        firstLabels secondLabels)
    {area : Nat}
    (inside : within area)
    {firstLabel secondLabel : AreaLabel}
    (foundFirst : firstLabels[area]? = some firstLabel)
    (foundSecond : secondLabels[area]? = some secondLabel) :
    firstLabel.pass = firstPass ↔ secondLabel.pass = secondPass := by
  have labelled :=
    (alike.first.labelled_iff area inside).trans
      (alike.second.labelled_iff area inside).symm
  simpa only [foundFirst, foundSecond, Option.some.injEq,
    exists_eq_left'] using labelled

/-- When both flood from the area that they have come to they stay alike. -/
theorem Alike.spread
    (alike :
      Alike records isOpen within firstPass secondPass floods next
        firstLabels secondLabels)
    (closed : records.Closed clusterCount)
    (firstFlags : openFlag firstOpen = isOpen)
    (secondFlags : openFlag secondOpen = isOpen)
    (inside : 1 ≤ next)
    (inRange : next < records.areas.size)
    (firstSpreads :
      AreaState.spread records firstOpen ⟨floods + 1, firstPass⟩ steps next
          firstLabels =
        .ok firstAfter)
    (secondSpreads :
      AreaState.spread records secondOpen ⟨floods + 1, secondPass⟩ steps next
          secondLabels =
        .ok secondAfter) :
    Alike records isOpen within firstPass secondPass (floods + 1) (next + 1)
      firstAfter secondAfter := by
  obtain ⟨first, second, sameFlood⟩ := alike
  have nextInside := first.inner next inside
  have stays := first.stays
  subst firstFlags
  have reachesAlike
      {area : Nat} :
      records.Reaches (openFlag secondOpen) next area ↔
        records.Reaches (openFlag firstOpen) next area := by
    rw [secondFlags]
  rw [← secondFlags] at second
  have secondLater := second.spread closed inside inRange secondSpreads
  rw [secondFlags] at secondLater
  refine ⟨first.spread closed inside inRange firstSpreads, secondLater, ?_⟩
  intro area firstLabel secondLabel areaInside foundFirst foundSecond
  by_cases reaches : records.Reaches (openFlag firstOpen) next area
  · rw [first.numbered.labelled_of_spread stays nextInside firstSpreads
      reaches, Option.some.injEq] at foundFirst
    rw [second.numbered.labelled_of_spread second.stays nextInside
      secondSpreads (reachesAlike.mpr reaches),
      Option.some.injEq] at foundSecond
    intro _ _
    rw [← foundFirst, ← foundSecond]
  · rw [getElem?_eq_of_spread firstSpreads reaches] at foundFirst
    rw [getElem?_eq_of_spread secondSpreads
      (fun reachesSecond => reaches (reachesAlike.mp reachesSecond))]
      at foundSecond
    exact
      sameFlood area firstLabel secondLabel areaInside foundFirst foundSecond

/-- So they do until both have come to the end. -/
theorem Alike.floodFrom
    (alike :
      Alike records isOpen within firstPass secondPass floods next
        firstLabels secondLabels)
    (closed : records.Closed clusterCount)
    (firstFlags : openFlag firstOpen = isOpen)
    (secondFlags : openFlag secondOpen = isOpen)
    (inside : 1 ≤ next)
    {count : Nat}
    (inRange : count ≤ records.areas.size - next)
    (firstFloods :
      AreaState.floodFrom records firstOpen firstPass
          (List.range' next count) floods firstLabels =
        .ok firstAfter)
    (secondFloods :
      AreaState.floodFrom records secondOpen secondPass
          (List.range' next count) floods secondLabels =
        .ok secondAfter) :
    ∃ total,
      Alike records isOpen within firstPass secondPass total (next + count)
        firstAfter secondAfter := by
  induction count generalizing next floods firstLabels secondLabels with
  | zero =>
      cases firstFloods
      cases secondFloods
      exact ⟨floods, alike⟩
  | succ count inductionHypothesis =>
      have nextInRange : next < records.areas.size := by
        omega
      have restInRange : count ≤ records.areas.size - (next + 1) := by
        omega
      have nextInside := alike.first.inner next inside
      rw [List.range'_succ] at firstFloods secondFloods
      unfold AreaState.floodFrom at firstFloods secondFloods
      obtain ⟨firstLabel, foundFirst, firstFloods⟩ :=
        bind_eq_ok_iff.mp firstFloods
      obtain ⟨secondLabel, foundSecond, secondFloods⟩ :=
        bind_eq_ok_iff.mp secondFloods
      rw [lookup_eq_ok_iff] at foundFirst foundSecond
      have labelled :=
        alike.labelled_iff nextInside foundFirst foundSecond
      have sameEnd : next + (count + 1) = next + 1 + count := by
        omega
      rw [sameEnd]
      by_cases isLabelled : firstLabel.pass = firstPass
      · have secondLabelled := labelled.mp isLabelled
        rw [if_pos isLabelled] at firstFloods
        rw [if_pos secondLabelled] at secondFloods
        have later :
            Alike records isOpen within firstPass secondPass floods (next + 1)
              firstLabels secondLabels :=
          { alike with
            first := alike.first.passOver inside foundFirst isLabelled
            second := alike.second.passOver inside foundSecond secondLabelled }
        exact
          inductionHypothesis later (Nat.succ_pos next) restInRange firstFloods
            secondFloods
      · have secondFresh := mt labelled.mpr isLabelled
        rw [if_neg isLabelled] at firstFloods
        rw [if_neg secondFresh] at secondFloods
        obtain ⟨firstMiddle, firstSpreads, firstFloods⟩ :=
          bind_eq_ok_iff.mp firstFloods
        obtain ⟨secondMiddle, secondSpreads, secondFloods⟩ :=
          bind_eq_ok_iff.mp secondFloods
        have later :=
          alike.spread closed firstFlags secondFlags inside nextInRange
            firstSpreads secondSpreads
        exact
          inductionHypothesis later (Nat.succ_pos next) restInRange firstFloods
            secondFloods

/-- After two such passes what an inner area reaches has the same number in both. -/
theorem floodOf_eq_of_reflows
    {first second firstEnd secondEnd : AreaState}
    (closed : records.Closed clusterCount)
    (firstFlags : openFlag first.portalOpen = isOpen)
    (secondFlags : openFlag second.portalOpen = isOpen)
    (firstUpTo :
      UpTo records isOpen within (first.pass + 1) 0 1 first.labels)
    (secondUpTo :
      UpTo records isOpen within (second.pass + 1) 0 1 second.labels)
    (firstFlowed : first.reflow records = .ok firstEnd)
    (secondFlowed : second.reflow records = .ok secondEnd)
    {root area : Nat}
    (rootInside : 1 ≤ root)
    (rootInRange : root < records.areas.size)
    (reaches : records.Reaches isOpen root area) :
    firstEnd.floodOf area = secondEnd.floodOf area := by
  obtain ⟨firstLabels, firstFloods, made⟩ := bind_eq_ok_iff.mp firstFlowed
  cases made
  obtain ⟨secondLabels, secondFloods, made⟩ := bind_eq_ok_iff.mp secondFlowed
  cases made
  have nothingYet :
      Alike records isOpen within (first.pass + 1) (second.pass + 1) 0 1
        first.labels second.labels := by
    refine ⟨firstUpTo, secondUpTo, ?_⟩
    intro area label _ areaInside found _ samePass
    obtain ⟨earlier, earlierInside, isEarlier, _⟩ :=
      (firstUpTo.labelled_iff area areaInside).mp ⟨label, found, samePass⟩
    exact absurd isEarlier (Nat.not_lt.mpr earlierInside)
  obtain ⟨total, alike⟩ :=
    nothingYet.floodFrom closed firstFlags secondFlags (Nat.le_refl 1)
      (Nat.le_refl (records.areas.size - 1)) firstFloods secondFloods
  have areaInside :=
    firstUpTo.stays.reaches (firstUpTo.inner root rootInside) reaches
  have areaInRange := Records.Reaches.lt_size closed rootInRange reaches
  have beforeEnd : root < 1 + (records.areas.size - 1) := by
    omega
  obtain ⟨firstLabel, foundFirst, firstLabelled⟩ :=
    (alike.first.labelled_iff area areaInside).mpr
      ⟨root, rootInside, beforeEnd, areaInRange, reaches⟩
  obtain ⟨secondLabel, foundSecond, secondLabelled⟩ :=
    (alike.second.labelled_iff area areaInside).mpr
      ⟨root, rootInside, beforeEnd, areaInRange, reaches⟩
  have sameFlood :=
    alike.sameFlood area firstLabel secondLabel areaInside foundFirst
      foundSecond firstLabelled secondLabelled
  rw [floodOf, floodOf, foundFirst, foundSecond, Option.map_some,
    Option.map_some, sameFlood]

end AreaState

end

end LevelCollision

import Mathlib.Data.Finset.Card
import LevelCollision.Proofs.AreaFloods
import LevelCollision.World

namespace LevelCollision

/-!
# How floods end

On closed records a flood does not run out of steps: each of them labels an area that
was fresh, and there are no more areas than steps. All that can stop a flood is an
area of another flood of the same pass, and while all portals are closed it does not
come to one.
-/

/-- The fault of a flood that comes to an area of another one. -/
inductive Fault.IsReflood : Fault → Prop where
  | meets
      (area flood previous : Nat) :
      IsReflood (.reflooded area flood previous)

section

variable {S : Type}

namespace AreaState

section Fresh

variable {records : Records S} {pass : UInt32} {label : AreaLabel}
variable {labels : Array AreaLabel}

/-- The areas that have no label of a pass. -/
def freshAreas
    (pass : UInt32)
    (labels : Array AreaLabel) : Finset Nat :=
  (Finset.range labels.size).filter fun area =>
    labels[area]?.any (·.pass != pass)

theorem mem_freshAreas_iff
    {area : Nat} :
    area ∈ freshAreas pass labels ↔
      ∃ label, labels[area]? = some label ∧ label.pass ≠ pass := by
  rw [freshAreas, Finset.mem_filter, Finset.mem_range]
  constructor
  · rintro ⟨inRange, isFresh⟩
    rw [Array.getElem?_eq_getElem inRange] at isFresh ⊢
    exact ⟨_, rfl, bne_iff_ne.mp isFresh⟩
  · rintro ⟨label, found, isFresh⟩
    refine ⟨(Array.getElem?_eq_some_iff.mp found).1, ?_⟩
    rw [found]
    exact bne_iff_ne.mpr isFresh

theorem card_freshAreas_le
    (pass : UInt32)
    (labels : Array AreaLabel) :
    (freshAreas pass labels).card ≤ labels.size := by
  refine le_trans (Finset.card_filter_le _ _) ?_
  rw [Finset.card_range]

/-- No area becomes fresh while a flood passes on its label. -/
theorem Grows.freshAreas_subset
    {isOpen : Nat → Bool}
    {within : Nat → Prop}
    {before after : Array AreaLabel}
    (grows : Grows records isOpen label within before after) :
    freshAreas label.pass after ⊆ freshAreas label.pass before := by
  intro area member
  obtain ⟨entry, found, isFresh⟩ := mem_freshAreas_iff.mp member
  rcases grows.origin area with same | ⟨labelled, _⟩
  · exact mem_freshAreas_iff.mpr ⟨entry, same.symm.trans found, isFresh⟩
  · rw [found, Option.some.injEq] at labelled
    rw [labelled] at isFresh
    exact absurd rfl isFresh

/-- A fresh area that is labelled leaves fewer of them. -/
theorem card_freshAreas_setIfInBounds_lt
    {area : Nat}
    (member : area ∈ freshAreas label.pass labels) :
    (freshAreas label.pass (labels.setIfInBounds area label)).card <
      (freshAreas label.pass labels).card := by
  obtain ⟨previous, found, _⟩ := mem_freshAreas_iff.mp member
  have inRange := (Array.getElem?_eq_some_iff.mp found).1
  have labelled :
      area ∉ freshAreas label.pass (labels.setIfInBounds area label) := by
    intro isFresh
    obtain ⟨entry, foundEntry, differs⟩ := mem_freshAreas_iff.mp isFresh
    rw [Array.getElem?_setIfInBounds_self_of_lt inRange,
      Option.some.injEq] at foundEntry
    rw [foundEntry] at differs
    exact differs rfl
  refine Finset.card_lt_card (Finset.ssubset_iff_subset_ne.mpr ⟨?_, ?_⟩)
  · intro other isFresh
    obtain ⟨entry, foundEntry, differs⟩ := mem_freshAreas_iff.mp isFresh
    have elsewhere : area ≠ other := by
      rintro rfl
      exact labelled isFresh
    rw [Array.getElem?_setIfInBounds_ne elsewhere] at foundEntry
    exact mem_freshAreas_iff.mpr ⟨entry, foundEntry, differs⟩
  · intro same
    rw [same] at labelled
    exact labelled member

/-- There is a label for every area, and a step for every fresh one. -/
structure HasSteps
    (records : Records S)
    (pass : UInt32)
    (steps : Nat)
    (labels : Array AreaLabel) : Prop where
  size :
    labels.size = records.areas.size
  enough :
    (freshAreas pass labels).card ≤ steps

/-- There are never more fresh areas than areas. -/
theorem hasSteps_of_size
    (size : labels.size = records.areas.size)
    (pass : UInt32) :
    HasSteps records pass records.areas.size labels where
  size := size
  enough := by
    rw [← size]
    exact card_freshAreas_le pass labels

theorem HasSteps.grows
    {steps : Nat}
    {isOpen : Nat → Bool}
    {within : Nat → Prop}
    {after : Array AreaLabel}
    (hasSteps : HasSteps records label.pass steps labels)
    (grows : Grows records isOpen label within labels after) :
    HasSteps records label.pass steps after where
  size := grows.size.trans hasSteps.size
  enough :=
    le_trans (Finset.card_le_card grows.freshAreas_subset) hasSteps.enough

/-- Labelling a fresh area takes one step. -/
theorem HasSteps.setIfInBounds
    {steps area : Nat}
    (hasSteps : HasSteps records label.pass (steps + 1) labels)
    (member : area ∈ freshAreas label.pass labels) :
    HasSteps records label.pass steps (labels.setIfInBounds area label) where
  size := Array.size_setIfInBounds.trans hasSteps.size
  enough :=
    Nat.le_of_lt_succ
      (Nat.lt_of_lt_of_le (card_freshAreas_setIfInBounds_lt member)
        hasSteps.enough)

end Fresh

section Faults

variable {records : Records S} {portalOpen : Array Bool} {label : AreaLabel}
variable {clusterCount steps area : Nat} {labels after : Array AreaLabel}
variable {fault : Fault}

/-- The portals of an area are looked up. -/
theorem exists_portals
    (closed : records.Closed clusterCount)
    (inRange : area < records.areas.size) :
    ∃ portals,
      lookupSpan records.areaPortals records.areas[area].portals =
          .ok portals ∧
        ∀ portal ∈ portals, portal ∈ records.areaPortals := by
  have stop := closed.areaPortals _ (Array.getElem_mem inRange)
  have found := lookupSpan_eq_ok_iff.mpr ⟨stop, rfl⟩
  exact ⟨_, found, fun _ member => mem_of_mem_lookupSpan found member⟩

/-- The fault is that of a flood at an area of another flood of the same pass. -/
def MeetsAt
    (labels : Array AreaLabel)
    (label : AreaLabel)
    (area : Nat)
    (fault : Fault) : Prop :=
  ∃ entry,
    labels[area]? = some entry ∧
      entry.pass = label.pass ∧
      entry.flood ≠ label.flood ∧
      fault = .reflooded area label.flood entry.flood

theorem MeetsAt.isReflood
    (meets : MeetsAt labels label area fault) :
    fault.IsReflood := by
  obtain ⟨entry, _, _, _, rfl⟩ := meets
  exact .meets area label.flood entry.flood

/-- Only labels of the flood itself are new, and it does not stop at those. -/
theorem Grows.meetsAt
    {isOpen : Nat → Bool}
    {within : Nat → Prop}
    (grows : Grows records isOpen label within labels after)
    (meets : MeetsAt after label area fault) :
    MeetsAt labels label area fault := by
  obtain ⟨entry, found, samePass, differs, shape⟩ := meets
  refine ⟨entry, ?_, samePass, differs, shape⟩
  rcases grows.origin area with same | ⟨isNew, _⟩
  · rw [← same]
    exact found
  · rw [found, Option.some.injEq] at isNew
    exact absurd (congrArg AreaLabel.flood isNew) differs

/-- Nor does it stop at the area that it labels first. -/
theorem meetsAt_of_setIfInBounds
    {start : Nat}
    (meets : MeetsAt (labels.setIfInBounds start label) label area fault) :
    MeetsAt labels label area fault := by
  obtain ⟨entry, found, samePass, differs, shape⟩ := meets
  refine ⟨entry, ?_, samePass, differs, shape⟩
  rw [Array.getElem?_setIfInBounds] at found
  split at found
  · split at found
    · cases found
      exact absurd rfl differs
    · cases found
  · exact found

/-- A flood fails at an area of another flood, or behind a portal of a fresh one. -/
theorem spread_error_cases
    (closed : records.Closed clusterCount)
    (inRange : area < records.areas.size)
    (hasSteps : HasSteps records label.pass steps labels)
    (fails :
      spread records portalOpen label steps area labels = .error fault) :
    MeetsAt labels label area fault ∨
      ∃ (fewer : Nat) (portals : List AreaPortal),
        steps = fewer + 1 ∧
          area ∈ freshAreas label.pass labels ∧
          lookupSpan records.areaPortals records.areas[area].portals =
            .ok portals ∧
          portals.foldlM (spreadThrough records portalOpen label fewer)
              (labels.setIfInBounds area label) =
            .error fault := by
  have inLabels : area < labels.size := by
    rw [hasSteps.size]
    exact inRange
  have foundLabel := Array.getElem?_eq_getElem inLabels
  unfold spread at fails
  rw [lookup_of_lt inLabels, ok_bind] at fails
  by_cases samePass : labels[area].pass = label.pass
  · rw [if_pos samePass] at fails
    split at fails
    · cases fails
    · rename_i differs
      cases fails
      exact .inl ⟨_, foundLabel, samePass, differs, rfl⟩
  · rw [if_neg samePass] at fails
    have isFresh : area ∈ freshAreas label.pass labels :=
      mem_freshAreas_iff.mpr ⟨_, foundLabel, samePass⟩
    cases steps with
    | zero =>
        exact
          absurd (Finset.card_pos.mpr ⟨area, isFresh⟩)
            (Nat.not_lt.mpr hasSteps.enough)
    | succ fewer =>
        obtain ⟨portals, found, _⟩ := exists_portals closed inRange
        dsimp only at fails
        rw [lookup_of_lt inRange, ok_bind, found, ok_bind] at fails
        exact .inr ⟨fewer, portals, rfl, isFresh, found, fails⟩

/-- Going through a portal leaves steps for the fresh areas and adds its own label. -/
theorem grows_of_spreadThrough
    {portal : AreaPortal}
    (through :
      spreadThrough records portalOpen label steps labels portal =
        .ok after) :
    Grows records (openFlag portalOpen) label (fun _ => True) labels
      after := by
  rcases spreadThrough_cases through with ⟨_, rfl⟩ | ⟨_, spreads⟩
  · exact .refl
  · exact (grows_of_spread spreads).1.widen fun _ _ => True.intro

/--
A flood with a step for every fresh area ends, or comes to an area of another flood of
its pass.
-/
theorem exists_meetsAt_of_spread
    (closed : records.Closed clusterCount)
    (flagCount : portalOpen.size = records.areaPortals.size + 1)
    (inRange : area < records.areas.size)
    (hasSteps : HasSteps records label.pass steps labels)
    (fails :
      spread records portalOpen label steps area labels = .error fault) :
    ∃ other,
      records.Reaches (openFlag portalOpen) area other ∧
        MeetsAt labels label other fault := by
  induction steps generalizing area labels with
  | zero =>
      rcases spread_error_cases closed inRange hasSteps fails with
          meets | ⟨_, _, noSteps, _⟩
      · exact ⟨area, .refl, meets⟩
      · cases noSteps
  | succ steps inductionHypothesis =>
      rcases spread_error_cases closed inRange hasSteps fails with
          meets | ⟨fewer, portals, sameSteps, isFresh, found, folded⟩
      · exact ⟨area, .refl, meets⟩
      · cases sameSteps
        -- Before each portal there are steps left, and only own labels are new.
        have kept :
            ∀ portal ∈ portals, ∀ before after,
              HasSteps records label.pass steps before ∧
                  (∀ other, MeetsAt before label other fault →
                    MeetsAt labels label other fault) →
                spreadThrough records portalOpen label steps before portal =
                    .ok after →
                  HasSteps records label.pass steps after ∧
                    ∀ other, MeetsAt after label other fault →
                      MeetsAt labels label other fault := by
          rintro portal _ before after ⟨beforeSteps, added⟩ through
          have grows := grows_of_spreadThrough through
          exact
            ⟨beforeSteps.grows grows,
              fun other meets => added other (grows.meetsAt meets)⟩
        obtain ⟨portal, member, middle, ⟨middleSteps, added⟩, failsThrough⟩ :=
          exists_error_of_foldlM kept
            ⟨hasSteps.setIfInBounds isFresh,
              fun _ => meetsAt_of_setIfInBounds⟩
            folded
        have isPortal := mem_of_mem_lookupSpan found member
        have hasFlag : portal.number < portalOpen.size := by
          rw [flagCount]
          exact Nat.lt_succ_of_le (closed.portalNumber portal isPortal)
        have foundFlag := lookup_of_lt hasFlag
        rw [spreadThrough, foundFlag, ok_bind] at failsThrough
        split at failsThrough
        · rename_i isOpen
          obtain ⟨other, reaches, meets⟩ :=
            inductionHypothesis (closed.portalArea portal isPortal)
              middleSteps failsThrough
          have leads : records.Leads (openFlag portalOpen) area _ :=
            Records.leads_of_mem_portals
              (Array.getElem?_eq_getElem inRange) found member
              ((openFlag_eq_of_lookup foundFlag).trans isOpen)
          exact ⟨other, .head leads reaches, added other meets⟩
        · cases failsThrough

theorem isReflood_of_floodFrom
    (closed : records.Closed clusterCount)
    (flagCount : portalOpen.size = records.areaPortals.size + 1)
    {pass : UInt32}
    {areas : List Nat}
    {floods : Nat}
    (inRange : ∀ area ∈ areas, area < records.areas.size)
    (size : labels.size = records.areas.size)
    (fails :
      floodFrom records portalOpen pass areas floods labels =
        .error fault) :
    fault.IsReflood := by
  induction areas generalizing floods labels with
  | nil =>
      cases fails
  | cons area rest inductionHypothesis =>
      have areaInRange := inRange area List.mem_cons_self
      have restInRange : ∀ other ∈ rest, other < records.areas.size := by
        intro other member
        exact inRange other (List.mem_cons_of_mem area member)
      have inLabels : area < labels.size := by
        rw [size]
        exact areaInRange
      unfold floodFrom at fails
      rw [lookup_of_lt inLabels, ok_bind] at fails
      split at fails
      · exact inductionHypothesis restInRange size fails
      · rcases bind_eq_error_iff.mp fails with
            failsHere | ⟨middle, spreads, failsLater⟩
        · obtain ⟨other, _, meets⟩ :=
            exists_meetsAt_of_spread closed flagCount areaInRange
              (hasSteps_of_size size pass) failsHere
          exact meets.isReflood
        · have middleSize := (grows_of_spread spreads).1.size
          exact
            inductionHypothesis restInRange (middleSize.trans size)
              failsLater

/-- The areas that a pass goes through. -/
theorem lt_size_of_mem_range
    {count area : Nat}
    (member : area ∈ List.range' 1 (count - 1)) :
    area < count := by
  have bounds := List.mem_range'_1.mp member
  omega

/-- A pass over closed records ends, or one of its floods comes to another. -/
theorem isReflood_of_reflow
    {state : AreaState}
    (closed : records.Closed clusterCount)
    (flagCount : state.portalOpen.size = records.areaPortals.size + 1)
    (size : state.labels.size = records.areas.size)
    (fails : state.reflow records = .error fault) :
    fault.IsReflood := by
  rcases bind_eq_error_iff.mp fails with flooded | ⟨_, _, noFault⟩
  · exact
      isReflood_of_floodFrom closed flagCount
        (fun _ => lt_size_of_mem_range) size flooded
  · cases noFault

end Faults

section Portals

variable {records : Records S} {state : AreaState} {portal : Nat}

/-- To open or close portals that exist is to label the areas anew. -/
theorem setPortal_of_le
    (flagCount : state.portalOpen.size = records.areaPortals.size + 1)
    (inRange : portal ≤ records.areaPortals.size)
    (isOpen : Bool) :
    state.setPortal records portal isOpen =
      reflow
        { state with
          portalOpen := state.portalOpen.setIfInBounds portal isOpen }
        records := by
  have hasFlag : portal < state.portalOpen.size := by
    rw [flagCount]
    exact Nat.lt_succ_of_le inRange
  rw [setPortal, checkPortal, if_pos inRange, ok_bind, store_of_lt hasFlag,
    ok_bind]

/-- Portals of a number past the last one are refused. -/
theorem setPortal_of_lt
    (outOfRange : records.areaPortals.size < portal)
    (isOpen : Bool) :
    state.setPortal records portal isOpen =
      .error (.badPortal portal records.areaPortals.size) := by
  rw [setPortal, checkPortal, if_neg (Nat.not_le_of_lt outOfRange), error_bind]

end Portals

section AllClosed

variable {records : Records S} {portalOpen : Array Bool} {label : AreaLabel}
variable {clusterCount steps area : Nat} {labels : Array AreaLabel}

/-- A flag for every portal number, and none of them is up. -/
def AllClosed
    (records : Records S)
    (portalOpen : Array Bool) : Prop :=
  ∀ number ≤ records.areaPortals.size, portalOpen[number]? = some false

theorem foldlM_spreadThrough_of_allClosed
    (allClosed : AllClosed records portalOpen)
    {portals : List AreaPortal}
    (numbered :
      ∀ portal ∈ portals, portal.number ≤ records.areaPortals.size) :
    portals.foldlM (spreadThrough records portalOpen label steps) labels =
      .ok labels := by
  induction portals with
  | nil =>
      rfl
  | cons portal rest inductionHypothesis =>
      have isClosed : lookup portalOpen portal.number = .ok false :=
        lookup_eq_ok_iff.mpr
          (allClosed portal.number (numbered portal List.mem_cons_self))
      have stays :
          spreadThrough records portalOpen label steps labels portal =
            .ok labels := by
        rw [spreadThrough, isClosed]
        rfl
      rw [List.foldlM_cons, stays]
      exact
        inductionHypothesis fun other member =>
          numbered other (List.mem_cons_of_mem portal member)

/-- Where all portals are closed a flood labels the area that it starts from. -/
theorem spread_of_allClosed
    (closed : records.Closed clusterCount)
    (allClosed : AllClosed records portalOpen)
    (inRange : area < records.areas.size)
    {previous : AreaLabel}
    (found : labels[area]? = some previous)
    (fresh : previous.pass ≠ label.pass) :
    spread records portalOpen label (steps + 1) area labels =
      .ok (labels.setIfInBounds area label) := by
  obtain ⟨portals, foundPortals, listed⟩ := exists_portals closed inRange
  rw [spread, lookup_eq_ok_iff.mpr found, ok_bind, if_neg fresh,
    lookup_of_lt inRange, ok_bind, foundPortals, ok_bind]
  exact
    foldlM_spreadThrough_of_allClosed allClosed
      fun portal member => closed.portalNumber portal (listed portal member)

theorem exists_floodFrom_of_allClosed
    (closed : records.Closed clusterCount)
    (allClosed : AllClosed records portalOpen)
    {pass : UInt32}
    {areas : List Nat}
    {floods : Nat}
    (inRange : ∀ area ∈ areas, area < records.areas.size)
    (size : labels.size = records.areas.size) :
    ∃ after,
      floodFrom records portalOpen pass areas floods labels = .ok after := by
  induction areas generalizing floods labels with
  | nil =>
      exact ⟨labels, rfl⟩
  | cons area rest inductionHypothesis =>
      have areaInRange := inRange area List.mem_cons_self
      have restInRange : ∀ other ∈ rest, other < records.areas.size := by
        intro other member
        exact inRange other (List.mem_cons_of_mem area member)
      have inLabels : area < labels.size := by
        rw [size]
        exact areaInRange
      unfold floodFrom
      rw [lookup_of_lt inLabels, ok_bind]
      by_cases samePass : labels[area].pass = pass
      · rw [if_pos samePass]
        exact inductionHypothesis restInRange size
      · obtain ⟨fewer, steps⟩ :=
          Nat.exists_eq_succ_of_ne_zero
            (Nat.ne_of_gt (Nat.lt_of_le_of_lt (Nat.zero_le area) areaInRange))
        have spreads :
            spread records portalOpen ⟨floods + 1, pass⟩ (fewer + 1) area
                labels =
              .ok (labels.setIfInBounds area ⟨floods + 1, pass⟩) :=
          spread_of_allClosed closed allClosed areaInRange
            (Array.getElem?_eq_getElem inLabels) samePass
        rw [if_neg samePass, steps, spreads, ok_bind]
        exact
          inductionHypothesis restInRange
            (Array.size_setIfInBounds.trans size)

/-- The first pass over a level ends without a fault. -/
theorem exists_reflow_closed
    (closed : records.Closed clusterCount) :
    ∃ after, (AreaState.closed records).reflow records = .ok after := by
  have allClosed :
      AllClosed records (AreaState.closed records).portalOpen := by
    intro number inRange
    rw [AreaState.closed, Array.getElem?_replicate]
    exact if_pos (Nat.lt_succ_of_le inRange)
  obtain ⟨labels, flooded⟩ :=
    exists_floodFrom_of_allClosed closed allClosed
      (fun _ => lt_size_of_mem_range) Array.size_replicate
  exact ⟨_, bind_eq_ok_iff.mpr ⟨labels, flooded, rfl⟩⟩

end AllClosed

end AreaState

/-- A level is used as it is. -/
theorem World.level_of_ofLevel
    [Scalar S]
    {level : Level S}
    {world : World S}
    (loaded : ofLevel level = .ok world) :
    world.level = level := by
  obtain ⟨areas, _, made⟩ := bind_eq_ok_iff.mp loaded
  cases made
  rfl

/-- A level whose records are closed can be used, with all portals closed. -/
theorem World.exists_ofLevel
    [Scalar S]
    {level : Level S}
    {clusterCount : Nat}
    (closed : level.own.Closed clusterCount) :
    ∃ world, ofLevel level = .ok world ∧ world.level = level := by
  obtain ⟨areas, flowed⟩ := AreaState.exists_reflow_closed closed
  exact ⟨_, bind_eq_ok_iff.mpr ⟨areas, flowed, rfl⟩, rfl⟩

end

end LevelCollision

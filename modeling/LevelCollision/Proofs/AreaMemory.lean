import LevelCollision.Proofs.AlikePasses
import LevelCollision.Proofs.PortalHistory

namespace LevelCollision

/-!
# What areas remember

Among the inner areas the last pass decides which areas are joined, so that histories
which leave the same portals open lead to the same answers. The first area is
different. No flood starts from it, and it keeps the number of the last flood that came
to it. Where no open portal leads to it any more it is taken to be joined to the areas
that have this number now.
-/

namespace Records

variable {S : Type} {records : Records S} {isOpen : Nat → Bool}

/-- An open portal leads from an inner area to the first one. -/
def LeadsOut
    (records : Records S)
    (isOpen : Nat → Bool) : Prop :=
  ∃ area, 1 ≤ area ∧ records.Leads isOpen area 0

/-- None does at any time of a history. -/
def NeverLeadsOut
    (records : Records S)
    (history : List Change) : Prop :=
  ∀ earlier, earlier <+: history → ¬records.LeadsOut (openAfter earlier)

theorem OutsideApart.neverLeadsOut
    (apart : records.OutsideApart)
    (history : List Change) :
    records.NeverLeadsOut history := by
  rintro earlier _ ⟨area, _, leads⟩
  exact Nat.not_succ_le_zero 0 (apart.one_le_of_leads leads)

theorem leadsWithin_of_not_leadsOut
    (staysIn : ¬records.LeadsOut isOpen) :
    records.LeadsWithin isOpen (1 ≤ ·) := by
  intro area next inside leads
  refine Nat.one_le_iff_ne_zero.mpr ?_
  rintro rfl
  exact staysIn ⟨area, inside, leads⟩

end Records

namespace AreaState

variable {S : Type} {records : Records S} {state after : AreaState}
variable {history : List Change}

/-- The areas when a history has set the portals and its last pass is yet to come. -/
structure BeforePass
    (records : Records S)
    (history : List Change)
    (state : AreaState) : Prop where
  fits :
    Fits records state
  current :
    Current records state
  flags :
    openFlag state.portalOpen = openAfter history
  pass :
    state.pass = UInt32.ofNat history.length
  /-- The first area has the label of one of the passes so far, or of none. -/
  outside :
    ∀ label,
      state.labels[0]? = some label →
        ∃ earlier ≤ history.length, label.pass = UInt32.ofNat earlier
  untouched :
    (∀ earlier,
        earlier <+: history → earlier.length < history.length →
          ¬records.LeadsOut (openAfter earlier)) →
      ∀ label, state.labels[0]? = some label → label.flood = 0

theorem beforePass_closed
    (records : Records S) :
    BeforePass records [] (AreaState.closed records) where
  fits := fits_closed records
  current := current_closed
  flags := openFlag_closed records
  pass := rfl
  outside label found := by
    obtain ⟨_, rfl⟩ := Array.getElem?_eq_some_iff.mp found
    exact ⟨0, Nat.le_refl 0, by simp [AreaState.closed]⟩
  untouched _ label found := by
    obtain ⟨_, rfl⟩ := Array.getElem?_eq_some_iff.mp found
    simp [AreaState.closed]

/-- A pass leaves the first area alone if no open portal leads there. -/
theorem label_outside_of_reflow
    (staysIn : ¬records.LeadsOut (openFlag state.portalOpen))
    (flowed : state.reflow records = .ok after) :
    after.labels[0]? = state.labels[0]? := by
  obtain ⟨labels, flooded, made⟩ := bind_eq_ok_iff.mp flowed
  cases made
  refine getElem?_eq_of_floodFrom flooded ?_
  intro area member reaches
  have inside := (List.mem_range'_1.mp member).1
  have outside :=
    (Records.leadsWithin_of_not_leadsOut staysIn).reaches inside reaches
  exact Nat.not_succ_le_zero 0 outside

/-- The pass gives its number to the first area if it labels it. -/
theorem BeforePass.pass_outside
    (before : BeforePass records history state)
    (flowed : state.reflow records = .ok after)
    {label : AreaLabel}
    (found : after.labels[0]? = some label) :
    ∃ earlier ≤ history.length + 1, label.pass = UInt32.ofNat earlier := by
  have nextPass :
      state.pass + 1 = UInt32.ofNat (history.length + 1) := by
    rw [before.pass, UInt32.ofNat_add]
    rfl
  obtain ⟨labels, flooded, made⟩ := bind_eq_ok_iff.mp flowed
  cases made
  rcases (relabels_of_floodFrom flooded).origin 0 with
      same | ⟨flood, isNew⟩
  · obtain ⟨earlier, isEarlier, samePass⟩ :=
      before.outside label (same.symm.trans found)
    exact ⟨earlier, Nat.le_succ_of_le isEarlier, samePass⟩
  · rw [found, Option.some.injEq] at isNew
    subst isNew
    exact ⟨history.length + 1, Nat.le_refl _, nextPass⟩

/-- While no open portal leads out the first area is in no flood. -/
theorem BeforePass.flood_outside
    (before : BeforePass records history state)
    (flowed : state.reflow records = .ok after)
    (staysIn : records.NeverLeadsOut history)
    {label : AreaLabel}
    (found : after.labels[0]? = some label) :
    label.flood = 0 := by
  have staysInNow := staysIn history List.prefix_rfl
  rw [← before.flags] at staysInNow
  rw [label_outside_of_reflow staysInNow flowed] at found
  exact
    before.untouched (fun earlier isPrefix _ => staysIn earlier isPrefix)
      label found

/-- The next change comes after the pass. -/
theorem BeforePass.next
    (before : BeforePass records history state)
    (flowed : state.reflow records = .ok after)
    {change : Change}
    (inRange : change.InRange records) :
    BeforePass records (history ++ [change])
      { after with portalOpen := change.flag after.portalOpen } := by
  obtain ⟨fits, sameFlags, nextPass⟩ := before.fits.reflow flowed
  have current := current_of_reflow before.fits.labelCount flowed
  exact
    { fits :=
        { flagCount := (Change.size_flag change _).trans fits.flagCount
          labelCount := fits.labelCount }
      current := current.setFlags _
      flags := by
        rw [openAfter, List.foldl_concat, ← openAfter, ← before.flags,
          ← sameFlags]
        exact Change.openFlag_flag fits.flagCount inRange
      pass := by
        rw [List.length_append, UInt32.ofNat_add, ← before.pass]
        exact nextPass
      outside := by
        intro label found
        rw [List.length_append]
        exact before.pass_outside flowed found
      untouched := by
        intro staysIn label found
        refine before.flood_outside flowed ?_ found
        intro earlier isPrefix
        refine staysIn earlier (isPrefix.trans (List.prefix_append _ _)) ?_
        rw [List.length_append]
        exact Nat.lt_succ_of_le isPrefix.length_le }

/-- No inner area has the number of the pass that is to come. -/
theorem BeforePass.upTo_inner
    (before : BeforePass records history state)
    (staysIn : ¬records.LeadsOut (openAfter history)) :
    UpTo records (openAfter history) (1 ≤ ·) (state.pass + 1) 0 1
      state.labels :=
  upTo_first before.fits.labelCount (fun _ => id)
    (Records.leadsWithin_of_not_leadsOut staysIn)
    fun _ _ => before.current.stale

/-- Neither has the first one while the numbers of passes have not returned to zero. -/
theorem BeforePass.upTo_all
    (before : BeforePass records history state)
    (short : history.length + 1 < 2 ^ 32) :
    UpTo records (openAfter history) (fun _ => True) (state.pass + 1) 0 1
      state.labels := by
  refine upTo_first before.fits.labelCount (fun _ _ => trivial) ?_ ?_
  · intro _ _ _ _
    trivial
  · intro area label _ found
    rcases Nat.eq_zero_or_pos area with isFirst | inside
    · subst isFirst
      obtain ⟨earlier, isEarlier, samePass⟩ := before.outside label found
      rw [samePass, before.pass]
      intro same
      have numbers := congrArg UInt32.toNat same
      change earlier % 2 ^ 32 = (history.length % 2 ^ 32 + 1) % 2 ^ 32
        at numbers
      omega
    · exact before.current.stale inside found

variable {clusterCount : Nat} {otherHistory : List Change}
variable {other otherAfter : AreaState}

/-- Where the same portals are open in the end an inner area has the same number. -/
theorem BeforePass.floodOf_inner
    (before : BeforePass records history state)
    (otherBefore : BeforePass records otherHistory other)
    (closed : records.Closed clusterCount)
    (samePortals : openAfter history = openAfter otherHistory)
    (fresh :
      ¬records.LeadsOut (openAfter history) ∨
        history.length + 1 < 2 ^ 32 ∧ otherHistory.length + 1 < 2 ^ 32)
    (flowed : state.reflow records = .ok after)
    (otherFlowed : other.reflow records = .ok otherAfter)
    {root area : Nat}
    (rootInside : 1 ≤ root)
    (rootInRange : root < records.areas.size)
    (reaches : records.Reaches (openAfter history) root area) :
    after.floodOf area = otherAfter.floodOf area := by
  have otherFlags := otherBefore.flags
  rw [← samePortals] at otherFlags
  rcases fresh with staysIn | ⟨short, otherShort⟩
  · have otherUpTo := otherBefore.upTo_inner (samePortals ▸ staysIn)
    rw [← samePortals] at otherUpTo
    exact
      floodOf_eq_of_reflows closed before.flags otherFlags
        (before.upTo_inner staysIn) otherUpTo flowed otherFlowed rootInside
        rootInRange reaches
  · have otherUpTo := otherBefore.upTo_all otherShort
    rw [← samePortals] at otherUpTo
    exact
      floodOf_eq_of_reflows closed before.flags otherFlags
        (before.upTo_all short) otherUpTo flowed otherFlowed rootInside
        rootInRange reaches

end AreaState

namespace World

variable {S : Type} [Scalar S] {level : Level S} {start world : World S}
variable {first second : World S} {history : List Change}

/-- A world at the end of a history comes from the last pass of it. -/
theorem exists_beforePass
    (loaded : ofLevel level = .ok start)
    (changed : start.changes history = .ok world) :
    world.level = level ∧
      ∃ state,
        AreaState.BeforePass level.own history state ∧
          state.reflow level.own = .ok world.areas := by
  induction history using List.reverseRecOn generalizing world with
  | nil =>
      cases changed
      obtain ⟨areas, flowed, made⟩ := bind_eq_ok_iff.mp loaded
      cases made
      exact ⟨rfl, _, AreaState.beforePass_closed level.own, flowed⟩
  | append_singleton history change inductionHypothesis =>
      rw [changes, List.foldlM_append] at changed
      obtain ⟨middle, changedBefore, changedLast⟩ := bind_eq_ok_iff.mp changed
      rw [List.foldlM_cons] at changedLast
      obtain ⟨last, changedLast, made⟩ := bind_eq_ok_iff.mp changedLast
      cases made
      obtain ⟨sameLevel, state, before, flowed⟩ :=
        inductionHypothesis changedBefore
      subst sameLevel
      obtain ⟨fits, _⟩ := before.fits.reflow flowed
      have inRange := inRange_of_change changedLast
      rw [change_of_inRange fits.flagCount inRange] at changedLast
      obtain ⟨areas, flowedLast, made⟩ := bind_eq_ok_iff.mp changedLast
      cases made
      exact ⟨rfl, _, before.next flowed inRange, flowedLast⟩

/-- Two worlds of a level give the same answers about areas that are joined. -/
structure AgreeOnAreas
    (level : Level S)
    (first second : World S) : Prop where
  joined :
    ∀ left right,
      left < level.own.areas.size → right < level.own.areas.size →
        first.areasJoined left right = second.areasJoined left right
  row :
    ∀ area,
      area < level.own.areas.size →
        first.areaRow area = second.areaRow area

/-- They do, except about whether the first area is joined to another one. -/
structure AgreeInside
    (level : Level S)
    (first second : World S) : Prop where
  joined :
    ∀ left right,
      left < level.own.areas.size → right < level.own.areas.size →
        (left = 0 ↔ right = 0) →
          first.areasJoined left right = second.areasJoined left right
  row :
    ∀ area,
      area < level.own.areas.size →
        ∃ firstRow secondRow,
          first.areaRow area = .ok firstRow ∧
            second.areaRow area = .ok secondRow ∧
            ∀ other,
              area = 0 ∨ other ≠ 0 →
                firstRow.get other = secondRow.get other

/-- Settings, labels and flags of two worlds of a level from which they answer. -/
structure Comparable
    (level : Level S)
    (first second : World S) : Prop where
  firstLevel :
    first.level = level
  secondLevel :
    second.level = level
  sameConfig :
    first.config = second.config
  firstFits :
    AreaState.Fits level.own first.areas
  secondFits :
    AreaState.Fits level.own second.areas

theorem Comparable.areasJoined_eq
    (comparable : Comparable level first second)
    {left right : Nat}
    (leftInRange : left < level.own.areas.size)
    (rightInRange : right < level.own.areas.size)
    (same :
      (first.areas.floodOf left == first.areas.floodOf right) =
        (second.areas.floodOf left == second.areas.floodOf right)) :
    first.areasJoined left right = second.areasJoined left right := by
  unfold areasJoined
  rw [comparable.sameConfig, comparable.firstLevel, comparable.secondLevel,
    comparable.firstFits.joined_eq leftInRange rightInRange,
    comparable.secondFits.joined_eq leftInRange rightInRange, same]

/-- Worlds in which inner areas have the same numbers agree about those. -/
theorem Comparable.agreeInside
    (comparable : Comparable level first second)
    (same :
      ∀ area,
        1 ≤ area → area < level.own.areas.size →
          first.areas.floodOf area = second.areas.floodOf area) :
    AgreeInside level first second where
  joined left right leftInRange rightInRange bothOrNeither := by
    apply comparable.areasJoined_eq leftInRange rightInRange
    rcases Nat.eq_zero_or_pos left with isFirst | leftInside
    · rw [isFirst, bothOrNeither.mp isFirst, beq_self_eq_true,
        beq_self_eq_true]
    · have rightInside : 1 ≤ right := by
        omega
      rw [same left leftInside leftInRange,
        same right rightInside rightInRange]
  row area inRange := by
    unfold areaRow
    rw [comparable.sameConfig, comparable.firstLevel, comparable.secondLevel]
    split
    · exact ⟨_, _, rfl, rfl, fun _ _ => rfl⟩
    · obtain ⟨firstRow, foundFirst, _, firstBits⟩ :=
        comparable.firstFits.exists_joinedRow inRange
      obtain ⟨secondRow, foundSecond, _, secondBits⟩ :=
        comparable.secondFits.exists_joinedRow inRange
      refine ⟨firstRow, secondRow, foundFirst, foundSecond, ?_⟩
      intro other inside
      rw [firstBits other, secondBits other]
      by_cases otherInRange : other < level.own.areas.size
      · rcases Nat.eq_zero_or_pos area with isFirst | areaInside
        · rw [AreaState.inRowOf, AreaState.inRowOf, isFirst,
            decide_eq_true rfl, Bool.true_or, Bool.true_or]
        · have otherInside : 1 ≤ other := by
            omega
          rw [AreaState.inRowOf, AreaState.inRowOf,
            same area areaInside inRange,
            same other otherInside otherInRange]
      · rw [decide_eq_false otherInRange, Bool.false_and, Bool.false_and]

/-- Worlds in which all areas have the same numbers agree about all areas. -/
theorem Comparable.agreeOnAreas
    (comparable : Comparable level first second)
    (same :
      ∀ area,
        area < level.own.areas.size →
          first.areas.floodOf area = second.areas.floodOf area) :
    AgreeOnAreas level first second where
  joined left right leftInRange rightInRange := by
    apply comparable.areasJoined_eq leftInRange rightInRange
    rw [same left leftInRange, same right rightInRange]
  row area inRange := by
    unfold areaRow
    rw [comparable.sameConfig, comparable.firstLevel, comparable.secondLevel]
    split
    · rfl
    · obtain ⟨firstRow, foundFirst, firstLength, firstBits⟩ :=
        comparable.firstFits.exists_joinedRow inRange
      obtain ⟨secondRow, foundSecond, secondLength, secondBits⟩ :=
        comparable.secondFits.exists_joinedRow inRange
      have sameRow : firstRow = secondRow := by
        apply BitRow.eq_of_get_eq (firstLength.trans secondLength.symm)
        intro other
        rw [firstBits other, secondBits other]
        by_cases otherInRange : other < level.own.areas.size
        · rw [AreaState.inRowOf, AreaState.inRowOf, same area inRange,
            same other otherInRange]
        · rw [decide_eq_false otherInRange, Bool.false_and, Bool.false_and]
      rw [foundFirst, foundSecond, sameRow]

/-- Whether portals of a number are open tells the histories' open portals apart. -/
theorem Comparable.openFlags_eq
    (comparable : Comparable level first second)
    (samePortals :
      ∀ number ≤ level.own.areaPortals.size,
        first.portalOpen number = second.portalOpen number) :
    openFlag first.areas.portalOpen = openFlag second.areas.portalOpen := by
  funext number
  rcases Nat.lt_or_ge level.own.areaPortals.size number with
      outOfRange | inRange
  · have noFlag
        {state : AreaState}
        (fits : AreaState.Fits level.own state) :
        openFlag state.portalOpen number = false := by
      rw [openFlag, Array.getD_eq_getD_getElem?, Array.getElem?_eq_none]
      · rfl
      · rw [fits.flagCount]
        exact outOfRange
    rw [noFlag comparable.firstFits, noFlag comparable.secondFits]
  · have same := samePortals number inRange
    unfold portalOpen at same
    rw [comparable.firstLevel, comparable.secondLevel,
      comparable.firstFits.isOpen_eq inRange,
      comparable.secondFits.isOpen_eq inRange, Except.ok.injEq] at same
    exact same

/--
A level that was read can be used. Two histories without faults that leave the same
portals open and the same settings lead to worlds that agree about all areas, if no open
portal ever led from an inner area to the first one. They do so too if one does in the
end, and they agree about all but the first area in any case, as long as there were not
so many changes that the numbers of passes returned to zero.
-/
theorem agreement_of_histories
    {bytes : List UInt8}
    {level : Level Float32}
    (accepted : (Level.read bytes).outcome = .ok level)
    (firstHistory secondHistory : List Change) :
    ∃ start,
      ofLevel level = .ok start ∧
        ∀ first second,
          start.changes firstHistory = .ok first →
            start.changes secondHistory = .ok second →
              (∀ number ≤ level.own.areaPortals.size,
                first.portalOpen number = second.portalOpen number) →
                first.config = second.config →
                  (level.own.NeverLeadsOut firstHistory →
                    level.own.NeverLeadsOut secondHistory →
                      AgreeOnAreas level first second) ∧
                  (firstHistory.length + 1 < 2 ^ 32 →
                    secondHistory.length + 1 < 2 ^ 32 →
                      AgreeInside level first second ∧
                        (level.own.LeadsOut (openAfter firstHistory) →
                          AgreeOnAreas level first second)) := by
  have closed := Level.own_closed_of_read accepted
  obtain ⟨start, loaded, _⟩ := exists_ofLevel closed
  refine ⟨start, loaded, ?_⟩
  intro first second firstChanged secondChanged samePortals sameConfig
  obtain ⟨firstLevel, firstState, firstBefore, firstFlowed⟩ :=
    exists_beforePass loaded firstChanged
  obtain ⟨secondLevel, secondState, secondBefore, secondFlowed⟩ :=
    exists_beforePass loaded secondChanged
  obtain ⟨firstFits, firstFlags, _⟩ := firstBefore.fits.reflow firstFlowed
  obtain ⟨secondFits, secondFlags, _⟩ := secondBefore.fits.reflow secondFlowed
  have comparable : Comparable level first second :=
    ⟨firstLevel, secondLevel, sameConfig, firstFits, secondFits⟩
  have sameOpen := comparable.openFlags_eq samePortals
  rw [firstFlags, secondFlags, firstBefore.flags, secondBefore.flags]
    at sameOpen
  -- Inner areas reach themselves, so that the last passes number them alike.
  have sameInside
      (fresh :
        ¬level.own.LeadsOut (openAfter firstHistory) ∨
          firstHistory.length + 1 < 2 ^ 32 ∧
            secondHistory.length + 1 < 2 ^ 32)
      (area : Nat)
      (inside : 1 ≤ area)
      (inRange : area < level.own.areas.size) :
      first.areas.floodOf area = second.areas.floodOf area :=
    firstBefore.floodOf_inner secondBefore closed sameOpen fresh firstFlowed
      secondFlowed inside inRange .refl
  have agreeing
      (sameOutside :
        0 < level.own.areas.size →
          first.areas.floodOf 0 = second.areas.floodOf 0)
      (fresh :
        ¬level.own.LeadsOut (openAfter firstHistory) ∨
          firstHistory.length + 1 < 2 ^ 32 ∧
            secondHistory.length + 1 < 2 ^ 32) :
      AgreeOnAreas level first second := by
    apply comparable.agreeOnAreas
    intro area inRange
    rcases Nat.eq_zero_or_pos area with isFirst | inside
    · subst isFirst
      exact sameOutside inRange
    · exact sameInside fresh area inside inRange
  constructor
  · intro firstStaysIn secondStaysIn
    refine agreeing ?_ (.inl (firstStaysIn _ List.prefix_rfl))
    intro hasAreas
    obtain ⟨firstLabel, foundFirst⟩ := firstFits.exists_label hasAreas
    obtain ⟨secondLabel, foundSecond⟩ := secondFits.exists_label hasAreas
    rw [AreaState.floodOf_of_lookup foundFirst,
      AreaState.floodOf_of_lookup foundSecond,
      firstBefore.flood_outside firstFlowed firstStaysIn
        (lookup_eq_ok_iff.mp foundFirst),
      secondBefore.flood_outside secondFlowed secondStaysIn
        (lookup_eq_ok_iff.mp foundSecond)]
  · intro firstShort secondShort
    refine ⟨comparable.agreeInside (sameInside (.inr ⟨firstShort, secondShort⟩)),
      ?_⟩
    rintro ⟨area, inside, leads⟩
    refine agreeing (fun _ => ?_) (.inr ⟨firstShort, secondShort⟩)
    exact
      firstBefore.floodOf_inner secondBefore closed sameOpen
        (.inr ⟨firstShort, secondShort⟩) firstFlowed secondFlowed inside
        (Records.Leads.lt_size closed leads).1 (.single leads)

/-- A door between two rooms that was opened and closed again leaves no trace. -/
theorem agreement_doorway :
    ∃ (level : Level Float32) (start world : World Float32),
      (Level.read Stored.Level.doorway.packed).outcome = .ok level ∧
        ofLevel level = .ok start ∧
        start.changes [.portal 1 true, .portal 1 false] = .ok world ∧
        AgreeOnAreas level start world := by
  have run :
      ((Level.read Stored.Level.doorway.packed).outcome.toOption.bind
        fun level => (ofLevel level).toOption.bind
          fun start =>
            (start.changes
                [.portal 1 true, .portal 1 false]).toOption.map
              fun world =>
                (level.own.areaPortals.all (·.otherArea != 0),
                  start.areas.portalOpen == world.areas.portalOpen,
                  start.config == world.config)) =
        some (true, true, true) := by
    decide +kernel
  simp only [Option.bind_eq_some_iff, Option.map_eq_some_iff,
    toOption_eq_some_iff, Prod.mk.injEq, Array.all_eq_true_iff_forall_mem,
    bne_iff_ne, beq_iff_eq] at run
  obtain ⟨level, accepted, start, loaded, world, changed, apart, sameFlags,
    sameConfig⟩ := run
  obtain ⟨used, usedLoaded, agreement⟩ :=
    agreement_of_histories accepted [] [.portal 1 true, .portal 1 false]
  rw [loaded, Except.ok.injEq] at usedLoaded
  subst usedLoaded
  have staysApart : level.own.OutsideApart := apart
  have startLevel := level_of_ofLevel loaded
  have worldLevel := (exists_beforePass loaded changed).1
  have samePortals (number : Nat) :
      start.portalOpen number = world.portalOpen number := by
    rw [portalOpen, portalOpen, startLevel, worldLevel, AreaState.isOpen,
      AreaState.isOpen, sameFlags]
  refine ⟨level, start, world, accepted, loaded, changed, ?_⟩
  exact
    (agreement start world rfl changed (fun number _ => samePortals number)
        sameConfig).1
      (staysApart.neverLeadsOut _) (staysApart.neverLeadsOut _)

end World

/-- Two rooms, of which the first one has a door that leads outside. -/
def Stored.Level.outerDoor : Stored.Level :=
  { doorway with
    areas :=
      [{ portalCount := 1, firstPortal := 1 },
        { portalCount := 1, firstPortal := 0 },
        { portalCount := 0, firstPortal := 0 }]
    areaPortals :=
      [{ number := 1, otherArea := 0 }, { number := 1, otherArea := 1 }] }

/-- Once this door was opened, the first room stays joined to the outside. -/
example :
    ((Level.read Stored.Level.outerDoor.packed).outcome.toOption.bind
      fun level => (World.ofLevel level).toOption.bind
        fun start =>
          (start.changes [.portal 1 true, .portal 1 false]).toOption.bind
            fun world => (start.areasJoined 0 1).toOption.bind
              fun before => (world.areasJoined 0 1).toOption.map
                fun after => (before, after)) =
      some (false, true) := by
  decide +kernel

end LevelCollision

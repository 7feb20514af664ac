import LevelCollision.Proofs.FloodReach
import LevelCollision.Proofs.PortalHistory

namespace LevelCollision

/-!
# When floods meet

A pass floods from the areas in order. It comes to an end unless some area is reached by
no earlier one although the two reach a third one, since the flood from it then comes to
an area of the earlier flood. Where every portal can be passed in both directions there
is no such area.
-/

/-- An outcome is that two floods have met, if something holds, or else no fault. -/
def RefloodsIff
    {A : Type}
    (outcome : Except Fault A)
    (holds : Prop) : Prop :=
  (∃ result, outcome = .ok result) ∧ ¬holds ∨
    (∃ fault, outcome = .error fault ∧ fault.IsReflood) ∧ holds

theorem RefloodsIff.of_iff
    {A : Type}
    {outcome : Except Fault A}
    {holds others : Prop}
    (refloods : RefloodsIff outcome holds)
    (same : holds ↔ others) :
    RefloodsIff outcome others := by
  unfold RefloodsIff
  rw [← same]
  exact refloods

/-- What is done with the result does not matter if it cannot fail. -/
theorem RefloodsIff.bind
    {A B : Type}
    {outcome : Except Fault A}
    {holds : Prop}
    (refloods : RefloodsIff outcome holds)
    (use : A → B) :
    RefloodsIff (outcome >>= fun result => .ok (use result)) holds := by
  rcases refloods with
      ⟨⟨result, rfl⟩, never⟩ | ⟨⟨fault, rfl, isReflood⟩, always⟩
  · exact .inl ⟨⟨use result, rfl⟩, never⟩
  · exact .inr ⟨⟨fault, rfl, isReflood⟩, always⟩

section

variable {S : Type} {records : Records S} {isOpen : Nat → Bool}

namespace Records

/-- No earlier area reaches this one, but an earlier one reaches what it reaches. -/
def MixesAt
    (records : Records S)
    (isOpen : Nat → Bool)
    (root : Nat) : Prop :=
  (∀ earlier,
      1 ≤ earlier → earlier < root → ¬records.Reaches isOpen earlier root) ∧
    ∃ earlier area,
      1 ≤ earlier ∧ earlier < root ∧
        records.Reaches isOpen root area ∧
          records.Reaches isOpen earlier area

/-- Portals of a number lead from an area to the next one. -/
def HasWay
    (records : Records S)
    (number area next : Nat) : Prop :=
  ∃ entry position portal,
    records.areas[area]? = some entry ∧
      entry.portals.first ≤ position ∧
      position < entry.portals.stop ∧
      records.areaPortals[position]? = some portal ∧
      portal.number = number ∧
      portal.otherArea = next

/-- Where portals lead from one inner area to another, those of the number lead back. -/
def TwoWay
    (records : Records S) : Prop :=
  ∀ number area next,
    1 ≤ area → 1 ≤ next →
      records.HasWay number area next → records.HasWay number next area

/-- An inner area mixes with an earlier one. -/
def Mixes
    (records : Records S)
    (isOpen : Nat → Bool) : Prop :=
  ∃ root,
    1 ≤ root ∧ root < records.areas.size ∧ records.MixesAt isOpen root

theorem leads_iff_hasWay
    {area next : Nat} :
    records.Leads isOpen area next ↔
      ∃ number, isOpen number = true ∧ records.HasWay number area next := by
  constructor
  · rintro ⟨entry, position, portal, found, afterFirst, beforeStop,
      foundPortal, passable, leads⟩
    exact
      ⟨portal.number, passable, entry, position, portal, found, afterFirst,
        beforeStop, foundPortal, rfl, leads⟩
  · rintro ⟨number, passable, entry, position, portal, found, afterFirst,
      beforeStop, foundPortal, rfl, leads⟩
    exact
      ⟨entry, position, portal, found, afterFirst, beforeStop, foundPortal,
        passable, leads⟩

/-- Then open portals lead back too. -/
theorem TwoWay.reaches_symm
    (twoWay : records.TwoWay)
    (apart : records.OutsideApart)
    {area other : Nat}
    (inside : 1 ≤ area)
    (reaches : records.Reaches isOpen area other) :
    records.Reaches isOpen other area := by
  induction reaches with
  | refl =>
      exact .refl
  | @tail middle next reachesMiddle leads inductionHypothesis =>
      have middleInside :=
        (apart.leadsWithin isOpen).reaches inside reachesMiddle
      have nextInside := apart.one_le_of_leads leads
      obtain ⟨number, passable, way⟩ := leads_iff_hasWay.mp leads
      have back :=
        leads_iff_hasWay.mpr
          ⟨number, passable, twoWay number middle next middleInside nextInside way⟩
      exact .head back inductionHypothesis

theorem TwoWay.not_mixesAt
    (twoWay : records.TwoWay)
    (apart : records.OutsideApart)
    {root : Nat}
    (inside : 1 ≤ root) :
    ¬records.MixesAt isOpen root := by
  rintro ⟨unreached, earlier, area, earlierInside, isEarlier, reaches,
    earlierReaches⟩
  exact
    unreached earlier earlierInside isEarlier
      (earlierReaches.trans (twoWay.reaches_symm apart inside reaches))

end Records

namespace AreaState

variable {portalOpen : Array Bool} {pass : UInt32} {floods : Nat}
variable {labels after : Array AreaLabel}
variable {within : Nat → Prop} {clusterCount steps next : Nat} {fault : Fault}

/-- An area that was labelled already does not mix. -/
theorem UpTo.not_mixesAt_of_labelled
    (upTo : UpTo records isOpen within pass floods next labels)
    (inside : 1 ≤ next)
    {label : AreaLabel}
    (found : labels[next]? = some label)
    (labelled : label.pass = pass) :
    ¬records.MixesAt isOpen next := by
  rintro ⟨unreached, _⟩
  obtain ⟨earlier, earlierInside, isEarlier, reaches⟩ :=
    upTo.exists_earlier inside found labelled
  exact unreached earlier earlierInside isEarlier reaches

/-- Neither does one whose flood ends. -/
theorem UpTo.not_mixesAt_of_spread
    (upTo :
      UpTo records (openFlag portalOpen) within pass floods next labels)
    (closed : records.Closed clusterCount)
    (inside : 1 ≤ next)
    (inRange : next < records.areas.size)
    (spreads :
      AreaState.spread records portalOpen ⟨floods + 1, pass⟩ steps next
          labels =
        .ok after) :
    ¬records.MixesAt (openFlag portalOpen) next := by
  rintro ⟨_, earlier, area, earlierInside, isEarlier, reaches,
    earlierReaches⟩
  have nextInside := upTo.inner next inside
  have areaInside := upTo.stays.reaches nextInside reaches
  obtain ⟨label, found, samePass⟩ :=
    (upTo.labelled_iff area areaInside).mpr
      ⟨earlier, earlierInside, isEarlier,
        Records.Reaches.lt_size closed inRange reaches, earlierReaches⟩
  -- The area would have to keep the label of the earlier flood.
  have isKept :=
    (grows_of_spread spreads).1.kept area label found samePass
  rw [upTo.numbered.labelled_of_spread upTo.stays nextInside spreads reaches,
    Option.some.injEq] at isKept
  subst isKept
  exact upTo.numbered.unused areaInside found

/-- A flood that fails has come to an area that an earlier one reaches too. -/
theorem UpTo.mixesAt
    (upTo : UpTo records (openFlag portalOpen) within pass floods next labels)
    (closed : records.Closed clusterCount)
    (flagCount : portalOpen.size = records.areaPortals.size + 1)
    (inside : 1 ≤ next)
    (inRange : next < records.areas.size)
    {label : AreaLabel}
    (found : labels[next]? = some label)
    (fresh : label.pass ≠ pass)
    (fails :
      AreaState.spread records portalOpen ⟨floods + 1, pass⟩
          records.areas.size next labels =
        .error fault) :
    fault.IsReflood ∧ records.MixesAt (openFlag portalOpen) next := by
  obtain ⟨area, reaches, meets⟩ :=
    exists_meetsAt_of_spread closed flagCount inRange
      (hasSteps_of_size upTo.size pass) fails
  refine ⟨meets.isReflood, ?_, ?_⟩
  · intro earlier earlierInside isEarlier
    exact
      upTo.unreached inside inRange found fresh earlierInside isEarlier
  · obtain ⟨entry, foundEntry, samePass, _, _⟩ := meets
    have areaInside :=
      upTo.stays.reaches (upTo.inner next inside) reaches
    obtain ⟨earlier, earlierInside, isEarlier, _, earlierReaches⟩ :=
      (upTo.labelled_iff area areaInside).mp ⟨entry, foundEntry, samePass⟩
    exact
      ⟨earlier, area, earlierInside, isEarlier, reaches, earlierReaches⟩

/-- The rest of a pass fails at the first area that mixes with an earlier one. -/
theorem UpTo.floodFrom
    (upTo : UpTo records (openFlag portalOpen) within pass floods next labels)
    (closed : records.Closed clusterCount)
    (flagCount : portalOpen.size = records.areaPortals.size + 1)
    (inside : 1 ≤ next)
    {count : Nat}
    (inRange : count ≤ records.areas.size - next) :
    RefloodsIff
      (AreaState.floodFrom records portalOpen pass (List.range' next count)
        floods labels)
      (∃ root,
        next ≤ root ∧ root < next + count ∧
          records.MixesAt (openFlag portalOpen) root) := by
  induction count generalizing next floods labels with
  | zero =>
      refine .inl ⟨⟨labels, rfl⟩, ?_⟩
      rintro ⟨root, atLeast, isBefore, _⟩
      exact absurd isBefore (Nat.not_lt.mpr atLeast)
  | succ count inductionHypothesis =>
      have nextInRange : next < records.areas.size := by
        omega
      have inLabels : next < labels.size := by
        rw [upTo.size]
        exact nextInRange
      have found := Array.getElem?_eq_getElem inLabels
      -- Where the first area does not mix it is up to the others.
      have goesOn
          {floods : Nat}
          {middle : Array AreaLabel}
          (later :
            UpTo records (openFlag portalOpen) within pass floods (next + 1) middle)
          (unmixed : ¬records.MixesAt (openFlag portalOpen) next) :
          RefloodsIff
            (AreaState.floodFrom records portalOpen pass
              (List.range' (next + 1) count) floods middle)
            (∃ root,
              next ≤ root ∧ root < next + (count + 1) ∧
                records.MixesAt (openFlag portalOpen) root) := by
        refine
          (inductionHypothesis later (Nat.succ_pos next)
            (by omega)).of_iff ?_
        constructor
        · rintro ⟨root, atLeast, isBefore, mixes⟩
          exact ⟨root, by omega, by omega, mixes⟩
        · rintro ⟨root, atLeast, isBefore, mixes⟩
          have differs : root ≠ next := by
            rintro rfl
            exact unmixed mixes
          exact ⟨root, by omega, by omega, mixes⟩
      rw [List.range'_succ, AreaState.floodFrom, lookup_of_lt inLabels, ok_bind]
      by_cases labelled : labels[next].pass = pass
      · rw [if_pos labelled]
        exact
          goesOn (upTo.passOver inside found labelled)
            (upTo.not_mixesAt_of_labelled inside found labelled)
      · rw [if_neg labelled]
        cases spreads :
            AreaState.spread records portalOpen ⟨floods + 1, pass⟩
              records.areas.size next labels with
        | ok middle =>
            exact
              goesOn (upTo.spread closed inside nextInRange spreads)
                (upTo.not_mixesAt_of_spread closed inside nextInRange
                  spreads)
        | error fault =>
            obtain ⟨isReflood, mixes⟩ :=
              upTo.mixesAt closed flagCount inside nextInRange found labelled
                spreads
            exact
              .inr
                ⟨⟨fault, rfl, isReflood⟩, next, Nat.le_refl next, by omega,
                  mixes⟩

/-- A pass fails where an inner area mixes with an earlier one. -/
theorem Current.refloodsIff
    {state : AreaState}
    (current : Current records state)
    (closed : records.Closed clusterCount)
    (apart : records.OutsideApart)
    (flagCount : state.portalOpen.size = records.areaPortals.size + 1) :
    RefloodsIff (state.reflow records)
      (records.Mixes (openFlag state.portalOpen)) := by
  have upTo :
      UpTo records (openFlag state.portalOpen) (1 ≤ ·) (state.pass + 1) 0 1
        state.labels :=
    upTo_first current.size (fun _ => id) (apart.leadsWithin _)
      fun _ _ => current.stale
  have flooded :=
    upTo.floodFrom closed flagCount (Nat.le_refl 1)
      (Nat.le_refl (records.areas.size - 1))
  refine (flooded.of_iff ?_).bind _
  unfold Records.Mixes
  constructor
  · rintro ⟨root, inside, isBefore, mixes⟩
    exact ⟨root, inside, by omega, mixes⟩
  · rintro ⟨root, inside, inRange, mixes⟩
    exact ⟨root, inside, by omega, mixes⟩

end AreaState

end

namespace World

variable {S : Type} [Scalar S] {level : Level S} {world : World S}
variable {isOpen : Nat → Bool} {clusterCount : Nat}

/-- A change fails where areas mix with the portals as it leaves them. -/
theorem Follows.refloodsIff
    (follows : Follows level isOpen world)
    (closed : level.own.Closed clusterCount)
    (apart : level.own.OutsideApart)
    {change : Change}
    (inRange : change.InRange level.own) :
    RefloodsIff (world.change change)
      (level.own.Mixes (change.apply isOpen)) := by
  obtain rfl := follows.sameLevel
  have flagCount := Change.size_flag change world.areas.portalOpen
  rw [follows.flagCount] at flagCount
  have flags := Change.openFlag_flag follows.flagCount inRange
  rw [follows.flags] at flags
  rw [change_of_inRange follows.flagCount inRange, ← flags]
  exact
    ((follows.current.setFlags _).refloodsIff closed apart flagCount).bind _

/--
A level that was read can be used. If no portal of it leads to the first area, a change
after a history without faults comes to an end, and it does so with a meeting of two
floods if and only if an inner area mixes with an earlier one. That is never the case if
portals can be passed in both directions.
-/
theorem reflooded_iff_mixes
    {bytes : List UInt8}
    {level : Level Float32}
    (accepted : (Level.read bytes).outcome = .ok level)
    (apart : level.own.OutsideApart)
    (history : List Change)
    {change : Change}
    (inRange : change.InRange level.own) :
    ∃ start,
      ofLevel level = .ok start ∧
        ∀ world,
          start.changes history = .ok world →
            RefloodsIff (world.change change)
                (level.own.Mixes (openAfter (history ++ [change]))) ∧
              (level.own.TwoWay →
                ∃ after, world.change change = .ok after) := by
  have closed := Level.own_closed_of_read accepted
  obtain ⟨start, loaded, _⟩ := exists_ofLevel closed
  refine ⟨start, loaded, ?_⟩
  intro world changed
  have follows := (follows_ofLevel apart loaded).changes apart changed
  have refloods := follows.refloodsIff closed apart inRange
  have flags :
      openAfter (history ++ [change]) =
        change.apply (history.foldl Change.apply fun _ => false) :=
    List.foldl_concat _ _ _ _
  rw [← flags] at refloods
  refine ⟨refloods, ?_⟩
  intro twoWay
  rcases refloods with ⟨ends, _⟩ | ⟨_, root, inside, _, mixes⟩
  · exact ends
  · exact absurd mixes (twoWay.not_mixesAt apart inside)

end World

/-- Two rooms with a door that leads from the second one to the first one only. -/
def Stored.Level.oneWayDoor : Stored.Level :=
  { doorway with
    areas :=
      [{ portalCount := 0, firstPortal := 0 },
        { portalCount := 0, firstPortal := 0 },
        { portalCount := 1, firstPortal := 1 }] }

/-- When the door is opened the flood from the second room meets that from the first. -/
theorem World.reflooded_oneWayDoor :
    ∃ (level : Level Float32) (start : World Float32),
      (Level.read Stored.Level.oneWayDoor.packed).outcome = .ok level ∧
        ofLevel level = .ok start ∧
        (∃ fault,
          start.change (.portal 1 true) = .error fault ∧ fault.IsReflood) ∧
        level.own.Mixes (openAfter [.portal 1 true]) := by
  have run :
      ((Level.read Stored.Level.oneWayDoor.packed).outcome.toOption.bind
        fun level => (ofLevel level).toOption.map
          fun start =>
            (level.own.areaPortals.size,
              level.own.areaPortals.all (·.otherArea != 0),
              (start.change (.portal 1 true)).toOption.isSome)) =
        some (2, true, false) := by
    decide +kernel
  simp only [Option.bind_eq_some_iff, Option.map_eq_some_iff,
    toOption_eq_some_iff, Prod.mk.injEq, Array.all_eq_true_iff_forall_mem,
    bne_iff_ne] at run
  obtain ⟨level, accepted, start, loaded, portalCount, apart, fails⟩ := run
  have inRange : Change.InRange level.own (.portal 1 true) := by
    rw [Change.InRange, portalCount]
    decide
  obtain ⟨used, usedLoaded, after⟩ :=
    reflooded_iff_mixes accepted apart [] inRange
  rw [loaded, Except.ok.injEq] at usedLoaded
  subst usedLoaded
  refine ⟨level, start, accepted, loaded, ?_⟩
  rcases (after start rfl).1 with ⟨⟨world, changed⟩, _⟩ | mixes
  · rw [changed] at fails
    cases fails
  · exact mixes

end LevelCollision

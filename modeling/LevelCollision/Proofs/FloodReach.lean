import LevelCollision.Proofs.AreaComponents
import LevelCollision.Proofs.FloodFaults

namespace LevelCollision

/-!
# What floods reach

A flood that comes to an end has labelled what open portals reach from its start, and
has left all other areas alone. So whether a pass comes to an end can be told from the
portals that are open. It fails at the first area that no earlier one reaches, although
they both reach some third area.
-/

section

variable {S : Type} {records : Records S} {isOpen : Nat → Bool}

namespace Records

/-- No open portal leads out of some areas. -/
def LeadsWithin
    (records : Records S)
    (isOpen : Nat → Bool)
    (within : Nat → Prop) : Prop :=
  ∀ area next, within area → records.Leads isOpen area next → within next

theorem LeadsWithin.reaches
    {within : Nat → Prop}
    (stays : records.LeadsWithin isOpen within)
    {area other : Nat}
    (inside : within area)
    (reaches : records.Reaches isOpen area other) :
    within other := by
  induction reaches with
  | refl =>
      exact inside
  | tail _ leads inductionHypothesis =>
      exact stays _ _ inductionHypothesis leads

theorem OutsideApart.leadsWithin
    (apart : records.OutsideApart)
    (isOpen : Nat → Bool) :
    records.LeadsWithin isOpen (1 ≤ ·) :=
  fun _ _ _ leads => apart.one_le_of_leads leads

/-- Portals do not lead to areas that do not exist. -/
theorem Leads.lt_size
    {clusterCount area next : Nat}
    (closed : records.Closed clusterCount)
    (leads : records.Leads isOpen area next) :
    area < records.areas.size ∧ next < records.areas.size := by
  obtain ⟨_, _, portal, found, _, _, foundPortal, _, rfl⟩ := leads
  exact
    ⟨(Array.getElem?_eq_some_iff.mp found).1,
      closed.portalArea portal (Array.mem_of_getElem? foundPortal)⟩

theorem Reaches.lt_size
    {clusterCount area other : Nat}
    (closed : records.Closed clusterCount)
    (inRange : area < records.areas.size)
    (reaches : records.Reaches isOpen area other) :
    other < records.areas.size := by
  induction reaches with
  | refl =>
      exact inRange
  | tail _ leads _ =>
      exact (Leads.lt_size closed leads).2

end Records

namespace AreaState

variable {portalOpen : Array Bool} {pass : UInt32} {floods : Nat}
variable {within : Nat → Prop} {labels after : Array AreaLabel}
variable {clusterCount steps area other next : Nat}

/-- Among some areas a pass has numbered its floods so far. -/
def Numbered
    (within : Nat → Prop)
    (pass : UInt32)
    (floods : Nat)
    (labels : Array AreaLabel) : Prop :=
  ∀ area label,
    within area → labels[area]? = some label →
      label.pass = pass → label.flood ≤ floods

/-- The number of the next flood is not in use. -/
theorem Numbered.unused
    (numbered : Numbered within pass floods labels)
    (inside : within area) :
    labels[area]? ≠ some ⟨floods + 1, pass⟩ := by
  intro labelled
  exact
    Nat.not_succ_le_self floods (numbered area _ inside labelled rfl)

/-- The next flood labels what its start reaches. -/
theorem Numbered.labelled_of_spread
    (numbered : Numbered within pass floods labels)
    (stays : records.LeadsWithin (openFlag portalOpen) within)
    (inside : within area)
    (spreads :
      spread records portalOpen ⟨floods + 1, pass⟩ steps area labels =
        .ok after)
    (reaches : records.Reaches (openFlag portalOpen) area other) :
    after[other]? = some ⟨floods + 1, pass⟩ := by
  obtain ⟨grows, started⟩ := grows_of_spread spreads
  induction reaches with
  | refl =>
      exact started
  | @tail middle next reachesMiddle leads inductionHypothesis =>
      exact
        grows.passedOn middle next inductionHypothesis
          (numbered.unused (stays.reaches inside reachesMiddle)) leads

/-- It leaves alone what its start does not reach. -/
theorem getElem?_eq_of_spread
    {label : AreaLabel}
    (spreads :
      spread records portalOpen label steps area labels = .ok after)
    (apart : ¬records.Reaches (openFlag portalOpen) area other) :
    after[other]? = labels[other]? := by
  rcases (grows_of_spread spreads).1.origin other with same | ⟨_, reaches⟩
  · exact same
  · exact absurd reaches apart

/-- A pass leaves alone what none of its areas reaches. -/
theorem getElem?_eq_of_floodFrom
    {areas : List Nat}
    (flooded :
      floodFrom records portalOpen pass areas floods labels = .ok after)
    (apart :
      ∀ area ∈ areas, ¬records.Reaches (openFlag portalOpen) area other) :
    after[other]? = labels[other]? := by
  induction areas generalizing floods labels with
  | nil =>
      cases flooded
      rfl
  | cons area rest inductionHypothesis =>
      have restApart :
          ∀ next ∈ rest, ¬records.Reaches (openFlag portalOpen) next other := by
        intro next member
        exact apart next (List.mem_cons_of_mem area member)
      unfold floodFrom at flooded
      obtain ⟨label, _, flooded⟩ := bind_eq_ok_iff.mp flooded
      split at flooded
      · exact inductionHypothesis flooded restApart
      · obtain ⟨middle, spreads, flooded⟩ := bind_eq_ok_iff.mp flooded
        exact
          (inductionHypothesis flooded restApart).trans
            (getElem?_eq_of_spread spreads (apart area List.mem_cons_self))

/-- A pass goes on numbering its floods. -/
theorem Numbered.spread
    (numbered : Numbered within pass floods labels)
    (spreads :
      AreaState.spread records portalOpen ⟨floods + 1, pass⟩ steps area
          labels =
        .ok after) :
    Numbered within pass (floods + 1) after := by
  intro other label inside found samePass
  rcases (grows_of_spread spreads).1.origin other with same | ⟨isNew, _⟩
  · rw [same] at found
    exact Nat.le_succ_of_le (numbered other label inside found samePass)
  · rw [found, Option.some.injEq] at isNew
    subst isNew
    exact Nat.le_refl _

/--
A pass has come to an area. Among some areas that no open portal leads out of, all inner
areas among them, what it has labelled is what earlier areas reach.
-/
structure UpTo
    (records : Records S)
    (isOpen : Nat → Bool)
    (within : Nat → Prop)
    (pass : UInt32)
    (floods next : Nat)
    (labels : Array AreaLabel) : Prop where
  size :
    labels.size = records.areas.size
  inner :
    ∀ area, 1 ≤ area → within area
  stays :
    records.LeadsWithin isOpen within
  numbered :
    Numbered within pass floods labels
  labelled_iff :
    ∀ area,
      within area →
        ((∃ label, labels[area]? = some label ∧ label.pass = pass) ↔
          ∃ root,
            1 ≤ root ∧ root < next ∧
              area < records.areas.size ∧ records.Reaches isOpen root area)

/-- A pass begins with no area that it has labelled. -/
theorem upTo_first
    (size : labels.size = records.areas.size)
    (inner : ∀ area, 1 ≤ area → within area)
    (stays : records.LeadsWithin isOpen within)
    (stale :
      ∀ area label,
        within area → labels[area]? = some label → label.pass ≠ pass) :
    UpTo records isOpen within pass 0 1 labels where
  size := size
  inner := inner
  stays := stays
  numbered area label inside found samePass :=
    absurd samePass (stale area label inside found)
  labelled_iff area inside := by
    constructor
    · rintro ⟨label, found, samePass⟩
      exact absurd samePass (stale area label inside found)
    · rintro ⟨root, rootInside, isBefore, _⟩
      exact absurd isBefore (Nat.not_lt.mpr rootInside)

/-- The area that a pass has come to, if labelled, was reached by an earlier one. -/
theorem UpTo.exists_earlier
    (upTo : UpTo records isOpen within pass floods next labels)
    (inside : 1 ≤ next)
    {label : AreaLabel}
    (found : labels[next]? = some label)
    (labelled : label.pass = pass) :
    ∃ earlier,
      1 ≤ earlier ∧ earlier < next ∧ records.Reaches isOpen earlier next := by
  obtain ⟨earlier, earlierInside, isEarlier, _, reaches⟩ :=
    (upTo.labelled_iff next (upTo.inner next inside)).mp
      ⟨label, found, labelled⟩
  exact ⟨earlier, earlierInside, isEarlier, reaches⟩

/-- An area that was labelled already is passed over. -/
theorem UpTo.passOver
    (upTo : UpTo records isOpen within pass floods next labels)
    (inside : 1 ≤ next)
    {label : AreaLabel}
    (found : labels[next]? = some label)
    (labelled : label.pass = pass) :
    UpTo records isOpen within pass floods (next + 1) labels := by
  obtain ⟨earlier, earlierInside, isEarlier, reaches⟩ :=
    upTo.exists_earlier inside found labelled
  refine { upTo with labelled_iff := ?_ }
  intro area areaInside
  rw [upTo.labelled_iff area areaInside]
  constructor
  · rintro ⟨root, rootInside, isBefore, inRange, rootReaches⟩
    exact
      ⟨root, rootInside, Nat.lt_succ_of_lt isBefore, inRange, rootReaches⟩
  · rintro ⟨root, rootInside, isBefore, inRange, rootReaches⟩
    rcases Nat.lt_succ_iff_lt_or_eq.mp isBefore with isEarlierRoot | isNext
    · exact ⟨root, rootInside, isEarlierRoot, inRange, rootReaches⟩
    · subst isNext
      exact
        ⟨earlier, earlierInside, isEarlier, inRange,
          reaches.trans rootReaches⟩

/-- An area that was not labelled is reached by no earlier one. -/
theorem UpTo.unreached
    (upTo : UpTo records isOpen within pass floods next labels)
    (inside : 1 ≤ next)
    (inRange : next < records.areas.size)
    {label : AreaLabel}
    (found : labels[next]? = some label)
    (fresh : label.pass ≠ pass)
    {earlier : Nat}
    (earlierInside : 1 ≤ earlier)
    (isEarlier : earlier < next) :
    ¬records.Reaches isOpen earlier next := by
  intro reaches
  obtain ⟨other, foundOther, samePass⟩ :=
    (upTo.labelled_iff next (upTo.inner next inside)).mpr
      ⟨earlier, earlierInside, isEarlier, inRange, reaches⟩
  rw [found, Option.some.injEq] at foundOther
  subst foundOther
  exact fresh samePass

/-- A flood that ends leaves labelled what its start reaches as well. -/
theorem UpTo.spread
    (upTo :
      UpTo records (openFlag portalOpen) within pass floods next labels)
    (closed : records.Closed clusterCount)
    (inside : 1 ≤ next)
    (inRange : next < records.areas.size)
    (spreads :
      AreaState.spread records portalOpen ⟨floods + 1, pass⟩ steps next
          labels =
        .ok after) :
    UpTo records (openFlag portalOpen) within pass (floods + 1) (next + 1)
      after where
  size := (grows_of_spread spreads).1.size.trans upTo.size
  inner := upTo.inner
  stays := upTo.stays
  numbered := upTo.numbered.spread spreads
  labelled_iff area areaInside := by
    by_cases reaches : records.Reaches (openFlag portalOpen) next area
    · have labelled :=
        upTo.numbered.labelled_of_spread upTo.stays (upTo.inner next inside)
          spreads reaches
      constructor
      · intro _
        exact
          ⟨next, inside, Nat.lt_succ_self next,
            Records.Reaches.lt_size closed inRange reaches, reaches⟩
      · intro _
        exact ⟨_, labelled, rfl⟩
    · rw [getElem?_eq_of_spread spreads reaches,
        upTo.labelled_iff area areaInside]
      constructor
      · rintro ⟨root, rootInside, isBefore, rest⟩
        exact ⟨root, rootInside, Nat.lt_succ_of_lt isBefore, rest⟩
      · rintro ⟨root, rootInside, isBefore, areaInRange, rootReaches⟩
        rcases Nat.lt_succ_iff_lt_or_eq.mp isBefore with isEarlier | isNext
        · exact ⟨root, rootInside, isEarlier, areaInRange, rootReaches⟩
        · subst isNext
          exact absurd rootReaches reaches

end AreaState

end

end LevelCollision

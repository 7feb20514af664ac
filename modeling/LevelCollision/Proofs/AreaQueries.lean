import LevelCollision.Proofs.BitRows
import LevelCollision.Proofs.FloodFaults

namespace LevelCollision

/-!
# Area queries of fitting states

An area state fits the records of a level when it has a flag for every portal number and a
label for every area. It fits from the beginning and after every pass, and then all that
is asked about portals and areas that exist is answered.
-/

namespace AreaState

variable {S : Type} {records : Records S} {state after : AreaState}
variable {clusterCount portal area left right : Nat}

/-- A flag for every portal number and a label for every area. -/
structure Fits
    (records : Records S)
    (state : AreaState) : Prop where
  flagCount :
    state.portalOpen.size = records.areaPortals.size + 1
  labelCount :
    state.labels.size = records.areas.size

theorem fits_closed
    (records : Records S) :
    Fits records (AreaState.closed records) where
  flagCount := Array.size_replicate
  labelCount := Array.size_replicate

/-- A pass adds neither flags nor labels, and its number is the next one. -/
theorem Fits.reflow
    (fits : Fits records state)
    (flowed : state.reflow records = .ok after) :
    Fits records after ∧
      after.portalOpen = state.portalOpen ∧ after.pass = state.pass + 1 := by
  obtain ⟨labels, flooded, made⟩ := bind_eq_ok_iff.mp flowed
  cases made
  have size := (relabels_of_floodFrom flooded).size.trans fits.labelCount
  exact ⟨⟨fits.flagCount, size⟩, rfl, rfl⟩

/-- A pass leaves a state that fits, or comes to an area of another flood. -/
theorem Fits.reflow_cases
    (fits : Fits records state)
    (closed : records.Closed clusterCount) :
    (∃ after, state.reflow records = .ok after ∧ Fits records after) ∨
      ∃ fault, state.reflow records = .error fault ∧ fault.IsReflood := by
  cases flowed : state.reflow records with
  | ok after =>
      exact .inl ⟨after, rfl, (fits.reflow flowed).1⟩
  | error fault =>
      exact
        .inr
          ⟨fault, rfl,
            isReflood_of_reflow closed fits.flagCount fits.labelCount
              flowed⟩

/-- So does opening or closing portals that exist. -/
theorem Fits.setPortal_cases
    (fits : Fits records state)
    (closed : records.Closed clusterCount)
    (inRange : portal ≤ records.areaPortals.size)
    (isOpen : Bool) :
    (∃ after,
        state.setPortal records portal isOpen = .ok after ∧
          Fits records after) ∨
      ∃ fault,
        state.setPortal records portal isOpen = .error fault ∧
          fault.IsReflood := by
  rw [setPortal_of_le fits.flagCount inRange]
  have flagged :
      Fits records
        { state with
          portalOpen := state.portalOpen.setIfInBounds portal isOpen } :=
    { flagCount := Array.size_setIfInBounds.trans fits.flagCount
      labelCount := fits.labelCount }
  exact flagged.reflow_cases closed

/-- Whether portals that exist are open is what their flag says. -/
theorem Fits.isOpen_eq
    (fits : Fits records state)
    (inRange : portal ≤ records.areaPortals.size) :
    state.isOpen records portal = .ok (openFlag state.portalOpen portal) := by
  have hasFlag : portal < state.portalOpen.size := by
    rw [fits.flagCount]
    exact Nat.lt_succ_of_le inRange
  have found := lookup_of_lt hasFlag
  rw [isOpen, checkPortal, if_pos inRange, ok_bind, found,
    openFlag_eq_of_lookup found]

/-- Every area has a label. -/
theorem Fits.exists_label
    (fits : Fits records state)
    (inRange : area < records.areas.size) :
    ∃ label, lookup state.labels area = .ok label := by
  rw [← fits.labelCount] at inRange
  exact ⟨_, lookup_of_lt inRange⟩

/-- The number of the flood that an area was last part of. -/
def floodOf
    (state : AreaState)
    (area : Nat) : Option Nat :=
  state.labels[area]?.map (·.flood)

theorem floodOf_of_lookup
    {label : AreaLabel}
    (found : lookup state.labels area = .ok label) :
    state.floodOf area = some label.flood := by
  rw [floodOf, lookup_eq_ok_iff.mp found]
  rfl

/-- Areas that exist are joined if they have been part of floods of one number. -/
theorem Fits.joined_eq
    (fits : Fits records state)
    (leftInRange : left < records.areas.size)
    (rightInRange : right < records.areas.size) :
    state.joined records left right =
      .ok (state.floodOf left == state.floodOf right) := by
  obtain ⟨leftLabel, foundLeft⟩ := fits.exists_label leftInRange
  obtain ⟨rightLabel, foundRight⟩ := fits.exists_label rightInRange
  rw [joined, checkArea, if_pos leftInRange, ok_bind, checkArea,
    if_pos rightInRange, ok_bind, foundLeft, ok_bind, foundRight, ok_bind,
    floodOf_of_lookup foundLeft, floodOf_of_lookup foundRight]
  rfl

/-- Whether the row of an area has the bit of another one. -/
def inRowOf
    (state : AreaState)
    (area other : Nat) : Bool :=
  decide (area = 0) || state.floodOf other == state.floodOf area

/-- An area that exists has a row with a bit for each area, and no other ones. -/
theorem Fits.exists_joinedRow
    (fits : Fits records state)
    (inRange : area < records.areas.size) :
    ∃ row,
      state.joinedRow records area = .ok row ∧
        row.bytes.size = BitRow.byteCount records.areas.size ∧
        ∀ other,
          row.get other =
            (decide (other < records.areas.size) &&
              state.inRowOf area other) := by
  obtain ⟨label, found⟩ := fits.exists_label inRange
  have listed (other : Nat) :
      other ∈ List.range records.areas.size → other < records.areas.size :=
    List.mem_range.mp
  have marks (other : Nat) (member : other ∈ List.range records.areas.size)
      (row : BitRow)
      (length : row.bytes.size = BitRow.byteCount records.areas.size) :
      (if area = 0 then
          row.mark other
        else do
          let otherLabel ← lookup state.labels other
          if otherLabel.flood = label.flood then
            row.mark other
          else
            return row) =
        .ok (if state.inRowOf area other then row.set other else row) := by
    obtain ⟨otherLabel, foundOther⟩ := fits.exists_label (listed other member)
    rw [BitRow.mark_of_lt length (listed other member), foundOther, ok_bind,
      inRowOf, floodOf_of_lookup found, floodOf_of_lookup foundOther]
    by_cases isFirst : area = 0
    · simp [isFirst]
    · by_cases sameFlood : otherLabel.flood = label.flood
      · simp [isFirst, sameFlood]
      · simp [isFirst, sameFlood]
        rfl
  have cleared :
      (BitRow.clear (BitRow.byteCount records.areas.size)).bytes.size =
        BitRow.byteCount records.areas.size :=
    Array.size_replicate
  obtain ⟨row, marked, length, bits⟩ :=
    BitRow.exists_foldlM_mark listed marks cleared
  refine ⟨row, ?_, length, ?_⟩
  · rw [joinedRow, checkArea, if_pos inRange, ok_bind, found, ok_bind]
    exact marked
  · intro other
    simp only [bits other, BitRow.get_clear, Bool.false_or, List.mem_range]

end AreaState

end LevelCollision

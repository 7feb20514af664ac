import LevelCollision.Proofs.AreaMemory
import LevelCollision.Proofs.TouchedLeaves

namespace LevelCollision

/-!
# Rows of areas

Whether two areas are joined can be asked for one pair, or for an area and all others in
one row. The two answers come from the same labels, however these came about, so that
they agree after every history. They differ about the first area only, which is joined
to every area in its own row.
-/

namespace AreaState

variable {S : Type} {records : Records S} {state : AreaState} {area : Nat}

/-- The row of an area tells of each area that it is joined, and of none besides. -/
theorem Fits.exists_joinedRow_iff_joined
    (fits : Fits records state)
    (inRange : area < records.areas.size) :
    ∃ row,
      state.joinedRow records area = .ok row ∧
        row.bytes.size = BitRow.byteCount records.areas.size ∧
        (∀ other < records.areas.size,
          ∃ joined,
            state.joined records area other = .ok joined ∧
              (row.get other = true ↔ area = 0 ∨ joined = true)) ∧
        ∀ position,
          records.areas.size ≤ position → row.get position = false := by
  obtain ⟨row, found, length, bits⟩ := fits.exists_joinedRow inRange
  refine ⟨row, found, length, ?_, ?_⟩
  · intro other otherInRange
    refine ⟨_, fits.joined_eq inRange otherInRange, ?_⟩
    rw [bits other, decide_eq_true otherInRange, Bool.true_and, inRowOf,
      Bool.or_eq_true, decide_eq_true_eq, BEq.comm]
  · intro position outOfRange
    rw [bits position, decide_eq_false (Nat.not_lt_of_le outOfRange),
      Bool.false_and]

end AreaState

namespace World

/-- A world at the end of a history has labels for all areas of its level. -/
theorem fits_of_changes
    {S : Type} [Scalar S]
    {level : Level S}
    {start world : World S}
    {history : List Change}
    (loaded : ofLevel level = .ok start)
    (changed : start.changes history = .ok world) :
    world.level = level ∧ AreaState.Fits level.own world.areas := by
  obtain ⟨sameLevel, state, before, flowed⟩ :=
    exists_beforePass loaded changed
  exact ⟨sameLevel, (before.fits.reflow flowed).1⟩

/--
A level can be used, and at the end of every history that is no fault each area has a row,
with a bit for each area in as few bytes as hold them. If areas matter the row tells of
each area what is answered for the pair, but that the first area has all areas in its row,
and the bits past the last area are clear. Otherwise all bits are set, and every pair is
joined.
-/
theorem areaRow_iff_areasJoined
    {level : Level Float32}
    (origin :
      level = .empty ∨ ∃ bytes, (Level.read bytes).outcome = .ok level) :
    ∃ start,
      ofLevel level = .ok start ∧
        ∀ history world,
          start.changes history = .ok world →
            ∀ area < level.own.areas.size,
              ∃ row,
                world.areaRow area = .ok row ∧
                  row.bytes.size = (level.own.areas.size + 7) / 8 ∧
                  (world.config.noAreas = false →
                    (∀ other < level.own.areas.size,
                      ∃ joined,
                        world.areasJoined area other = .ok joined ∧
                          (row.get other = true ↔
                            area = 0 ∨ joined = true)) ∧
                    ∀ position,
                      level.own.areas.size ≤ position →
                        row.get position = false) ∧
                  (world.config.noAreas = true →
                    (∀ position < 8 * row.bytes.size,
                      row.get position = true) ∧
                    ∀ left right,
                      world.areasJoined left right = .ok true) := by
  have sound := Level.sound_of_origin origin
  obtain ⟨start, loaded, _⟩ := exists_ofLevel sound.closed
  refine ⟨start, loaded, fun history world changed area inRange => ?_⟩
  obtain ⟨rfl, fits⟩ := fits_of_changes loaded changed
  unfold areaRow areasJoined
  cases noAreas : world.config.noAreas with
  | true =>
      have length :
          (BitRow.full (BitRow.byteCount
            world.level.own.areas.size)).bytes.size =
            BitRow.byteCount world.level.own.areas.size :=
        Array.size_replicate
      refine
        ⟨_, rfl, length, fun matter => absurd matter.symm Bool.false_ne_true,
          fun _ => ⟨fun position inRow => ?_, fun _ _ => rfl⟩⟩
      rw [length] at inRow
      exact BitRow.get_full (Nat.div_lt_of_lt_mul inRow)
  | false =>
      obtain ⟨row, found, length, told, clear⟩ :=
        fits.exists_joinedRow_iff_joined inRange
      exact
        ⟨row, found, length, fun _ => ⟨told, clear⟩,
          fun noAreas => absurd noAreas Bool.false_ne_true⟩

/--
Once the door was opened, the row of a room has both rooms and not the first area. The
row had all bits while areas did not matter.
-/
theorem areaRow_doorway :
    ∃ (level : Level Float32) (start blurred world : World Float32)
      (full row : BitRow),
      (Level.read Stored.Level.doorway.packed).outcome = .ok level ∧
        ofLevel level = .ok start ∧
        start.changes [.portal 1 true, .settings { noAreas := true }] =
          .ok blurred ∧
        start.changes
            [.portal 1 true, .settings { noAreas := true }, .settings {}] =
          .ok world ∧
        blurred.areaRow 1 = .ok full ∧
        blurred.areasJoined 0 1 = .ok true ∧
        full.get 7 = true ∧
        world.areaRow 1 = .ok row ∧
        row = ⟨#[0x06]⟩ ∧
        world.areasJoined 1 2 = .ok true ∧
        world.areasJoined 1 0 = .ok false := by
  have run :
      ((Level.read Stored.Level.doorway.packed).outcome.toOption.bind
        fun level => (ofLevel level).toOption.bind
          fun start =>
            (start.changes
                [.portal 1 true,
                  .settings { noAreas := true }]).toOption.bind
              fun blurred =>
                (start.changes
                    [.portal 1 true, .settings { noAreas := true },
                      .settings {}]).toOption.bind
                  fun world =>
                    (world.areaRow 1).toOption.map
                      fun row =>
                        (level.own.areas.size, blurred.config.noAreas,
                          world.config.noAreas, row)) =
        some (3, true, false, ⟨#[0x06]⟩) := by
    decide +kernel
  simp only [Option.bind_eq_some_iff, Option.map_eq_some_iff,
    toOption_eq_some_iff, Prod.mk.injEq] at run
  obtain ⟨level, accepted, start, loaded, blurred, blurs, world, changed,
    row, answers, areaCount, noAreas, matter, isRow⟩ := run
  obtain ⟨used, usedLoaded, rows⟩ :=
    areaRow_iff_areasJoined (.inr ⟨_, accepted⟩)
  cases loaded.symm.trans usedLoaded
  have inRange : 1 < level.own.areas.size := by
    rw [areaCount]
    decide
  obtain ⟨full, answersFull, length, _, allSet⟩ :=
    rows _ blurred blurs 1 inRange
  obtain ⟨allSet, allJoined⟩ := allSet noAreas
  rw [areaCount] at length
  obtain ⟨_, answersAgain, _, told, _⟩ := rows _ world changed 1 inRange
  cases answers.symm.trans answersAgain
  obtain ⟨told, _⟩ := told matter
  obtain ⟨here, joinsHere, here_iff⟩ := told 2 (by rw [areaCount]; decide)
  obtain ⟨there, joinsThere, there_iff⟩ := told 0 (by rw [areaCount]; decide)
  rw [isRow] at here_iff there_iff
  have isHere : here = true := by
    exact (here_iff.mp (by decide)).resolve_left (by decide)
  have isThere : there = false := by
    refine Bool.eq_false_iff.mpr fun isJoined => ?_
    exact absurd (there_iff.mpr (.inr isJoined)) (by decide)
  rw [isHere] at joinsHere
  rw [isThere] at joinsThere
  exact
    ⟨level, start, blurred, world, full, row, accepted, loaded, blurs,
      changed, answersFull, allJoined 0 1,
      allSet 7 (by rw [length]; decide), answers, isRow, joinsHere,
      joinsThere⟩

end World

end LevelCollision

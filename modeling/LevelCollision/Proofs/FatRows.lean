import LevelCollision.Proofs.FloodFaults
import LevelCollision.Proofs.PackedLevel
import LevelCollision.Proofs.TouchedLeaves
import LevelCollision.Proofs.VisibilityQueries

namespace LevelCollision

/-!
# Rows around a point

The row around a point joins the rows of the leaves that a cube touches, up to a limit. No
leaf is passed over in `joinAll`. That the query looks up each cluster once cannot be seen,
because the row of a cluster that was looked up is part of what was joined since.
-/

namespace Level

variable {S : Type} [Scalar S] {level : Level S}

/-- The clusters seen from a leaf. -/
def leafRow
    (level : Level S)
    (leaf : Nat) : Except Fault BitRow := do
  let cluster ← level.leafCluster leaf
  let row ← level.clusterRow .sight cluster
  return row.value

/-- Join the rows of leaves to a row, one after the other. -/
def joinAll
    (level : Level S)
    (leaves : List Nat)
    (joined : BitRow) : Except Fault BitRow :=
  leaves.foldlM
    (fun joined leaf => do
      let row ← level.leafRow leaf
      return joined.union row)
    joined

section Rows

variable {leaf cluster : Nat} {sense : Sense} {row : Logged BitRow}

/-- Nothing is seen or heard from outside of the clusters. -/
theorem get_of_clusterRow_none
    (found : level.clusterRow sense none = .ok row)
    (position : Nat) :
    row.value.get position = false := by
  cases found
  exact BitRow.get_clear _ _

/-- A cluster sees and hears itself, whatever its stored row says. -/
theorem get_of_clusterRow_some
    (found : level.clusterRow sense (some cluster) = .ok row) :
    row.value.get cluster = true := by
  rw [clusterRow] at found
  split at found
  · rename_i inRange
    have inRow : cluster / 8 < level.rowLength :=
      BitRow.div_lt_byteCount inRange
    split at found
    · cases found
      exact BitRow.get_full inRow
    · split at found
      · cases found
      · rename_i stored _
        have marks :=
          BitRow.mark_of_lt (RunLength.size_expand stored level.rowLength)
            inRange
        dsimp only at found
        rw [marks, ok_bind] at found
        cases found
        rw [BitRow.get_set (by simpa using inRow), decide_eq_true rfl,
          Bool.true_or]
  · cases found

/-- The row of a leaf is that of its cluster. -/
theorem leafRow_of_clusterRow
    {cluster : Option Nat}
    (foundCluster : level.leafCluster leaf = .ok cluster)
    (foundRow : level.clusterRow .sight cluster = .ok row) :
    level.leafRow leaf = .ok row.value := by
  rw [leafRow, foundCluster, ok_bind, foundRow]
  rfl

/-- A leaf has a row with a bit for each cluster. -/
theorem Sound.exists_leafRow
    (sound : level.Sound)
    (inRange : leaf < level.own.leaves.size) :
    ∃ cluster row,
      level.leafCluster leaf = .ok cluster ∧
        level.clusterRow .sight cluster = .ok row ∧
          row.value.bytes.size = level.rowLength := by
  obtain ⟨cluster, foundCluster, isCluster⟩ :=
    sound.exists_leafCluster inRange
  obtain ⟨row, foundRow, length⟩ := sound.exists_clusterRow isCluster .sight
  exact ⟨cluster, row, foundCluster, foundRow, length⟩

/-- A bit of the row of a leaf is one that the leaf's cluster sees. -/
theorem get_leafRow_iff
    {position : Nat} :
    (∃ row, level.leafRow leaf = .ok row ∧ row.get position = true) ↔
      ∃ cluster row,
        level.leafCluster leaf = .ok (some cluster) ∧
          level.clusterRow .sight (some cluster) = .ok row ∧
            row.value.get position = true := by
  constructor
  · rintro ⟨part, found, isSet⟩
    obtain ⟨cluster, foundCluster, found⟩ := bind_eq_ok_iff.mp found
    obtain ⟨row, foundRow, made⟩ := bind_eq_ok_iff.mp found
    cases made
    cases cluster with
    | none =>
        rw [get_of_clusterRow_none foundRow] at isSet
        cases isSet
    | some cluster =>
        exact ⟨cluster, row, foundCluster, foundRow, isSet⟩
  · rintro ⟨cluster, row, foundCluster, foundRow, isSet⟩
    exact ⟨row.value, leafRow_of_clusterRow foundCluster foundRow, isSet⟩

end Rows

section Joins

variable {leaves : List Nat}

/-- A leaf adds its row to what was joined before. -/
theorem joinAll_cons
    {leaf : Nat}
    {row : BitRow}
    (found : level.leafRow leaf = .ok row)
    (rest : List Nat)
    (joined : BitRow) :
    level.joinAll (leaf :: rest) joined =
      level.joinAll rest (joined.union row) := by
  rw [joinAll, List.foldlM_cons, found]
  rfl

/-- That a cluster is looked up once does not change what is joined. -/
theorem Sound.exists_joinRows_eq_joinAll
    (sound : level.Sound)
    (inRange : ∀ leaf ∈ leaves, leaf < level.own.leaves.size)
    {seen : List (Option Nat)}
    {joined : Logged BitRow}
    (length : joined.value.bytes.size = level.rowLength)
    (included :
      ∀ cluster ∈ seen,
        ∀ row,
          level.clusterRow .sight cluster = .ok row →
            joined.value.Includes row.value) :
    ∃ row,
      level.joinRows leaves seen joined = .ok row ∧
        level.joinAll leaves joined.value = .ok row.value := by
  induction leaves generalizing seen joined with
  | nil =>
      exact ⟨joined, rfl, rfl⟩
  | cons leaf rest inductionHypothesis =>
      obtain ⟨leafInRange, restInRange⟩ := List.forall_mem_cons.mp inRange
      obtain ⟨cluster, row, foundCluster, foundRow, rowLength⟩ :=
        sound.exists_leafRow leafInRange
      have foundLeafRow := leafRow_of_clusterRow foundCluster foundRow
      have sameLength : joined.value.bytes.size = row.value.bytes.size :=
        length.trans rowLength.symm
      rw [joinAll_cons foundLeafRow, joinRows, foundCluster, ok_bind]
      split
      · rename_i wasSeen
        have wasJoined : joined.value.union row.value = joined.value :=
          (included cluster (List.contains_iff_mem.mp wasSeen) row
            foundRow).union_eq sameLength
        rw [wasJoined]
        exact inductionHypothesis restInRange length included
      · rw [foundRow, ok_bind]
        refine
          inductionHypothesis restInRange
            ((BitRow.size_union sameLength).trans length) ?_
        intro other member part foundPart position isSet
        rw [BitRow.get_union sameLength, Bool.or_eq_true]
        rcases List.mem_cons.mp member with rfl | wasSeen
        · cases foundRow.symm.trans foundPart
          exact .inr isSet
        · exact .inl (included other wasSeen part foundPart position isSet)

/-- What is joined has the bits that it had before, and those of all leaves. -/
theorem Sound.get_of_joinAll
    (sound : level.Sound)
    (inRange : ∀ leaf ∈ leaves, leaf < level.own.leaves.size)
    {joined result : BitRow}
    (length : joined.bytes.size = level.rowLength)
    (joins : level.joinAll leaves joined = .ok result) :
    result.bytes.size = level.rowLength ∧
      ∀ position,
        result.get position = true ↔
          joined.get position = true ∨
            ∃ leaf ∈ leaves,
              ∃ row,
                level.leafRow leaf = .ok row ∧ row.get position = true := by
  induction leaves generalizing joined with
  | nil =>
      cases joins
      refine ⟨length, fun position => ?_⟩
      simp
  | cons leaf rest inductionHypothesis =>
      obtain ⟨leafInRange, restInRange⟩ := List.forall_mem_cons.mp inRange
      obtain ⟨cluster, row, foundCluster, foundRow, rowLength⟩ :=
        sound.exists_leafRow leafInRange
      have foundLeafRow := leafRow_of_clusterRow foundCluster foundRow
      have sameLength : joined.bytes.size = row.value.bytes.size :=
        length.trans rowLength.symm
      rw [joinAll_cons foundLeafRow] at joins
      obtain ⟨resultLength, bits⟩ :=
        inductionHypothesis restInRange
          ((BitRow.size_union sameLength).trans length) joins
      refine ⟨resultLength, fun position => ?_⟩
      rw [bits position, BitRow.get_union sameLength, Bool.or_eq_true,
        or_assoc]
      simp [foundLeafRow]

end Joins

end Level

/-- The cube around a point. -/
def Box.around
    {S : Type} [Scalar S]
    (center : Vec3 S)
    (radius : S) : Box S where
  mins := center - Vec3.splat radius
  maxs := center + Vec3.splat radius

namespace Level

variable {S : Type} [Scalar S] {level : Level S} {head : Head S}

variable {center : Vec3 S} {radius : S} {leaves : List Nat} {top : Option Nat}

/-- The row around a point joins the rows of the first leaves that the cube touches. -/
theorem Sound.exists_fatRow_eq_joinAll
    (sound : level.Sound)
    (isWorld : level.worldHead = .ok head)
    (isTree : head.isBox = false)
    (walkable : level.Walkable head)
    (touches :
      (level.tree head).Touches (.around center radius) (level.tree head).root
        leaves top)
    (limit : Nat) :
    ∃ row,
      level.fatRow limit center radius = .ok row ∧
        level.joinAll (leaves.take limit) (.clear level.rowLength) =
          .ok row.value ∧
        row.value.bytes.size = level.rowLength ∧
        ∀ position,
          row.value.get position = true ↔
            ∃ leaf ∈ leaves.take limit,
              ∃ cluster seen,
                level.leafCluster leaf = .ok (some cluster) ∧
                  level.clusterRow .sight (some cluster) = .ok seen ∧
                    seen.value.get position = true := by
  have inRange
      (leaf : Nat)
      (member : leaf ∈ leaves.take limit) :
      leaf < level.own.leaves.size :=
    walkable.ownLeaf isTree leaf
      (touches.below_of_mem (List.mem_of_mem_take member))
  have lists :
      (level.tree head).boxLeaves (.around center radius) limit =
        .ok ⟨(leaves.take limit).toArray, top⟩ :=
    touches.boxLeaves walkable.ends limit
  obtain ⟨row, joins, isAll⟩ :=
    @Sound.exists_joinRows_eq_joinAll S _ level (leaves.take limit) sound
      inRange [] { value := .clear level.rowLength }
      (BitRow.size_clear level.rowLength)
      (fun cluster isSeen => absurd isSeen List.not_mem_nil)
  have answers : level.fatRow limit center radius = .ok row := by
    rw [fatRow, isWorld, ok_bind]
    exact bind_eq_ok_iff.mpr ⟨_, lists, joins⟩
  obtain ⟨length, bits⟩ :=
    sound.get_of_joinAll inRange (BitRow.size_clear level.rowLength) isAll
  refine ⟨row, answers, isAll, length, fun position => ?_⟩
  rw [bits position]
  simp only [BitRow.get_clear, Bool.false_eq_true, false_or, get_leafRow_iff]

end Level

/--
In front of the wall there are two rooms on either side of another plane. Each of them is all
that is seen from it; the row of the one in front is stored as a run of zeros.
-/
def Stored.Level.twoRooms : Stored.Level :=
  { doorway with
    leaves :=
      [{ contents := 1, cluster := -1, area := 0, firstBrush := 0,
          brushCount := 1 },
        { contents := 0, cluster := 0, area := 1, firstBrush := 0,
          brushCount := 0 },
        { contents := 0, cluster := 1, area := 1, firstBrush := 0,
          brushCount := 0 }]
    planes :=
      [{ normal := ⟨0x3f800000, 0, 0⟩, dist := 0, kind := .axial .x },
        { normal := ⟨0x3f800000, 0, 0⟩, dist := 0x40800000,
          kind := .axial .x }]
    nodes :=
      [{ plane := 0, front := 1, back := -1 },
        { plane := 1, front := -3, back := -2 }]
    visibility :=
      some
        { offsets := [(20, 20), (21, 21)]
          rows := [0x01, 0x00, 0x01] } }

namespace World

/--
The row around a point has the bits of the clusters that are seen from the first leaves, up to
the limit of the settings, that the cube around the point touches in the world. It is what the
rows of all these leaves join to, so that looking up each cluster once does not change it. A
higher limit clears no bit, and the clusters of these leaves are all in the row themselves.
-/
theorem get_fatRow_iff
    {world : World Float32}
    (origin :
      world.level = .empty ∨
        ∃ bytes, (Level.read bytes).outcome = .ok world.level)
    (acyclic :
      ∀ head,
        world.level.worldHead = .ok head → (world.level.tree head).Acyclic)
    (center : Vec3 Float32)
    (radius : Float32) :
    ∃ head leaves top row,
      world.level.worldHead = .ok head ∧
        (world.level.tree head).Touches (.around center radius)
          (world.level.tree head).root leaves top ∧
        world.fatRow center radius = .ok row ∧
        row.value.bytes.size = world.level.rowLength ∧
        (∀ position,
          row.value.get position = true ↔
            ∃ leaf ∈ leaves.take world.config.maxFatLeaves,
              ∃ cluster seen,
                world.level.leafCluster leaf = .ok (some cluster) ∧
                  world.clusterRow .sight (some cluster) = .ok seen ∧
                    seen.value.get position = true) ∧
        world.level.joinAll (leaves.take world.config.maxFatLeaves)
            (.clear world.level.rowLength) =
          .ok row.value ∧
        (∀ config : Config,
          world.config.maxFatLeaves ≤ config.maxFatLeaves →
            ∃ wider,
              { world with config := config }.fatRow center radius =
                  .ok wider ∧
                wider.value.Includes row.value) ∧
        ∀ leaf ∈ leaves.take world.config.maxFatLeaves,
          ∀ cluster,
            world.level.leafCluster leaf = .ok (some cluster) →
              row.value.get cluster = true := by
  have sound := Level.sound_of_origin origin
  obtain ⟨head, isWorld, walkable, isTree⟩ :=
    sound.exists_walkable_world acyclic
  obtain ⟨leaves, top, touches⟩ :=
    walkable.ends.exists_touches (.around center radius)
  obtain ⟨row, answers, joins, length, bits⟩ :=
    sound.exists_fatRow_eq_joinAll isWorld isTree walkable touches
      world.config.maxFatLeaves
  refine
    ⟨head, leaves, top, row, isWorld, touches, answers, length, bits, joins, ?_,
      ?_⟩
  · intro config atMost
    obtain ⟨wider, answersToo, _, _, widerBits⟩ :=
      sound.exists_fatRow_eq_joinAll isWorld isTree walkable touches
        config.maxFatLeaves
    refine ⟨wider, answersToo, fun position isSet => ?_⟩
    obtain ⟨leaf, member, sees⟩ := (bits position).mp isSet
    have member : leaf ∈ leaves.take config.maxFatLeaves :=
      List.take_subset_take_left leaves atMost member
    exact (widerBits position).mpr ⟨leaf, member, sees⟩
  · intro leaf member cluster foundCluster
    have below := touches.below_of_mem (List.mem_of_mem_take member)
    obtain ⟨_, seen, found, foundRow, _⟩ :=
      sound.exists_leafRow (walkable.ownLeaf isTree leaf below)
    cases foundCluster.symm.trans found
    exact
      (bits cluster).mpr
        ⟨leaf, member, cluster, seen, foundCluster, foundRow,
          Level.get_of_clusterRow_some foundRow⟩

/-- Settings with room for one leaf around a point. -/
def narrow : Config where
  maxFatLeaves := 1

/--
Where the two rooms meet, the room in front is in the row that has place for one leaf, and
both rooms are in the row of the usual settings.
-/
theorem fatRow_betweenRooms :
    ∃ (world : World Float32) (row wider : Logged BitRow),
      (Level.read Stored.Level.twoRooms.packed).outcome = .ok world.level ∧
        world.config = narrow ∧
        world.fatRow ⟨4, 0, 0⟩ 1 = .ok row ∧
        { world with config := {} }.fatRow ⟨4, 0, 0⟩ 1 = .ok wider ∧
        row.value = ⟨#[0x02]⟩ ∧
        wider.value = ⟨#[0x03]⟩ ∧
        wider.value.Includes row.value := by
  have run :
      ((Level.read Stored.Level.twoRooms.packed).outcome.toOption.bind
        fun level => (World.ofLevel level).toOption.bind
          fun _ =>
            (level.fatRow 1 ⟨4, 0, 0⟩ 1).toOption.bind
              fun row =>
                (level.fatRow 64 ⟨4, 0, 0⟩ 1).toOption.map
                  fun wider =>
                    (level.worldHead.toOption,
                      (level.tree (.tree (.node 0))).goesForward, row.value,
                      wider.value)) =
        some (some (.tree (.node 0)), true, ⟨#[0x02]⟩, ⟨#[0x03]⟩) := by
    decide +kernel
  simp only [Option.bind_eq_some_iff, Option.map_eq_some_iff,
    toOption_eq_some_iff, Prod.mk.injEq] at run
  obtain ⟨level, accepted, world, loaded, row, answers, wider, answersToo,
    isWorld, forward, isRow, isWider⟩ := run
  cases level_of_ofLevel loaded
  have answers :
      { world with config := narrow }.fatRow ⟨4, 0, 0⟩ 1 = .ok row :=
    answers
  have answersToo :
      { world with config := {} }.fatRow ⟨4, 0, 0⟩ 1 = .ok wider :=
    answersToo
  have acyclic
      (head : Head Float32)
      (isHead : world.level.worldHead = .ok head) :
      (world.level.tree head).Acyclic := by
    cases isWorld.symm.trans isHead
    exact Tree.acyclic_of_goesForward forward
  obtain ⟨_, _, _, other, _, _, answersAgain, _, _, _, widens, _⟩ :=
    @get_fatRow_iff { world with config := narrow } (.inr ⟨_, accepted⟩)
      acyclic ⟨4, 0, 0⟩ 1
  cases answers.symm.trans answersAgain
  obtain ⟨_, answersToWider, includesRow⟩ :=
    widens {} (show 1 ≤ 64 by decide)
  cases answersToo.symm.trans answersToWider
  exact
    ⟨{ world with config := narrow }, row, wider, accepted, rfl, answers,
      answersToo, isRow, isWider, includesRow⟩

end World

end LevelCollision

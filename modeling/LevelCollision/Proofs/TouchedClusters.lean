import Mathlib.Data.Finset.Card
import LevelCollision.Proofs.FatRows
import LevelCollision.Proofs.LeafLimits

namespace LevelCollision

/-!
# Clusters that a box touches

The clusters of a box are collected from the leaves that it touches, each of them when the
box first touches it. There is an answer when the list of leaves is known to be complete,
because it did not reach its limit, and when there are no more clusters than asked for. An
answer then has all clusters of these leaves.
-/

/-- The entries of a list, each of them once, in the order in which they first come up. -/
structure FirstsOf
    (entries firsts : List Nat) : Prop where
  mem_iff :
    ∀ entry, entry ∈ firsts ↔ entry ∈ entries
  ordered :
    firsts.Pairwise fun earlier later =>
      entries.idxOf earlier < entries.idxOf later

namespace FirstsOf

variable {entries firsts : List Nat} {entry : Nat}

/-- No entry comes up before the first one. -/
theorem none :
    FirstsOf [] [] where
  mem_iff _ := Iff.rfl
  ordered := .nil

/-- Entries that come up in a list keep their order when there is more behind it. -/
theorem ordered_append
    (isFirsts : FirstsOf entries firsts)
    (more : List Nat) :
    firsts.Pairwise fun earlier later =>
      (entries ++ more).idxOf earlier < (entries ++ more).idxOf later := by
  refine isFirsts.ordered.imp_of_mem ?_
  intro earlier later isEarlier isLater comesFirst
  have before := (isFirsts.mem_iff earlier).mp isEarlier
  have after := (isFirsts.mem_iff later).mp isLater
  simpa only [List.idxOf_append_of_mem before,
    List.idxOf_append_of_mem after] using comesFirst

/-- An entry that comes up again is not another one. -/
theorem again
    (isFirsts : FirstsOf entries firsts)
    (member : entry ∈ firsts) :
    FirstsOf (entries ++ [entry]) firsts where
  mem_iff other := by
    simp only [List.mem_append, List.mem_singleton, ← isFirsts.mem_iff]
    constructor
    · exact Or.inl
    · rintro (inFirsts | rfl)
      · exact inFirsts
      · exact member
  ordered := isFirsts.ordered_append [entry]

/-- An entry that comes up for the first time is put behind the others. -/
theorem fresh
    (isFirsts : FirstsOf entries firsts)
    (absent : entry ∉ firsts) :
    FirstsOf (entries ++ [entry]) (firsts ++ [entry]) where
  mem_iff other := by
    simp only [List.mem_append, isFirsts.mem_iff]
  ordered := by
    refine
      List.pairwise_append.mpr
        ⟨isFirsts.ordered_append [entry], List.pairwise_singleton _ _, ?_⟩
    intro earlier isEarlier later isLater
    rw [List.mem_singleton.mp isLater]
    have before := (isFirsts.mem_iff earlier).mp isEarlier
    have absent : entry ∉ entries := mt (isFirsts.mem_iff entry).mpr absent
    calc (entries ++ [entry]).idxOf earlier
        = entries.idxOf earlier := List.idxOf_append_of_mem before
      _ < entries.length := List.idxOf_lt_length_of_mem before
      _ ≤ (entries ++ [entry]).idxOf entry := by
          rw [List.idxOf_append_of_notMem absent]
          exact Nat.le_add_right _ _

/-- So there are as many of them as different entries. -/
theorem length_eq_card
    (isFirsts : FirstsOf entries firsts) :
    firsts.length = entries.toFinset.card := by
  have nodup : firsts.Nodup :=
    isFirsts.ordered.imp fun comesFirst same =>
      absurd (congrArg entries.idxOf same) (Nat.ne_of_lt comesFirst)
  have sameEntries : firsts.toFinset = entries.toFinset := by
    ext other
    simp only [List.mem_toFinset, isFirsts.mem_iff]
  rw [← sameEntries, List.toFinset_card_of_nodup nodup]

end FirstsOf

/-- What becomes of entries of which no more than a limit are collected. -/
inductive Collects
    (limit : Nat)
    (entries : List Nat) :
    Option (Array Nat) → Prop where
  | all
      {firsts : Array Nat} :
      FirstsOf entries firsts.toList →
      firsts.size ≤ limit →
      Collects limit entries (some firsts)
  | tooMany :
      limit < entries.toFinset.card →
      Collects limit entries none

/-- There is an answer if there are no more different entries than the limit. -/
theorem Collects.isSome_iff
    {limit : Nat}
    {entries : List Nat}
    {answer : Option (Array Nat)}
    (collects : Collects limit entries answer) :
    answer.isSome = true ↔ entries.toFinset.card ≤ limit := by
  cases collects with
  | all isFirsts fits =>
      rw [← isFirsts.length_eq_card]
      exact ⟨fun _ => fits, fun _ => rfl⟩
  | tooMany exceeds =>
      constructor
      · intro isSome
        cases isSome
      · intro fits
        exact absurd fits (Nat.not_le.mpr exceeds)

namespace Level

variable {S : Type} [Scalar S] {level : Level S}

/-- The clusters of leaves in the order of the leaves, with repetitions. -/
def clustersAmong
    (level : Level S)
    (leaves : List Nat) : List Nat :=
  leaves.filterMap fun leaf => level.own.leaves[leaf]?.bind Leaf.cluster

/-- The cluster of a leaf is found in its record. -/
theorem leafCluster_eq_ok_iff
    {leaf : Nat}
    {cluster : Option Nat} :
    level.leafCluster leaf = .ok cluster ↔
      ∃ entry,
        level.own.leaves[leaf]? = some entry ∧ entry.cluster = cluster := by
  unfold leafCluster Level.leaf
  cases level.own.leaves[leaf]? with
  | none =>
      simp
  | some entry =>
      simp [ok_bind, pure, Except.pure]

/-- A cluster comes up if it is that of one of the leaves. -/
theorem mem_clustersAmong_iff
    {leaves : List Nat}
    {cluster : Nat} :
    cluster ∈ level.clustersAmong leaves ↔
      ∃ leaf ∈ leaves, level.leafCluster leaf = .ok (some cluster) := by
  simp only [clustersAmong, List.mem_filterMap, Option.bind_eq_some_iff,
    leafCluster_eq_ok_iff]

/-- A leaf outside of the clusters adds none. -/
theorem clustersAmong_cons_none
    {leaf : Nat}
    (found : level.leafCluster leaf = .ok none)
    (rest : List Nat) :
    level.clustersAmong (leaf :: rest) = level.clustersAmong rest := by
  obtain ⟨entry, foundEntry, outside⟩ := leafCluster_eq_ok_iff.mp found
  simp only [clustersAmong, List.filterMap_cons, foundEntry,
    Option.bind_some, outside]

/-- Any other leaf adds its cluster. -/
theorem clustersAmong_cons_some
    {leaf cluster : Nat}
    (found : level.leafCluster leaf = .ok (some cluster))
    (rest : List Nat) :
    level.clustersAmong (leaf :: rest) =
      [cluster] ++ level.clustersAmong rest := by
  obtain ⟨entry, foundEntry, inside⟩ := leafCluster_eq_ok_iff.mp found
  simp only [clustersAmong, List.filterMap_cons, foundEntry,
    Option.bind_some, inside, List.singleton_append]

/-- The clusters of leaves are collected behind those that were found before. -/
theorem Sound.exists_distinctClusters_collects
    (sound : level.Sound)
    {limit : Nat}
    {leaves : List Nat}
    (inRange : ∀ leaf ∈ leaves, leaf < level.own.leaves.size)
    {before : List Nat}
    {found : Array Nat}
    (isFirsts : FirstsOf before found.toList)
    (fits : found.size ≤ limit) :
    ∃ answer,
      level.distinctClusters limit leaves found = .ok answer ∧
        Collects limit (before ++ level.clustersAmong leaves) answer := by
  induction leaves generalizing before found with
  | nil =>
      refine ⟨some found, rfl, .all ?_ fits⟩
      simpa only [clustersAmong, List.filterMap_nil, List.append_nil]
        using isFirsts
  | cons leaf rest inductionHypothesis =>
      obtain ⟨leafInRange, restInRange⟩ := List.forall_mem_cons.mp inRange
      obtain ⟨cluster, foundCluster, _⟩ :=
        sound.exists_leafCluster leafInRange
      rw [distinctClusters, foundCluster, ok_bind]
      cases cluster with
      | none =>
          rw [clustersAmong_cons_none foundCluster]
          exact inductionHypothesis restInRange isFirsts fits
      | some cluster =>
          rw [clustersAmong_cons_some foundCluster, ← List.append_assoc]
          dsimp only
          split
          · rename_i wasFound
            have member : cluster ∈ found.toList := by
              simpa using wasFound
            exact
              inductionHypothesis restInRange (isFirsts.again member) fits
          · rename_i notFound
            have absent : cluster ∉ found.toList := by
              simpa using notFound
            have isFresh := isFirsts.fresh absent
            split
            · rename_i isFull
              -- The clusters found so far and this one exceed the limit already.
              refine ⟨none, rfl, .tooMany ?_⟩
              calc limit
                  < (found.toList ++ [cluster]).length := by
                    simp [isFull]
                _ = (before ++ [cluster]).toFinset.card :=
                    isFresh.length_eq_card
                _ ≤ ((before ++ [cluster]) ++
                      level.clustersAmong rest).toFinset.card := by
                    refine Finset.card_le_card fun entry member => ?_
                    simp only [List.mem_toFinset] at member ⊢
                    exact List.mem_append_left _ member
            · rename_i notFull
              refine inductionHypothesis restInRange ?_ ?_
              · rw [Array.toList_push]
                exact isFresh
              · rw [Array.size_push]
                omega

/-- A box has clusters, unless it touches too many leaves or too many clusters. -/
theorem Sound.exists_boxClusters_of_touches
    (sound : level.Sound)
    {head : Head S}
    (isWorld : level.worldHead = .ok head)
    (isTree : head.isBox = false)
    (walkable : level.Walkable head)
    {box : Box S}
    {leaves : List Nat}
    {top : Option Nat}
    (touches :
      (level.tree head).Touches box (level.tree head).root leaves top)
    (leafLimit limit : Nat) :
    ∃ answer,
      level.boxClusters leafLimit box limit = .ok answer ∧
        (leafLimit ≤ leaves.length ∧ answer = none ∨
          leaves.length < leafLimit ∧
            Collects limit (level.clustersAmong leaves) answer) := by
  have lists : (level.tree head).boxLeaves box leafLimit = _ :=
    touches.boxLeaves walkable.ends leafLimit
  rw [boxClusters, isWorld, ok_bind, lists, ok_bind]
  simp only [List.size_toArray, List.length_take]
  split
  · rename_i reached
    exact ⟨none, rfl, .inl ⟨by omega, rfl⟩⟩
  · rename_i notReached
    have short : leaves.length < leafLimit := by omega
    rw [List.take_of_length_le (Nat.le_of_lt short)]
    obtain ⟨answer, collected, collects⟩ :=
      sound.exists_distinctClusters_collects
        (fun leaf member =>
          walkable.ownLeaf isTree leaf (touches.below_of_mem member))
        FirstsOf.none (Nat.zero_le limit)
    exact ⟨answer, collected, .inr ⟨short, collects⟩⟩

end Level

namespace World

/--
A box touches the leaves of the world in one order only. Its clusters are told exactly when
these leaves are fewer than the limit of the settings and are in no more different clusters
than were asked for. The answer then lists every cluster that one of the leaves is in, and no
other, each of them once and in the order in which the box first touches them.
-/
theorem isSome_boxClusters_iff
    {world : World Float32}
    (origin :
      world.level = .empty ∨
        ∃ bytes, (Level.read bytes).outcome = .ok world.level)
    (acyclic :
      ∀ head,
        world.level.worldHead = .ok head → (world.level.tree head).Acyclic)
    (box : Box Float32)
    (limit : Nat) :
    ∃ head leaves top answer,
      world.level.worldHead = .ok head ∧
        (∀ others otherTop,
          (world.level.tree head).Touches box (world.level.tree head).root
              others otherTop ↔
            others = leaves ∧ otherTop = top) ∧
        world.boxClusters box limit = .ok answer ∧
        (answer.isSome = true ↔
          leaves.length < world.config.maxTouchedLeaves ∧
            (world.level.clustersAmong leaves).toFinset.card ≤ limit) ∧
        ∀ clusters,
          answer = some clusters →
            FirstsOf (world.level.clustersAmong leaves) clusters.toList ∧
              ∀ cluster,
                cluster ∈ clusters ↔
                  ∃ leaf ∈ leaves,
                    world.level.leafCluster leaf = .ok (some cluster) := by
  have sound := Level.sound_of_origin origin
  obtain ⟨head, isWorld, walkable, isTree⟩ :=
    sound.exists_walkable_world acyclic
  obtain ⟨leaves, top, touches⟩ := walkable.ends.exists_touches box
  obtain ⟨answer, answers, told⟩ :=
    sound.exists_boxClusters_of_touches isWorld isTree walkable touches
      world.config.maxTouchedLeaves limit
  refine ⟨head, leaves, top, answer, isWorld, ?_, answers, ?_, ?_⟩
  · intro others otherTop
    constructor
    · exact touches.unique
    · rintro ⟨rfl, rfl⟩
      exact touches
  · rcases told with ⟨reached, rfl⟩ | ⟨short, collects⟩
    · simp [Nat.not_lt.mpr reached]
    · rw [collects.isSome_iff]
      exact ⟨fun fits => ⟨short, fits⟩, And.right⟩
  · rintro clusters rfl
    rcases told with ⟨_, isNone⟩ | ⟨_, collects⟩
    · cases isNone
    · cases collects with
      | all isFirsts _ =>
          refine ⟨isFirsts, fun cluster => ?_⟩
          rw [← Level.mem_clustersAmong_iff, ← isFirsts.mem_iff,
            Array.mem_toList_iff]

/-- A box that reaches from the wall into both rooms in front of it. -/
def acrossRooms : Box Float32 where
  mins := ⟨-1, 0, 0⟩
  maxs := ⟨5, 0, 0⟩

/-- Settings with room for four leaves of a box. -/
def roomy : Config where
  maxTouchedLeaves := 4

/--
The box touches the two rooms and then the wall, which is in no cluster. Both clusters are
told if two were asked for and there was room for a fourth leaf.
-/
theorem boxClusters_acrossRooms :
    ∃ (world : World Float32) (leaves : List Nat),
      (Level.read Stored.Level.twoRooms.packed).outcome = .ok world.level ∧
        world.config = roomy ∧
        world.boxClusters acrossRooms 2 = .ok (some #[1, 0]) ∧
        leaves.length < 4 ∧
        (world.level.clustersAmong leaves).toFinset.card ≤ 2 ∧
        FirstsOf (world.level.clustersAmong leaves) [1, 0] ∧
        world.boxClusters acrossRooms 1 = .ok none ∧
        { world with config := { maxTouchedLeaves := 3 } }.boxClusters
            acrossRooms 2 =
          .ok none := by
  have run :
      ((Level.read Stored.Level.twoRooms.packed).outcome.toOption.bind
        fun level => (World.ofLevel level).toOption.bind
          fun _ =>
            (level.boxClusters 4 acrossRooms 2).toOption.bind
              fun both =>
                (level.boxClusters 4 acrossRooms 1).toOption.bind
                  fun tooMany =>
                    (level.boxClusters 3 acrossRooms 2).toOption.map
                      fun full =>
                        (level.worldHead.toOption,
                          (level.tree (.tree (.node 0))).goesForward, both,
                          tooMany.isNone && full.isNone)) =
        some (some (.tree (.node 0)), true, some #[1, 0], true) := by
    decide +kernel
  simp only [Option.bind_eq_some_iff, Option.map_eq_some_iff,
    toOption_eq_some_iff, Prod.mk.injEq, Bool.and_eq_true,
    Option.isNone_iff_eq_none] at run
  obtain ⟨level, accepted, world, loaded, both, answers, tooMany,
    answersOne, full, answersThree, isWorld, forward, rfl, rfl, rfl⟩ := run
  cases level_of_ofLevel loaded
  have answers :
      { world with config := roomy }.boxClusters acrossRooms 2 =
        .ok (some #[1, 0]) :=
    answers
  have acyclic
      (head : Head Float32)
      (isHead : world.level.worldHead = .ok head) :
      (world.level.tree head).Acyclic := by
    cases isWorld.symm.trans isHead
    exact Tree.acyclic_of_goesForward forward
  obtain ⟨_, leaves, _, other, _, _, answersAgain, told, lists⟩ :=
    @isSome_boxClusters_iff { world with config := roomy }
      (.inr ⟨_, accepted⟩) acyclic acrossRooms 2
  cases answers.symm.trans answersAgain
  obtain ⟨short, fits⟩ := told.mp rfl
  exact
    ⟨{ world with config := roomy }, leaves, accepted, rfl, answers, short,
      fits, (lists #[1, 0] rfl).1, answersOne, answersThree⟩

end World

end LevelCollision

import LevelCollision.Proofs.BitRows
import LevelCollision.Proofs.OfferedHeads

namespace LevelCollision

/-!
# Visibility queries of sound levels

A row is as long as the number of clusters asks for, whatever its stored bytes are, so
that it has a bit for every cluster. The clusters of leaves are clusters of the level.
Queries that join the rows of leaves, or collect their clusters, are answered wherever
walks from the head of the world end.
-/

namespace RunLength

variable {length : Nat} {written : Array UInt8}

/-- There is room for a byte while the length is not reached. -/
theorem size_push_le
    (notFull : ¬length ≤ written.size)
    (byte : UInt8) :
    (written.push byte).size ≤ length := by
  rw [Array.size_push]
  exact Nat.lt_of_not_le notFull

/-- There is room for zeros that do not exceed it. -/
theorem size_run_le
    {count : Nat}
    (noOverrun : ¬length < written.size + count) :
    (written ++ Array.replicate count 0).size ≤ length := by
  rw [Array.size_append, Array.size_replicate]
  exact Nat.le_of_not_lt noOverrun

/-- An expansion does not write past its length. -/
theorem size_expandOnto_le
    (fits : written.size ≤ length)
    (stored : List UInt8) :
    (expandOnto length written stored).1.size ≤ length := by
  fun_induction expandOnto length written stored with
  | case1 written stored full =>
      exact fits
  | case2 written notFull =>
      exact fits
  | case3 written notFull byte rest notZero inductionHypothesis =>
      exact inductionHypothesis (size_push_le notFull byte)
  | case4 written notFull byte notNonzero =>
      exact fits
  | case5 written notFull byte notNonzero count further overrun =>
      exact fits
  | case6 written notFull byte notNonzero count further noOverrun
      inductionHypothesis =>
      exact inductionHypothesis (size_run_le noOverrun)

/-- A row is expanded to its length. -/
@[simp] theorem size_expand
    (stored : List UInt8)
    (length : Nat) :
    (expand stored length).value.bytes.size = length := by
  have fits : (#[] : Array UInt8).size ≤ length :=
    Nat.zero_le length
  -- Padding makes up the length exactly only because nothing was written past it.
  have bound := size_expandOnto_le fits stored
  change (padTo length (expandOnto length #[] stored).1).size = length
  rw [padTo, Array.size_append, Array.size_replicate]
  omega

end RunLength

/-- The stored bytes of a row are those from its offset onwards. -/
theorem VisibilityTable.Sound.exists_stored
    {table : VisibilityTable}
    {clusterCount cluster : Nat}
    (sound : table.Sound clusterCount)
    (inRange : cluster < clusterCount)
    (sense : Sense) :
    ∃ offsets,
      table.offsets[cluster]? = some offsets ∧
        table.stored? sense cluster =
          some (table.bytes.drop (offsets.get sense)) := by
  have hasOffsets : cluster < table.offsets.size := by
    rw [← sound.clusters] at inRange
    exact inRange
  have found := Array.getElem?_eq_getElem hasOffsets
  have begins :=
    sound.begins _ (Array.getElem_mem hasOffsets) sense
  refine ⟨_, found, ?_⟩
  rw [stored?, found, Option.bind_some, if_pos (Nat.le_of_lt begins)]

namespace Level

variable {S : Type} [Scalar S] {level : Level S}

/-- A stored row of a cluster is expanded, and the bit of the cluster itself is set. -/
theorem Sound.exists_clusterRow_of_table
    (sound : level.Sound)
    {table : VisibilityTable}
    (isTable : level.visibility = some table)
    {cluster : Nat}
    (inRange : cluster < level.clusterCount)
    (sense : Sense) :
    ∃ offsets row,
      table.offsets[cluster]? = some offsets ∧
        level.clusterRow sense (some cluster) = .ok row ∧
          row.value =
            (RunLength.expand (table.bytes.drop (offsets.get sense))
              level.rowLength).value.set cluster := by
  obtain ⟨offsets, found, stored⟩ :=
    (sound.rows table isTable).exists_stored inRange sense
  have marks :=
    BitRow.mark_of_lt
      (RunLength.size_expand (table.bytes.drop (offsets.get sense))
        level.rowLength)
      inRange
  rw [clusterRow, if_pos inRange, isTable]
  dsimp only
  rw [stored]
  dsimp only
  rw [marks, ok_bind]
  exact ⟨offsets, _, found, rfl, rfl⟩

/-- A cluster has a row with a bit for each cluster. -/
theorem Sound.exists_clusterRow
    (sound : level.Sound)
    {cluster : Option Nat}
    (inRange : ∀ id ∈ cluster, id < level.clusterCount)
    (sense : Sense) :
    ∃ row,
      level.clusterRow sense cluster = .ok row ∧
        row.value.bytes.size = level.rowLength := by
  cases cluster with
  | none =>
      exact ⟨_, rfl, Array.size_replicate⟩
  | some id =>
      have isCluster := inRange id rfl
      cases shape : level.visibility with
      | none =>
          rw [clusterRow, if_pos isCluster, shape]
          exact ⟨_, rfl, Array.size_replicate⟩
      | some table =>
          obtain ⟨_, row, _, found, isRow⟩ :=
            sound.exists_clusterRow_of_table shape isCluster sense
          refine ⟨row, found, ?_⟩
          rw [isRow, BitRow.size_set, RunLength.size_expand]

/-- The cluster of a leaf is one of the level's. -/
theorem Sound.exists_leafCluster
    (sound : level.Sound)
    {leaf : Nat}
    (inRange : leaf < level.own.leaves.size) :
    ∃ cluster,
      level.leafCluster leaf = .ok cluster ∧
        ∀ id ∈ cluster, id < level.clusterCount := by
  have found : level.leaf leaf = .ok level.own.leaves[leaf] := by
    rw [Level.leaf, Array.getElem?_eq_getElem inRange]
  refine ⟨_, bind_eq_ok_iff.mpr ⟨_, found, rfl⟩, ?_⟩
  exact sound.closed.leafCluster _ (Array.getElem_mem inRange)

/-- The rows of leaves can be joined. -/
theorem Sound.exists_joinRows
    (sound : level.Sound)
    {leaves : List Nat}
    (inRange : ∀ leaf ∈ leaves, leaf < level.own.leaves.size)
    (seen : List (Option Nat))
    (joined : Logged BitRow) :
    ∃ row, level.joinRows leaves seen joined = .ok row := by
  induction leaves generalizing seen joined with
  | nil =>
      exact ⟨joined, rfl⟩
  | cons leaf rest inductionHypothesis =>
      have restInRange :
          ∀ other ∈ rest, other < level.own.leaves.size := by
        intro other member
        exact inRange other (List.mem_cons_of_mem leaf member)
      obtain ⟨cluster, found, isCluster⟩ :=
        sound.exists_leafCluster (inRange leaf List.mem_cons_self)
      rw [joinRows, found, ok_bind]
      split
      · exact inductionHypothesis restInRange seen joined
      · obtain ⟨row, foundRow, _⟩ := sound.exists_clusterRow isCluster .sight
        rw [foundRow, ok_bind]
        exact inductionHypothesis restInRange _ _

/-- The clusters of leaves can be collected. -/
theorem Sound.exists_distinctClusters
    (sound : level.Sound)
    (limit : Nat)
    {leaves : List Nat}
    (inRange : ∀ leaf ∈ leaves, leaf < level.own.leaves.size)
    (found : Array Nat) :
    ∃ clusters, level.distinctClusters limit leaves found = .ok clusters := by
  induction leaves generalizing found with
  | nil =>
      exact ⟨some found, rfl⟩
  | cons leaf rest inductionHypothesis =>
      have goesOn :=
        inductionHypothesis fun other member =>
          inRange other (List.mem_cons_of_mem leaf member)
      obtain ⟨cluster, foundCluster, _⟩ :=
        sound.exists_leafCluster (inRange leaf List.mem_cons_self)
      rw [distinctClusters, foundCluster, ok_bind]
      cases cluster with
      | none =>
          exact goesOn found
      | some id =>
          dsimp only
          split
          · exact goesOn found
          · split
            · exact ⟨none, rfl⟩
            · exact goesOn (found.push id)

/-- A box touches leaves of the world that are the level's own. -/
theorem Sound.exists_worldLeaves
    (sound : level.Sound)
    (acyclic : level.Acyclic)
    (box : Box S)
    (limit : Nat) :
    ∃ head list,
      level.worldHead = .ok head ∧
        (level.tree head).boxLeaves box limit = .ok list ∧
          ∀ leaf ∈ list.leaves.toList, leaf < level.own.leaves.size := by
  obtain ⟨head, found, walkable, isTree⟩ := sound.exists_worldHead acyclic
  obtain ⟨list, gathers, below⟩ :=
    Tree.exists_boxLeaves walkable.ends box limit
  refine ⟨head, list, found, gathers, fun leaf member => ?_⟩
  exact
    walkable.ownLeaf isTree leaf
      (below leaf (Array.mem_toList_iff.mp member))

/-- The clusters seen from around a point can be told. -/
theorem Sound.exists_fatRow
    (sound : level.Sound)
    (acyclic : level.Acyclic)
    (limit : Nat)
    (origin : Vec3 S)
    (radius : S) :
    ∃ row, level.fatRow limit origin radius = .ok row := by
  obtain ⟨head, list, foundHead, gathers, inRange⟩ :=
    sound.exists_worldLeaves acyclic
      { mins := origin - Vec3.splat radius
        maxs := origin + Vec3.splat radius }
      limit
  rw [fatRow, foundHead, ok_bind]
  dsimp only
  rw [gathers, ok_bind]
  exact sound.exists_joinRows inRange _ _

/-- So can the clusters that a box touches. -/
theorem Sound.exists_boxClusters
    (sound : level.Sound)
    (acyclic : level.Acyclic)
    (leafLimit : Nat)
    (box : Box S)
    (limit : Nat) :
    ∃ clusters, level.boxClusters leafLimit box limit = .ok clusters := by
  obtain ⟨head, list, foundHead, gathers, inRange⟩ :=
    sound.exists_worldLeaves acyclic box leafLimit
  rw [boxClusters, foundHead, ok_bind, gathers, ok_bind]
  split
  · exact ⟨none, rfl⟩
  · exact sound.exists_distinctClusters limit inRange #[]

end Level

end LevelCollision

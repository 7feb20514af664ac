import LevelCollision.Proofs.CheckedLoading
import LevelCollision.Proofs.FloodFaults
import LevelCollision.Proofs.LoadedLevel

namespace LevelCollision

/-!
# Safe loading

A level is loaded from bytes by checked steps. Behind the lumps of the file come the
check of all records, which adds up the ends of their runs, the look for an empty leaf,
the numbers in the records of the hull of boxes, and at last the first pass over the
areas. Whatever the bytes are, none of these steps fails. They end in the world of the
level that is read, or in the refusal of the reading, and the refusal is never one for
want of bytes.
-/

namespace Checked

/-- End with what was found to be wrong, if anything was. -/
def refuse :
    Option LevelError → Checked Unit
  | none => .ok ()
  | some error => .error (.refused error)

/-- The end of a run is compared to the number of records as a word. -/
def checkSpan
    (reference : Reference)
    (span : Span)
    (count : Nat) : Checked Unit := do
  let stop ← plus span.first span.count
  refuse
    (if stop ≤ count then none else some (.badIndex reference stop count))

/-- All records are checked in their order, up to the first that is wrong. -/
def validate
    (own : Records Float32)
    (clusterCount : Nat) : Checked Unit := do
  own.leaves.toList.forM fun leaf => do
    checkSpan .leafBrush leaf.brushes own.leafBrushes.size
    refuse
      (leaf.cluster.bind fun cluster =>
        Records.indexViolation? .cluster cluster clusterCount)
    refuse (Records.indexViolation? .area leaf.area own.areas.size)
  refuse
    (own.leafBrushes.findSome? fun brush =>
      Records.indexViolation? .brush brush own.brushes.size)
  own.brushes.toList.forM fun brush =>
    checkSpan .brushSide brush.sides own.brushSides.size
  refuse
    (own.brushSides.findSome? fun side =>
      Records.indexViolation? .plane side.plane own.planes.size)
  refuse
    (own.models.findSome? fun model => own.childViolation? model.head)
  refuse (own.nodes.findSome? own.nodeViolation?)
  own.areas.toList.forM fun area =>
    checkSpan .areaPortal area.portals own.areaPortals.size
  refuse (own.areaPortals.findSome? own.areaPortalViolation?)

/-- The first leaf is asked whether it is solid, and the others for an empty one. -/
def emptyLeaf
    (own : Records Float32) : Checked Nat := do
  let first ← ofAnswer (lookup own.leaves 0)
  refuse (if first.contents = .solid then none else some .badLeafZero)
  match own.leaves.toList.tail.findIdx? (·.contents.isEmpty) with
  | some place => plus place 1
  | none => throw (.refused .noEmptyLeaf)

/-- Whether the level leaves room for the records of a hull. -/
def fits
    (own : Records Float32) : Checked Bool := do
  let nodes ← plus own.nodes.size BoxHull.faceCount
  let planes ← plus own.planes.size BoxHull.planeCount
  let brushSides ← plus own.brushSides.size BoxHull.faceCount
  return nodes ≤ RecordKind.node.limit &&
    planes ≤ RecordKind.plane.limit &&
    brushSides ≤ RecordKind.brushSide.limit &&
    own.brushes.size < RecordKind.brush.limit &&
    own.leaves.size < RecordKind.leaf.limit &&
    own.leafBrushes.size < RecordKind.leafBrush.limit

/-- What lies inside a face of the hull. -/
def inside
    (own : Records Float32)
    (face : Nat) : Checked Child := do
  if face + 1 = BoxHull.faceCount then
    return .leaf own.leaves.size
  else
    let next ← plus own.nodes.size (face + 1)
    return .node next

/-- The node and the brush side of a face of the hull. -/
def face
    (own : Records Float32)
    (emptyLeaf face : Nat) : Checked (Node × BrushSide) := do
  let plane ← plus own.planes.size (2 * face)
  let outward ← plus plane (face % 2)
  let inside ← inside own face
  let node : Node :=
    match BoxHull.outside face with
    | .front => { plane := plane, front := .leaf emptyLeaf, back := inside }
    | .back => { plane := plane, front := inside, back := .leaf emptyLeaf }
  return (node, { plane := outward, surface := none })

/-- The records of a level and behind them those of the hull. -/
def withBoxHull
    (own : Records Float32)
    (emptyLeaf : Nat) : Checked (Records Float32) := do
  let faces ← (List.range BoxHull.faceCount).mapM (face own emptyLeaf)
  return { own with
    planes := own.planes ++ BoxHull.planes BoxHull.unplaced
    nodes := own.nodes ++ (faces.map (·.1)).toArray
    leaves := own.leaves.push (BoxHull.leaf own)
    leafBrushes := own.leafBrushes.push own.brushes.size
    brushes := own.brushes.push (BoxHull.brush own)
    brushSides := own.brushSides ++ (faces.map (·.2)).toArray }

/-- The level of these records. -/
def ofRecords
    (own : Records Float32)
    (visibility : Option VisibilityTable)
    (clusterCount : Nat)
    (entityBytes : List UInt8)
    (fileSize : Nat) : Checked (Level Float32) := do
  validate own clusterCount
  let emptyLeaf ← emptyLeaf own
  let fits ← fits own
  if fits then
    -- A level has these records as its full ones by its construction.
    let _ ← withBoxHull own emptyLeaf
    return {
      own := own
      emptyLeaf := emptyLeaf
      visibility := visibility
      clusterCount := clusterCount
      entityBytes := entityBytes
      fileSize := fileSize }
  else
    throw (.refused .noBoxHullRoom)

/-- The level in the bytes of a file. -/
def level
    (bytes : List UInt8) : Checked (Level Float32) := do
  let file ← file bytes
  let own ← file.allRecords
  let visibility ← file.visibility
  let text ← file.entityBytes
  ofRecords own visibility (Level.clustersOf visibility own.leaves.size) text
    bytes.length

/-- The floods of a pass, the numbers of which have to fit into words of 32 bits. -/
def floodFrom
    (records : Records Float32)
    (portalOpen : Array Bool)
    (pass : UInt32) :
    List Nat → Nat → Array AreaLabel → Checked (Array AreaLabel)
  | [], _, labels =>
      return labels
  | area :: rest, floods, labels => do
      let label ← ofAnswer (lookup labels area)
      if label.pass = pass then
        floodFrom records portalOpen pass rest floods labels
      else
        let flood ← word 32 (floods + 1)
        let labels ←
          ofAnswer
            (AreaState.spread records portalOpen ⟨flood, pass⟩
              records.areas.size area labels)
        floodFrom records portalOpen pass rest flood labels

/-- A level with all portals closed, for each of which there is a flag. -/
def ofLevel
    (level : Level Float32) : Checked (World Float32) := do
  let _ ← plus level.own.areaPortals.size 1
  let closed := AreaState.closed level.own
  let pass := closed.pass + 1
  let labels ←
    floodFrom level.own closed.portalOpen pass
      (List.range' 1 (level.own.areas.size - 1)) 0 closed.labels
  return {
    level := level
    areas := { closed with labels := labels, pass := pass }
    config := {}
    counters := {} }

/-- The world of the level in the bytes of a file. -/
def world
    (bytes : List UInt8) : Checked (World Float32) := do
  let level ← level bytes
  ofLevel level

end Checked

namespace Records

variable {S : Type} {records : Records S}

/-- What is found to be wrong, if anything is, is the number of a record. -/
def OnlyBadIndex
    (violation? : Option LevelError) : Prop :=
  ∀ error ∈ violation?,
    ∃ reference index count, error = .badIndex reference index count

namespace OnlyBadIndex

theorem or
    {first second : Option LevelError}
    (isFirst : OnlyBadIndex first)
    (isSecond : OnlyBadIndex second) :
    OnlyBadIndex (first.or second) := by
  intro error found
  rcases Option.or_eq_some_iff.mp found with inFirst | ⟨_, inSecond⟩
  · exact isFirst error inFirst
  · exact isSecond error inSecond

theorem findSome?
    {α : Type}
    {entries : Array α}
    {violation? : α → Option LevelError}
    (each : ∀ entry, OnlyBadIndex (violation? entry)) :
    OnlyBadIndex (entries.findSome? violation?) := by
  intro error found
  obtain ⟨entry, _, inEntry⟩ := Array.exists_of_findSome?_eq_some found
  exact each entry error inEntry

/-- A number that is wrong unless a condition holds is wrong as a number. -/
theorem ofCondition
    {condition : Prop}
    [Decidable condition]
    {reference : Reference}
    {index : Int}
    {count : Nat} :
    OnlyBadIndex
      (if condition then
        none
      else
        some (.badIndex reference index count)) := by
  intro error found
  split at found
  · cases found
  · cases found
    exact ⟨_, _, _, rfl⟩

theorem indexViolation?
    (reference : Reference)
    (index count : Nat) :
    OnlyBadIndex (Records.indexViolation? reference index count) :=
  ofCondition

theorem spanViolation?
    (reference : Reference)
    (span : Span)
    (count : Nat) :
    OnlyBadIndex (Records.spanViolation? reference span count) :=
  ofCondition

theorem childViolation?
    (child : Child) :
    OnlyBadIndex (records.childViolation? child) := by
  cases child with
  | node id =>
      exact indexViolation? _ _ _
  | leaf id =>
      exact indexViolation? _ _ _

theorem leafViolation?
    (clusterCount : Nat)
    (leaf : Leaf) :
    OnlyBadIndex (records.leafViolation? clusterCount leaf) := by
  refine (spanViolation? _ _ _).or (.or ?_ (indexViolation? _ _ _))
  cases leaf.cluster with
  | none =>
      exact fun _ found => nomatch found
  | some cluster =>
      exact indexViolation? _ _ _

theorem portalNumberViolation?
    (number : Nat) :
    OnlyBadIndex (records.portalNumberViolation? number) :=
  ofCondition

/-- Whatever record is wrong, it is for a number in it. -/
theorem violation?
    (clusterCount : Nat) :
    OnlyBadIndex (records.violation? clusterCount) :=
  .or (.findSome? (leafViolation? clusterCount)) <|
    .or (.findSome? fun _ => indexViolation? _ _ _) <|
      .or (.findSome? fun _ => spanViolation? _ _ _) <|
        .or (.findSome? fun _ => indexViolation? _ _ _) <|
          .or (.findSome? fun _ => childViolation? _) <|
            .or (.findSome? fun _ =>
                (indexViolation? _ _ _).or
                  ((childViolation? _).or (childViolation? _))) <|
              .or (.findSome? fun _ => spanViolation? _ _ _) <|
                .findSome? fun _ =>
                  (portalNumberViolation? _).or (indexViolation? _ _ _)

end OnlyBadIndex

end Records

namespace Checked

theorem refuse_or
    (first second : Option LevelError) :
    refuse (first.or second) = refuse first >>= fun _ => refuse second := by
  cases first with
  | none =>
      rfl
  | some error =>
      rfl

/-- To check entry after entry is to look for the first that is wrong. -/
theorem forM_eq_refuse
    {α : Type}
    {entries : Array α}
    {check : α → Checked Unit}
    {violation? : α → Option LevelError}
    (each : ∀ entry ∈ entries, check entry = refuse (violation? entry)) :
    entries.toList.forM check = refuse (entries.findSome? violation?) := by
  rw [← Array.findSome?_toList]
  have eachListed :
      ∀ entry ∈ entries.toList, check entry = refuse (violation? entry) :=
    fun entry member => each entry (Array.mem_toList_iff.mp member)
  generalize entries.toList = listed at eachListed ⊢
  induction listed with
  | nil =>
      rfl
  | cons entry rest inductionHypothesis =>
      have later :=
        inductionHypothesis fun other member =>
          eachListed other (List.mem_cons_of_mem entry member)
      change (check entry >>= fun _ => rest.forM check) = _
      rw [eachListed entry List.mem_cons_self, later, List.findSome?_cons]
      cases violation? entry with
      | none =>
          rfl
      | some error =>
          rfl

/-- The end of a run that a word can tell is compared as it is. -/
theorem checkSpan_eq
    {span : Span}
    (small : Layout.SmallSpan span)
    (reference : Reference)
    (count : Nat) :
    checkSpan reference span count =
      refuse (Records.spanViolation? reference span count) := by
  have fits : plus span.first span.count = .ok span.stop :=
    word_of_lt small
  rw [checkSpan, fits, ok_bind]
  rfl

theorem validate_eq
    {own : Records Float32}
    (telling : Telling own)
    (clusterCount : Nat) :
    validate own clusterCount = refuse (own.violation? clusterCount) := by
  have leaves :
      (own.leaves.toList.forM fun leaf => do
          checkSpan .leafBrush leaf.brushes own.leafBrushes.size
          refuse
            (leaf.cluster.bind fun cluster =>
              Records.indexViolation? .cluster cluster clusterCount)
          refuse (Records.indexViolation? .area leaf.area own.areas.size)) =
        refuse (own.leaves.findSome? (own.leafViolation? clusterCount)) := by
    refine forM_eq_refuse fun leaf member => ?_
    rw [checkSpan_eq (telling.leaves leaf member), Records.leafViolation?,
      refuse_or, refuse_or]
  have brushes :
      (own.brushes.toList.forM fun brush =>
          checkSpan .brushSide brush.sides own.brushSides.size) =
        refuse
          (own.brushes.findSome? fun brush =>
            Records.spanViolation? .brushSide brush.sides
              own.brushSides.size) :=
    forM_eq_refuse fun brush member =>
      checkSpan_eq (telling.brushes brush member) _ _
  have areas :
      (own.areas.toList.forM fun area =>
          checkSpan .areaPortal area.portals own.areaPortals.size) =
        refuse
          (own.areas.findSome? fun area =>
            Records.spanViolation? .areaPortal area.portals
              own.areaPortals.size) :=
    forM_eq_refuse fun area member =>
      checkSpan_eq (telling.areas area member) _ _
  rw [validate, leaves, brushes, areas]
  simp only [Records.violation?, refuse_or]

theorem ofAnswer_bind
    {α β : Type}
    (answer : Except Fault α)
    (next : α → Except Fault β) :
    ofAnswer (answer >>= next) =
      ofAnswer answer >>= fun result => ofAnswer (next result) := by
  cases answer with
  | ok result =>
      rfl
  | error fault =>
      rfl

/-- A level that has leaves is asked for its first one, and for one that is empty. -/
theorem emptyLeaf_eq
    {own : Records Float32}
    (hasLeaf : 0 < own.leaves.size)
    (within : ∀ kind, own.count kind ≤ kind.limit) :
    emptyLeaf own =
      if own.outsideIsSolid then
        match own.emptyLeaf? with
        | some id => .ok id
        | none => .error (.refused .noEmptyLeaf)
      else
        .error (.refused .badLeafZero) := by
  have leaves : own.leaves.size ≤ 65536 := within .leaf
  have isSolid :
      own.outsideIsSolid = decide (own.leaves[0].contents = .solid) := by
    rw [Records.outsideIsSolid, Array.getElem?_eq_getElem hasLeaf]
    rfl
  have asked : ofAnswer (lookup own.leaves 0) = .ok own.leaves[0] := by
    rw [lookup_of_lt hasLeaf]
    rfl
  rw [emptyLeaf, asked, ok_bind, isSolid, Records.emptyLeaf?]
  by_cases solid : own.leaves[0].contents = .solid
  · rw [if_pos solid, if_pos (decide_eq_true solid)]
    cases found :
        own.leaves.toList.tail.findIdx? (·.contents.isEmpty) with
    | none =>
        rfl
    | some place =>
        obtain ⟨inTail, -⟩ := List.findIdx?_eq_some_iff_getElem.mp found
        rw [List.length_tail, Array.length_toList] at inTail
        change plus place 1 = _
        rw [plus, word_of_lt (by omega)]
        rfl
  · rw [if_neg solid, decide_eq_false solid]
    rfl

theorem fits_eq
    {own : Records Float32}
    (within : ∀ kind, own.count kind ≤ kind.limit) :
    fits own = .ok (BoxHull.fits own) := by
  have nodes : own.nodes.size ≤ 65536 := within .node
  have planes : own.planes.size ≤ 65536 := within .plane
  have brushSides : own.brushSides.size ≤ 65536 := within .brushSide
  have faceCount : BoxHull.faceCount = 6 := rfl
  have planeCount : BoxHull.planeCount = 12 := rfl
  rw [fits, plus, word_of_lt (by omega), ok_bind, plus,
    word_of_lt (by omega), ok_bind, plus, word_of_lt (by omega), ok_bind]
  rfl

/-- The numbers in the records of a face fit into words. -/
theorem face_eq
    {own : Records Float32}
    (within : ∀ kind, own.count kind ≤ kind.limit)
    (emptyLeaf : Nat)
    {number : Nat}
    (isFace : number < BoxHull.faceCount) :
    face own emptyLeaf number =
      .ok (BoxHull.node own emptyLeaf number,
        BoxHull.brushSide own number) := by
  have nodes : own.nodes.size ≤ 65536 := within .node
  have planes : own.planes.size ≤ 65536 := within .plane
  have faceCount : BoxHull.faceCount = 6 := rfl
  have insideFits : inside own number = .ok (BoxHull.inside own number) := by
    rw [inside, BoxHull.inside]
    split
    · rfl
    · rw [plus, word_of_lt (by omega)]
      rfl
  rw [face, plus, word_of_lt (by omega), ok_bind, plus,
    word_of_lt (by omega), ok_bind, insideFits, ok_bind, BoxHull.node]
  cases BoxHull.outside number with
  | front =>
      rfl
  | back =>
      rfl

theorem withBoxHull_eq
    {own : Records Float32}
    (within : ∀ kind, own.count kind ≤ kind.limit)
    (emptyLeaf : Nat) :
    withBoxHull own emptyLeaf =
      .ok (own.withBoxHull emptyLeaf BoxHull.unplaced) := by
  have faces :
      (List.range BoxHull.faceCount).mapM (face own emptyLeaf) =
        .ok
          ((List.range BoxHull.faceCount).map fun number =>
            (BoxHull.node own emptyLeaf number,
              BoxHull.brushSide own number)) :=
    mapM_eq_ok fun _ member =>
      face_eq within emptyLeaf (List.mem_range.mp member)
  have asArray {γ : Type} (record : Nat → γ) :
      ((List.range BoxHull.faceCount).map record).toArray =
        (Array.range BoxHull.faceCount).map record := by
    rw [← List.map_toArray, List.toArray_range]
  rw [withBoxHull, faces, ok_bind, List.map_map, List.map_map,
    Records.withBoxHull, ← asArray (BoxHull.node own emptyLeaf),
    ← asArray (BoxHull.brushSide own)]
  rfl

/-- Records that make no level are wrong for a reason that lies in them. -/
theorem mirrors_ofRecords
    {own : Records Float32}
    (telling : Telling own)
    (hasLeaf : 0 < own.leaves.size)
    (within : ∀ kind, own.count kind ≤ kind.limit)
    (visibility : Option VisibilityTable)
    (clusterCount fileSize : Nat)
    (entityBytes : List UInt8) :
    Mirrors (· = ·)
      (ofRecords own visibility clusterCount entityBytes fileSize)
      (Level.ofRecords own visibility clusterCount entityBytes fileSize) := by
  rw [ofRecords, validate_eq telling, emptyLeaf_eq hasLeaf within,
    fits_eq within, Level.ofRecords]
  cases found : own.violation? clusterCount with
  | some violation =>
      obtain ⟨_, _, _, rfl⟩ := Records.OnlyBadIndex.violation? _ _ found
      exact .refusal (by simp)
  | none =>
      cases own.outsideIsSolid with
      | false =>
          exact .refusal (by simp)
      | true =>
          cases own.emptyLeaf? with
          | none =>
              exact .refusal (by simp)
          | some id =>
              cases BoxHull.fits own with
              | false =>
                  exact .refusal (by simp)
              | true =>
                  change
                    Mirrors _ (withBoxHull own id >>= fun _ => .ok _) _
                  rw [withBoxHull_eq within]
                  exact .value rfl

/-- There are no more floods than areas to flood from, so that their numbers fit. -/
theorem floodFrom_eq
    {records : Records Float32}
    {portalOpen : Array Bool}
    {pass : UInt32}
    {areas : List Nat}
    {floods : Nat}
    {labels : Array AreaLabel}
    (few : floods + areas.length < 2 ^ 32) :
    floodFrom records portalOpen pass areas floods labels =
      ofAnswer
        (AreaState.floodFrom records portalOpen pass areas floods labels) := by
  induction areas generalizing floods labels with
  | nil =>
      rfl
  | cons area rest inductionHypothesis =>
      rw [List.length_cons] at few
      rw [floodFrom, AreaState.floodFrom, ofAnswer_bind]
      refine bind_congr fun label => ?_
      split
      · exact inductionHypothesis (by omega)
      · rw [word_of_lt (by omega), ok_bind, ofAnswer_bind]
        exact bind_congr fun after => inductionHypothesis (by omega)

/-- A level that keeps to its limits is used as it is without checks. -/
theorem ofLevel_eq
    {level : Level Float32}
    (within : ∀ kind, level.own.count kind ≤ kind.limit) :
    ofLevel level = ofAnswer (World.ofLevel level) := by
  have areas : level.own.areas.size ≤ 256 := within .area
  have portals : level.own.areaPortals.size ≤ 1024 := within .areaPortal
  have few :
      0 + (List.range' 1 (level.own.areas.size - 1)).length < 2 ^ 32 := by
    rw [List.length_range']
    omega
  rw [ofLevel, plus, word_of_lt (by omega), ok_bind, World.ofLevel,
    AreaState.reflow]
  dsimp only
  rw [floodFrom_eq few, bind_assoc, ofAnswer_bind]
  rfl

/-- The checked steps to a level mirror its reading. -/
theorem mirrors_level
    (bytes : List UInt8) :
    Mirrors (· = ·) (level bytes) (Level.read bytes).outcome := by
  rw [Level.outcome_read, level]
  refine (mirrors_file bytes).bind fun file table tells => ?_
  refine (mirrors_allRecords tells).attach.bind fun checked own same => ?_
  obtain ⟨⟨rfl, telling⟩, read⟩ := same
  refine (mirrors_visibility tells).bind fun _ visibility same => ?_
  rw [same]
  refine (mirrors_entityBytes tells).bind fun _ text same => ?_
  rw [same]
  have hasLeaf : 0 < checked.leaves.size :=
    (LumpTable.outcome_records_eq_ok_iff.mp
      (LumpTable.outcome_allRecords_eq_ok_iff.mp read).2.1).2.2.1 rfl
  exact
    mirrors_ofRecords telling hasLeaf (LumpTable.count_le_limit read) visibility
      _ bytes.length text

end Checked

/--
Whatever the bytes of a file are, no checked step on the way to a world asks for what is
not there, runs out of bytes or leaves its word. Either a level is read from the bytes
and used, and the checked steps end in the same world, or the level is refused for a
reason that lies in the bytes, and they end in this refusal.
-/
theorem World.loaded_or_refused
    (bytes : List UInt8) :
    (∃ level world,
        (Level.read bytes).outcome = .ok level ∧
          World.ofLevel level = .ok world ∧
          Checked.world bytes = .ok world) ∨
      ∃ error,
        (Level.read bytes).outcome = .error error ∧
          (∀ cause, error ≠ .unreadable cause) ∧
          Checked.world bytes = .error (.refused error) := by
  have mirrors := Checked.mirrors_level bytes
  unfold Checked.world
  generalize Checked.level bytes = checked at mirrors ⊢
  cases accepted : (Level.read bytes).outcome with
  | ok level =>
      rw [accepted] at mirrors
      obtain ⟨isSame⟩ := mirrors
      obtain ⟨world, loaded, -⟩ :=
        World.exists_ofLevel (Level.own_closed_of_read accepted)
      obtain ⟨table, -, readOwn, -⟩ :=
        Level.outcome_read_eq_ok_iff.mp accepted
      refine .inl ⟨level, world, rfl, loaded, ?_⟩
      rw [isSame, ok_bind,
        Checked.ofLevel_eq (LumpTable.count_le_limit readOwn), loaded]
      rfl
  | error error =>
      rw [accepted] at mirrors
      cases mirrors with
      | refusal readable =>
          exact .inr ⟨error, rfl, readable, rfl⟩

end LevelCollision

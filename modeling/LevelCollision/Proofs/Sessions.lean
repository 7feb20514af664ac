import LevelCollision.Proofs.AreaQueries
import LevelCollision.Proofs.PackedLevel
import LevelCollision.Proofs.TraceConsistency
import LevelCollision.Proofs.VisibilityQueries

namespace LevelCollision

/-!
# Sessions

A world is put to use by requests, one after the other. Where a level is sound and has no
cycles below the heads of its models, each request that keeps to what the level offers is
answered, and leaves that a query of a model answers with are the level's own. Only a
change may end a session, when a flood comes to an area of another one.

Points, boxes, masks, angles, rows and settings are whatever they are.
-/

open Scalar (LawfulOrder)

/-- What can be asked of a world. -/
inductive Request (S : Type) where
  | pointLeaf (head : Head S) (point : Vec3 S)
  | pointContents (head : Head S) (point : Vec3 S)
  | placedPointContents
      (head : Head S) (placement : Placement S) (point : Vec3 S)
  | boxLeaves (head : Head S) (box : Box S) (limit : Nat)
  | trace (head : Head S) (motion : Motion S)
  | placedTrace (head : Head S) (placement : Placement S) (motion : Motion S)
  | visible (head : Head S) (row : BitRow)
  | clusterRow (sense : Sense) (cluster : Option Nat)
  | fatRow (origin : Vec3 S) (radius : S)
  | boxClusters (box : Box S) (limit : Nat)
  | leaf (id : Nat)
  | worldHead
  | model (id : Nat)
  | inlineModel (name : String)
  | setConfig (config : Config)
  | setPortal (portal : Nat) (isOpen : Bool)
  | portalOpen (portal : Nat)
  | areasJoined (left right : Nat)
  | areaRow (area : Nat)
  | resetCounters
  | worldspawnValue (name : String)

/-- What a world answers with. -/
inductive Answer (S : Type) where
  | leafId (id : Nat)
  | contents (contents : Contents)
  | leafList (list : LeafList)
  | trace (trace : Trace S)
  | flag (isSet : Bool)
  | clusterRow (row : Logged BitRow)
  | clusters (clusters : Option (Array Nat))
  | leaf (leaf : Leaf)
  | head (head : Head S)
  | model (model : Option (Model S))
  | inlineModel (outcome : Except LevelError (Model S))
  | areaRow (row : BitRow)
  | value (value : Logged (Option String))
  | done

namespace Request

variable {S : Type}

/-- The head that a request is about. -/
def head? : Request S → Option (Head S)
  | .pointLeaf head _ => some head
  | .pointContents head _ => some head
  | .placedPointContents head _ _ => some head
  | .boxLeaves head _ _ => some head
  | .trace head _ => some head
  | .placedTrace head _ _ => some head
  | .visible head _ => some head
  | _ => none

/-- Whether a request is about the hull of a box. -/
def isBoxQuery
    (request : Request S) : Bool :=
  request.head?.any Head.isBox

/-- Whether a request labels the areas anew. -/
def isChange : Request S → Bool
  | .setConfig _ => true
  | .setPortal _ _ => true
  | _ => false

/-- The numbers of a request are those of something that the level has. -/
def InRange
    [Scalar S]
    (level : Level S) : Request S → Prop
  | .clusterRow _ cluster => ∀ id ∈ cluster, id < level.clusterCount
  | .leaf id => id < level.own.leaves.size
  | .setPortal portal _ => portal ≤ level.own.areaPortals.size
  | .portalOpen portal => portal ≤ level.own.areaPortals.size
  | .areasJoined left right =>
      left < level.own.areas.size ∧ right < level.own.areas.size
  | .areaRow area => area < level.own.areas.size
  | _ => True

/-- A request keeps to what a level offers. -/
structure Admitted
    [Scalar S]
    (level : Level S)
    (request : Request S) : Prop where
  offered :
    ∀ head ∈ request.head?, level.Offers head
  inRange :
    request.InRange level

end Request

/-- The leaves that an answer names. -/
def Answer.leaves
    {S : Type} : Answer S → List Nat
  | .leafId id => [id]
  | .leafList list => list.leaves.toList
  | .trace found => found.leaf.toList
  | _ => []

namespace World

variable {S : Type} [Scalar S] [Trig S]

/-- Answer a request, with the world after it. -/
def serve
    (world : World S) : Request S → Except Fault (Answer S × World S)
  | .pointLeaf head point => do
      let id ← world.pointLeaf head point
      return (.leafId id, world)
  | .pointContents head point => do
      let (contents, after) ← world.pointContents head point
      return (.contents contents, after)
  | .placedPointContents head placement point => do
      let (contents, after) ← world.placedPointContents head placement point
      return (.contents contents, after)
  | .boxLeaves head box limit => do
      let list ← world.boxLeaves head box limit
      return (.leafList list, world)
  | .trace head motion => do
      let (trace, after) ← world.trace head motion
      return (.trace trace, after)
  | .placedTrace head placement motion => do
      let (trace, after) ← world.placedTrace head placement motion
      return (.trace trace, after)
  | .visible head row => do
      let isVisible ← world.visible head row
      return (.flag isVisible, world)
  | .clusterRow sense cluster => do
      let row ← world.clusterRow sense cluster
      return (.clusterRow row, world)
  | .fatRow origin radius => do
      let row ← world.fatRow origin radius
      return (.clusterRow row, world)
  | .boxClusters box limit => do
      let clusters ← world.boxClusters box limit
      return (.clusters clusters, world)
  | .leaf id => do
      let leaf ← world.level.leaf id
      return (.leaf leaf, world)
  | .worldHead => do
      let head ← world.level.worldHead
      return (.head head, world)
  | .model id =>
      .ok (.model world.level.own.models[id]?, world)
  | .inlineModel name =>
      .ok (.inlineModel (world.level.inlineModel name), world)
  | .setConfig config => do
      let after ← world.setConfig config
      return (.done, after)
  | .setPortal portal isOpen => do
      let after ← world.setPortal portal isOpen
      return (.done, after)
  | .portalOpen portal => do
      let isOpen ← world.portalOpen portal
      return (.flag isOpen, world)
  | .areasJoined left right => do
      let areJoined ← world.areasJoined left right
      return (.flag areJoined, world)
  | .areaRow area => do
      let row ← world.areaRow area
      return (.areaRow row, world)
  | .resetCounters =>
      .ok (.done, world.resetCounters)
  | .worldspawnValue name =>
      .ok (.value (world.worldspawnValue name), world)

/-- The answers to requests up to the first fault, and that fault if there is one. -/
def session
    (world : World S) : List (Request S) → List (Answer S) × Option Fault
  | [] =>
      ([], none)
  | request :: rest =>
      match world.serve request with
      | .ok (answer, after) =>
          let (answers, fault) := after.session rest
          (answer :: answers, fault)
      | .error fault =>
          ([], some fault)

end World

/--
Requests are answered one after the other, with the level's own leaves unless they are
about a box, up to a change in which two floods meet.
-/
inductive Answered
    {S : Type} [Scalar S]
    (level : Level S) :
    List (Request S) → List (Answer S) → Option Fault → Prop where
  | done :
      Answered level [] [] none
  | answer
      {request : Request S}
      {answer : Answer S}
      {requests : List (Request S)}
      {answers : List (Answer S)}
      {fault : Option Fault} :
      (request.isBoxQuery = false →
        ∀ leaf ∈ answer.leaves, leaf < level.own.leaves.size) →
      Answered level requests answers fault →
      Answered level (request :: requests) (answer :: answers) fault
  | reflood
      {request : Request S}
      {requests : List (Request S)}
      {fault : Fault} :
      request.isChange = true →
      fault.IsReflood →
      Answered level (request :: requests) [] (some fault)

namespace World

section

variable {S : Type} [Scalar S] {world : World S} {head : Head S}

/-- A world that can be relied on. -/
structure Ready
    (level : Level S)
    (world : World S) : Prop where
  sameLevel :
    world.level = level
  fits :
    AreaState.Fits level.own world.areas

/-- A level that can be relied on can be used. -/
theorem exists_ready
    {level : Level S}
    (sound : level.Sound) :
    ∃ start, ofLevel level = .ok start ∧ Ready level start := by
  obtain ⟨start, loaded, sameLevel⟩ := exists_ofLevel sound.closed
  obtain ⟨areas, flowed, made⟩ := bind_eq_ok_iff.mp loaded
  cases made
  have fits := AreaState.fits_closed level.own
  rcases fits.reflow_cases sound.closed with
      ⟨after, flowedAgain, afterFits⟩ | ⟨fault, failed, _⟩
  · rw [flowed, Except.ok.injEq] at flowedAgain
    subst flowedAgain
    exact ⟨_, loaded, rfl, afterFits⟩
  · rw [flowed] at failed
    cases failed

variable {level : Level S}

/-- Contents of points can be told. -/
theorem Ready.exists_pointContents
    (ready : Ready level world)
    (walkable : level.Walkable head)
    (point : Vec3 S) :
    ∃ contents after,
      world.pointContents head point = .ok (contents, after) ∧
        Ready level after := by
  obtain ⟨contents, found⟩ := Tree.exists_pointContents walkable.ends point
  rw [World.pointContents, ready.sameLevel, found, ok_bind]
  exact ⟨contents, _, rfl, rfl, ready.fits⟩

/-- Motions have traces, and outside box hulls those name leaves of the level's own. -/
theorem Ready.exists_trace
    [LawfulOrder S]
    (ready : Ready level world)
    (sound : level.Sound)
    (walkable : level.Walkable head)
    (motion : Motion S) :
    ∃ trace after,
      world.trace head motion = .ok (trace, after) ∧
        Ready level after ∧
          (head.isBox = false →
            ∀ leaf ∈ trace.leaf, leaf < level.own.leaves.size) := by
  obtain ⟨final, probes, consistent⟩ :=
    Tree.exists_consistent_probe walkable.ends (sound.closed_tree head)
      .usual world.config.maxTouchedLeaves motion
  rw [World.trace, ready.sameLevel, probes, ok_bind]
  refine ⟨_, _, rfl, ⟨rfl, ready.fits⟩, fun isTree leaf member => ?_⟩
  exact walkable.ownLeaf isTree leaf (consistent.leaf leaf member).below

/-- Whether areas that exist are joined can be told, and so can the row of an area. -/
theorem Ready.exists_areasJoined
    (ready : Ready level world)
    {left right : Nat}
    (leftInRange : left < level.own.areas.size)
    (rightInRange : right < level.own.areas.size) :
    ∃ areJoined, world.areasJoined left right = .ok areJoined := by
  unfold areasJoined
  split
  · exact ⟨true, rfl⟩
  · rw [ready.sameLevel]
    exact ⟨_, ready.fits.joined_eq leftInRange rightInRange⟩

theorem Ready.exists_areaRow
    (ready : Ready level world)
    {area : Nat}
    (inRange : area < level.own.areas.size) :
    ∃ row, world.areaRow area = .ok row := by
  unfold areaRow
  split
  · exact ⟨_, rfl⟩
  · rw [ready.sameLevel]
    obtain ⟨row, found, _⟩ := ready.fits.exists_joinedRow inRange
    exact ⟨row, found⟩

end

section

variable {S : Type} [Scalar S] [Trig S]
variable {level : Level S} {world : World S} {head : Head S}
variable {request : Request S} {answer : Answer S}

/-- A request is answered, or it is a change in which two floods meet. -/
inductive Serves
    (level : Level S)
    (world : World S)
    (request : Request S) : Prop where
  | answered
      {answer : Answer S}
      {after : World S} :
      world.serve request = .ok (answer, after) →
      Ready level after →
      (request.isBoxQuery = false →
        ∀ leaf ∈ answer.leaves, leaf < level.own.leaves.size) →
      Serves level world request
  | reflooded
      {fault : Fault} :
      world.serve request = .error fault →
      request.isChange = true →
      fault.IsReflood →
      Serves level world request

/-- An answer that names no leaves names none outside the level. -/
theorem Serves.withoutLeaves
    {after : World S}
    (served : world.serve request = .ok (answer, after))
    (ready : Ready level after)
    (none : answer.leaves = []) :
    Serves level world request := by
  refine .answered served ready fun _ leaf member => ?_
  rw [none] at member
  cases member

/-- Every request about a head that can be relied on is answered. -/
theorem Ready.serves_of_head
    [LawfulOrder S]
    (ready : Ready level world)
    (sound : level.Sound)
    (about : request.head? = some head)
    (walkable : level.Walkable head) :
    Serves level world request := by
  have isTree
      (notBox : request.isBoxQuery = false) :
      head.isBox = false := by
    rw [Request.isBoxQuery, about] at notBox
    exact notBox
  have ends := walkable.ends
  rw [← ready.sameLevel] at ends
  cases request with
  | pointLeaf head point =>
      cases about
      obtain ⟨id, found, below⟩ := Tree.exists_pointLeaf ends point
      refine .answered (bind_eq_ok_iff.mpr ⟨id, found, rfl⟩) ready ?_
      intro notBox leaf member
      rw [List.mem_singleton.mp member]
      rw [ready.sameLevel] at below
      exact walkable.ownLeaf (isTree notBox) id below
  | pointContents head point =>
      cases about
      obtain ⟨contents, after, found, afterReady⟩ :=
        ready.exists_pointContents walkable point
      exact
        .withoutLeaves (bind_eq_ok_iff.mpr ⟨_, found, rfl⟩) afterReady rfl
  | placedPointContents head placement point =>
      cases about
      obtain ⟨contents, after, found, afterReady⟩ :=
        ready.exists_pointContents walkable (placement.toLocal head point)
      exact
        .withoutLeaves (bind_eq_ok_iff.mpr ⟨_, found, rfl⟩) afterReady rfl
  | boxLeaves head box limit =>
      cases about
      obtain ⟨list, found, below⟩ := Tree.exists_boxLeaves ends box limit
      refine .answered (bind_eq_ok_iff.mpr ⟨list, found, rfl⟩) ready ?_
      intro notBox leaf member
      have below := below leaf (Array.mem_toList_iff.mp member)
      rw [ready.sameLevel] at below
      exact walkable.ownLeaf (isTree notBox) leaf below
  | trace head motion =>
      cases about
      obtain ⟨trace, after, found, afterReady, ownLeaf⟩ :=
        ready.exists_trace sound walkable motion
      refine .answered (bind_eq_ok_iff.mpr ⟨_, found, rfl⟩) afterReady ?_
      intro notBox leaf member
      exact ownLeaf (isTree notBox) leaf (Option.mem_toList.mp member)
  | placedTrace head placement motion =>
      cases about
      obtain ⟨trace, after, found, afterReady, ownLeaf⟩ :=
        ready.exists_trace sound walkable (placement.motionToLocal head motion)
      have foundPlaced :
          world.placedTrace head placement motion =
            .ok (placement.traceToWorld head motion trace, after) :=
        bind_eq_ok_iff.mpr ⟨_, found, rfl⟩
      refine
        .answered (bind_eq_ok_iff.mpr ⟨_, foundPlaced, rfl⟩) afterReady ?_
      intro notBox leaf member
      exact ownLeaf (isTree notBox) leaf (Option.mem_toList.mp member)
  | visible head row =>
      cases about
      obtain ⟨isVisible, found⟩ := ends.exists_childVisible row
      exact
        .withoutLeaves (bind_eq_ok_iff.mpr ⟨isVisible, found, rfl⟩) ready rfl
  | _ =>
      cases about

/-- A change to a world that can be relied on leaves one, or two floods meet in it. -/
theorem Ready.serves_of_isChange
    (ready : Ready level world)
    (sound : level.Sound)
    (changes : request.isChange = true)
    (inRange : request.InRange level) :
    Serves level world request := by
  cases request with
  | setConfig config =>
      rcases ready.fits.reflow_cases sound.closed with
          ⟨areas, flowed, fits⟩ | ⟨fault, failed, isReflood⟩
      · have changed :
            world.setConfig config =
              .ok { world with areas := areas, config := config } := by
          rw [setConfig, ready.sameLevel, flowed]
          rfl
        exact
          .withoutLeaves (bind_eq_ok_iff.mpr ⟨_, changed, rfl⟩)
            ⟨ready.sameLevel, fits⟩ rfl
      · refine .reflooded ?_ rfl isReflood
        rw [serve, setConfig, ready.sameLevel, failed]
        rfl
  | setPortal portal isOpen =>
      rcases ready.fits.setPortal_cases sound.closed inRange isOpen with
          ⟨areas, set, fits⟩ | ⟨fault, failed, isReflood⟩
      · have changed :
            world.setPortal portal isOpen =
              .ok { world with areas := areas } := by
          rw [setPortal, ready.sameLevel, set]
          rfl
        exact
          .withoutLeaves (bind_eq_ok_iff.mpr ⟨_, changed, rfl⟩)
            ⟨ready.sameLevel, fits⟩ rfl
      · refine .reflooded ?_ rfl isReflood
        rw [serve, setPortal, ready.sameLevel, failed]
        rfl
  | _ =>
      cases changes

/-- Every other request is answered, and leaves the areas as they are. -/
theorem Ready.serves_of_numbers
    (ready : Ready level world)
    (sound : level.Sound)
    (acyclic : level.Acyclic)
    (aboutNone : request.head? = none)
    (changesNot : request.isChange = false)
    (inRange : request.InRange level) :
    Serves level world request := by
  have asked
      {α : Type}
      {outcome : Except Fault α}
      {wrap : α → Answer S}
      (served :
        world.serve request =
          outcome >>= fun found => .ok (wrap found, world))
      (answers : ∃ found, outcome = .ok found)
      (noLeaves : ∀ found, (wrap found).leaves = []) :
      Serves level world request := by
    obtain ⟨found, isFound⟩ := answers
    rw [isFound, ok_bind] at served
    exact .withoutLeaves served ready (noLeaves found)
  have sameLevel := ready.sameLevel
  cases request with
  | clusterRow sense cluster =>
      refine @asked _ (level.clusterRow sense cluster) .clusterRow ?_ ?_
        fun _ => rfl
      · rw [← sameLevel]
        rfl
      · obtain ⟨row, found, _⟩ := sound.exists_clusterRow inRange sense
        exact ⟨row, found⟩
  | fatRow origin radius =>
      refine
        @asked _ (level.fatRow world.config.maxFatLeaves origin radius)
          .clusterRow ?_ (sound.exists_fatRow acyclic _ origin radius)
          fun _ => rfl
      rw [← sameLevel]
      rfl
  | boxClusters box limit =>
      refine
        @asked _ (level.boxClusters world.config.maxTouchedLeaves box limit)
          .clusters ?_ (sound.exists_boxClusters acyclic _ box limit)
          fun _ => rfl
      rw [← sameLevel]
      rfl
  | leaf id =>
      refine @asked _ (level.leaf id) .leaf ?_ ?_ fun _ => rfl
      · rw [← sameLevel]
        rfl
      · have isLeaf : id < level.own.leaves.size := inRange
        rw [Level.leaf, Array.getElem?_eq_getElem isLeaf]
        exact ⟨_, rfl⟩
  | worldHead =>
      refine @asked _ level.worldHead .head ?_ ?_ fun _ => rfl
      · rw [← sameLevel]
        rfl
      · obtain ⟨head, found, _⟩ := sound.exists_worldHead acyclic
        exact ⟨head, found⟩
  | portalOpen portal =>
      refine
        @asked _ (world.areas.isOpen level.own portal) .flag ?_
          ⟨_, ready.fits.isOpen_eq inRange⟩ fun _ => rfl
      rw [← sameLevel]
      rfl
  | areasJoined left right =>
      exact
        @asked _ (world.areasJoined left right) .flag rfl
          (ready.exists_areasJoined inRange.1 inRange.2) fun _ => rfl
  | areaRow area =>
      exact
        @asked _ (world.areaRow area) .areaRow rfl
          (ready.exists_areaRow inRange) fun _ => rfl
  | model id =>
      exact .withoutLeaves rfl ready rfl
  | inlineModel name =>
      exact .withoutLeaves rfl ready rfl
  | resetCounters =>
      exact .withoutLeaves rfl ⟨sameLevel, ready.fits⟩ rfl
  | worldspawnValue name =>
      exact .withoutLeaves rfl ready rfl
  | setConfig config =>
      cases changesNot
  | setPortal portal isOpen =>
      cases changesNot
  | _ =>
      cases aboutNone

variable [LawfulOrder S]

/-- Every request that keeps to what the level offers goes well. -/
theorem Ready.serves
    (ready : Ready level world)
    (sound : level.Sound)
    (acyclic : level.Acyclic)
    (admitted : request.Admitted level) :
    Serves level world request := by
  -- A request is about a head, or it is a change, or it is about numbers at most.
  cases about : request.head? with
  | some head =>
      have offers := admitted.offered head about
      exact ready.serves_of_head sound about (sound.walkable acyclic offers)
  | none =>
      cases changes : request.isChange with
      | true =>
          exact ready.serves_of_isChange sound changes admitted.inRange
      | false =>
          exact
            ready.serves_of_numbers sound acyclic about changes
              admitted.inRange

/-- And so does a session of such requests, one after the other. -/
theorem Ready.session
    (ready : Ready level world)
    (sound : level.Sound)
    (acyclic : level.Acyclic)
    {requests : List (Request S)}
    (admitted : ∀ request ∈ requests, request.Admitted level) :
    Answered level requests (world.session requests).1
      (world.session requests).2 := by
  induction requests generalizing world with
  | nil =>
      exact .done
  | cons request rest inductionHypothesis =>
      have serves :=
        ready.serves sound acyclic (admitted request List.mem_cons_self)
      unfold World.session
      cases serves with
      | answered served afterReady ownLeaves =>
          rw [served]
          have goesOn :=
            inductionHypothesis afterReady fun other member =>
              admitted other (List.mem_cons_of_mem request member)
          exact .answer ownLeaves goesOn
      | reflooded failed changes isReflood =>
          rw [failed]
          exact .reflood changes isReflood

end

/--
A level that was read, or the one without a map, can be used when no model of it has a
cycle below its head. Every request of a session is answered then if it keeps to what the
level offers, with the level's own leaves unless it is about a box. The session ends early
only at a change in which two floods meet.
-/
theorem exists_session
    {level : Level Float32}
    (origin :
      level = .empty ∨ ∃ bytes, (Level.read bytes).outcome = .ok level)
    (acyclic : level.Acyclic) :
    ∃ start,
      ofLevel level = .ok start ∧
        ∀ requests,
          (∀ request ∈ requests, request.Admitted level) →
            Answered level requests (start.session requests).1
              (start.session requests).2 := by
  have sound : level.Sound := by
    rcases origin with isEmpty | ⟨bytes, accepted⟩
    · rw [isEmpty]
      exact Level.sound_empty
    · exact Level.sound_of_read accepted
  obtain ⟨start, loaded, ready⟩ := exists_ready sound
  exact
    ⟨start, loaded, fun requests admitted =>
      ready.session sound acyclic admitted⟩

/-- A visit to two rooms: a look around, and a walk through the door once it is open. -/
def visit
    (head : Head Float32) : List (Request Float32) :=
  [.fatRow ⟨1, 0, 0⟩ 1,
    .setPortal 1 true,
    .areasJoined 1 2,
    .areaRow 1,
    .pointLeaf (.box BoxHull.unplaced) ⟨1, 0, 0⟩,
    .trace head
      { start := ⟨1, 0, 0⟩
        stop := ⟨-1, 0, 0⟩
        box := BoxHull.unplaced
        mask := .solid }]

/-- All that is asked on the visit is answered. -/
theorem session_visit :
    ∃ (level : Level Float32) (start : World Float32)
      (head : Head Float32),
      (Level.read Stored.Level.doorway.packed).outcome = .ok level ∧
        ofLevel level = .ok start ∧
        level.worldHead = .ok head ∧
        Answered level (visit head) (start.session (visit head)).1 none := by
  have run :
      ((Level.read Stored.Level.doorway.packed).outcome.toOption.bind
        fun level => (ofLevel level).toOption.bind
          fun start => level.worldHead.toOption.map
            fun head =>
              ((start.session (visit head)).2, level.own.areas.size,
                level.own.areaPortals.size,
                level.own.models.all fun model =>
                  (level.tree model.treeHead).goesForward)) =
        some (none, 3, 2, true) := by
    decide +kernel
  simp only [Option.bind_eq_some_iff, Option.map_eq_some_iff,
    toOption_eq_some_iff, Prod.mk.injEq,
    Array.all_eq_true_iff_forall_mem] at run
  obtain ⟨level, accepted, start, loaded, head, found, unfailed, areaCount,
    portalCount, forward⟩ := run
  have acyclic : level.Acyclic := fun model member =>
    Tree.acyclic_of_goesForward (forward model member)
  have admitted :
      ∀ request ∈ visit head, Request.Admitted level request := by
    intro request member
    constructor
    · intro other about
      simp only [visit, List.mem_cons, List.not_mem_nil, or_false] at member
      rcases member with rfl | rfl | rfl | rfl | rfl | rfl <;> cases about
      · exact .box BoxHull.unplaced
      · exact .world found
    · simp only [visit, List.mem_cons, List.not_mem_nil, or_false] at member
      rcases member with rfl | rfl | rfl | rfl | rfl | rfl <;>
        simp [Request.InRange, areaCount, portalCount]
  obtain ⟨used, usedLoaded, sessions⟩ :=
    exists_session (.inr ⟨_, accepted⟩) acyclic
  rw [loaded, Except.ok.injEq] at usedLoaded
  subst usedLoaded
  have answered := sessions (visit head) admitted
  rw [unfailed] at answered
  exact ⟨level, start, head, accepted, loaded, found, answered⟩

end World

end LevelCollision

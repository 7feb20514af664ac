import LevelCollision.Proofs.AreaComponents
import LevelCollision.Proofs.FloodFaults
import LevelCollision.Proofs.LoadedLevel
import LevelCollision.World

namespace LevelCollision

/-!
# Histories of portals and settings

While a level is in use its portals are opened and closed and its settings are
replaced, in any order and any number of times. Which areas are joined depends on
the portals that are open in the end, and not on how it came to that.

A history comes to its end unless a portal of it does not exist or two floods meet.
-/

/-- A change to a world that labels its areas anew. -/
inductive Change where
  | portal (number : Nat) (isOpen : Bool)
  | settings (config : Config)
  deriving DecidableEq, Repr

/-- The faults that a change can end in. -/
inductive Change.Faults
    {S : Type}
    (records : Records S) :
    Change → Fault → Prop where
  | badPortal
      {number : Nat}
      {isOpen : Bool} :
      records.areaPortals.size < number →
      Faults records (.portal number isOpen)
        (.badPortal number records.areaPortals.size)
  | reflooded
      {change : Change}
      {fault : Fault} :
      fault.IsReflood →
      Faults records change fault

/-- A change is to the settings, or to portals of a number that portals can have. -/
def Change.InRange
    {S : Type}
    (records : Records S) : Change → Prop
  | .portal number _ => number ≤ records.areaPortals.size
  | .settings _ => True

/-- The flags of portals after a change. -/
def Change.flag
    (portalOpen : Array Bool) : Change → Array Bool
  | .portal number nowOpen => portalOpen.setIfInBounds number nowOpen
  | .settings _ => portalOpen

/-- The settings after a change. -/
def Change.configure
    (config : Config) : Change → Config
  | .portal _ _ => config
  | .settings next => next

/-- Which portal numbers are open after a change. -/
def Change.apply
    (isOpen : Nat → Bool) :
    Change → Nat → Bool
  | .portal number nowOpen =>
      fun other => if other = number then nowOpen else isOpen other
  | .settings _ =>
      isOpen

/-- Which portal numbers are open after a history, before which none is. -/
def openAfter
    (history : List Change) : Nat → Bool :=
  history.foldl Change.apply fun _ => false

theorem openFlag_closed
    {S : Type}
    (records : Records S) :
    openFlag (AreaState.closed records).portalOpen = fun _ => false := by
  funext number
  rw [openFlag, AreaState.closed, Array.getD_eq_getD_getElem?,
    Array.getElem?_replicate]
  split <;> rfl

/-- A portal flag that is set is the only one that changes. -/
theorem openFlag_setIfInBounds
    {portalOpen : Array Bool}
    {number : Nat}
    (inRange : number < portalOpen.size)
    (nowOpen : Bool) :
    openFlag (portalOpen.setIfInBounds number nowOpen) =
      Change.apply (openFlag portalOpen) (.portal number nowOpen) := by
  funext other
  simp only [openFlag, Change.apply, Array.getD_eq_getD_getElem?]
  by_cases same : other = number
  · subst same
    rw [Array.getElem?_setIfInBounds_self_of_lt inRange, if_pos rfl]
    rfl
  · rw [Array.getElem?_setIfInBounds_ne (Ne.symm same), if_neg same]

theorem Change.size_flag
    (change : Change)
    (portalOpen : Array Bool) :
    (change.flag portalOpen).size = portalOpen.size := by
  cases change with
  | portal number nowOpen =>
      exact Array.size_setIfInBounds
  | settings config =>
      rfl

/-- The flags tell which portals are open after the change. -/
theorem Change.openFlag_flag
    {records : Records S}
    {portalOpen : Array Bool}
    (flagCount : portalOpen.size = records.areaPortals.size + 1)
    {change : Change}
    (inRange : change.InRange records) :
    openFlag (change.flag portalOpen) =
      change.apply (openFlag portalOpen) := by
  cases change with
  | portal number nowOpen =>
      have hasFlag : number < portalOpen.size := by
        rw [flagCount]
        exact Nat.lt_succ_of_le inRange
      exact openFlag_setIfInBounds hasFlag nowOpen
  | settings config =>
      rfl

namespace World

variable {S : Type} [Scalar S]

/-- Make one change to a world: open or close a portal, or replace the settings. -/
def change
    (world : World S) :
    Change → Except Fault (World S)
  | .portal number isOpen => world.setPortal number isOpen
  | .settings config => world.setConfig config

/-- Change a world in order, unless one of the changes is a fault. -/
def changes
    (world : World S)
    (history : List Change) : Except Fault (World S) :=
  history.foldlM change world

/-- A world of a level in which these portals are open, with areas that show it. -/
structure Follows
    (level : Level S)
    (isOpen : Nat → Bool)
    (world : World S) : Prop where
  sameLevel :
    world.level = level
  flagCount :
    world.areas.portalOpen.size = level.own.areaPortals.size + 1
  flags :
    openFlag world.areas.portalOpen = isOpen
  current :
    world.areas.Current level.own
  joins :
    world.areas.Joins level.own isOpen

variable {level : Level S} {isOpen : Nat → Bool} {world after : World S}
variable {clusterCount : Nat} {fault : Fault}

theorem follows_ofLevel
    (apart : level.own.OutsideApart)
    (loaded : ofLevel level = .ok world) :
    Follows level (fun _ => false) world := by
  obtain ⟨areas, flowed, made⟩ := bind_eq_ok_iff.mp loaded
  cases made
  obtain ⟨current, flags, joins⟩ :=
    AreaState.current_closed.reflow apart flowed
  rw [openFlag_closed] at joins
  exact
    { sameLevel := rfl
      flagCount := by
        rw [flags]
        exact Array.size_replicate
      flags := by
        rw [flags]
        exact openFlag_closed level.own
      current := current
      joins := joins }

/-- A change in range is a pass with the flags that it leaves. -/
theorem change_of_inRange
    (flagCount :
      world.areas.portalOpen.size = world.level.own.areaPortals.size + 1)
    {change : Change}
    (inRange : change.InRange world.level.own) :
    world.change change = do
      let areas ←
        AreaState.reflow
          { world.areas with
            portalOpen := change.flag world.areas.portalOpen }
          world.level.own
      return {
        world with
        areas := areas
        config := change.configure world.config } := by
  cases change with
  | portal number nowOpen =>
      rw [World.change, setPortal,
        AreaState.setPortal_of_le flagCount inRange nowOpen]
      rfl
  | settings config =>
      rfl

/-- Only a portal number that is too large makes a change out of range. -/
theorem change_of_not_inRange
    {change : Change}
    (outOfRange : ¬change.InRange world.level.own) :
    ∃ number,
      (∃ isOpen, change = .portal number isOpen) ∧
        world.level.own.areaPortals.size < number ∧
        world.change change =
          .error (.badPortal number world.level.own.areaPortals.size) := by
  cases change with
  | portal number nowOpen =>
      have tooLarge := Nat.lt_of_not_le outOfRange
      refine ⟨number, ⟨nowOpen, rfl⟩, tooLarge, ?_⟩
      rw [World.change, setPortal, AreaState.setPortal_of_lt tooLarge,
        error_bind]
  | settings config =>
      exact absurd trivial outOfRange

theorem inRange_of_change
    {change : Change}
    (changed : world.change change = .ok after) :
    change.InRange world.level.own := by
  by_contra outOfRange
  obtain ⟨number, _, _, fails⟩ := change_of_not_inRange outOfRange
  rw [fails] at changed
  cases changed

/-- A change that is no fault makes the areas show the portals as it leaves them. -/
theorem Follows.change
    (follows : Follows level isOpen world)
    (apart : level.own.OutsideApart)
    {change : Change}
    (changed : world.change change = .ok after) :
    Follows level (change.apply isOpen) after := by
  obtain rfl := follows.sameLevel
  have inRange := inRange_of_change changed
  rw [change_of_inRange follows.flagCount inRange] at changed
  obtain ⟨areas, flowed, made⟩ := bind_eq_ok_iff.mp changed
  cases made
  obtain ⟨current, flags, joins⟩ :=
    (follows.current.setFlags _).reflow apart flowed
  have sameFlags := Change.openFlag_flag follows.flagCount inRange
  rw [follows.flags] at sameFlags
  rw [sameFlags] at joins
  exact
    { sameLevel := rfl
      flagCount := by
        rw [flags, Change.size_flag]
        exact follows.flagCount
      flags := by
        rw [flags]
        exact sameFlags
      current := current
      joins := joins }

theorem Follows.changes
    (follows : Follows level isOpen world)
    (apart : level.own.OutsideApart)
    {history : List Change}
    (changed : world.changes history = .ok after) :
    Follows level (history.foldl Change.apply isOpen) after := by
  induction history generalizing world isOpen with
  | nil =>
      cases changed
      exact follows
  | cons first rest inductionHypothesis =>
      unfold World.changes at changed
      rw [List.foldlM_cons] at changed
      obtain ⟨middle, changedFirst, changedRest⟩ := bind_eq_ok_iff.mp changed
      exact inductionHypothesis (follows.change apart changedFirst) changedRest

/-- What goes wrong in a change is what can go wrong in it. -/
theorem Follows.faults
    (follows : Follows level isOpen world)
    (closed : level.own.Closed clusterCount)
    {change : Change}
    (fails : world.change change = .error fault) :
    change.Faults level.own fault := by
  obtain rfl := follows.sameLevel
  by_cases inRange : change.InRange world.level.own
  · rw [change_of_inRange follows.flagCount inRange] at fails
    have flagCount := Change.size_flag change world.areas.portalOpen
    rw [follows.flagCount] at flagCount
    rcases bind_eq_error_iff.mp fails with flowed | ⟨_, _, noFault⟩
    · exact
        .reflooded
          (AreaState.isReflood_of_reflow closed flagCount
            (follows.current.setFlags _).size flowed)
    · cases noFault
  · obtain ⟨number, ⟨nowOpen, rfl⟩, tooLarge, failsSo⟩ :=
      change_of_not_inRange inRange
    rw [failsSo] at fails
    cases fails
    exact .badPortal tooLarge

theorem Follows.exists_faults
    (follows : Follows level isOpen world)
    (closed : level.own.Closed clusterCount)
    (apart : level.own.OutsideApart)
    {history : List Change}
    (fails : world.changes history = .error fault) :
    ∃ change ∈ history, change.Faults level.own fault := by
  have kept :
      ∀ change ∈ history, ∀ before after,
        (∃ isOpen, Follows level isOpen before) →
          World.change before change = .ok after →
            ∃ isOpen, Follows level isOpen after := by
    rintro change _ before after ⟨isOpen, beforeFollows⟩ changed
    exact ⟨_, beforeFollows.change apart changed⟩
  obtain ⟨change, member, before, ⟨_, beforeFollows⟩, failsThere⟩ :=
    exists_error_of_foldlM kept ⟨isOpen, follows⟩ fails
  exact ⟨change, member, beforeFollows.faults closed failsThere⟩

theorem Follows.areasJoined
    (follows : Follows level isOpen world)
    (areasMatter : world.config.noAreas = false)
    {left right : Nat}
    (leftInside : 1 ≤ left)
    (leftInRange : left < level.own.areas.size)
    (rightInside : 1 ≤ right)
    (rightInRange : right < level.own.areas.size) :
    ∃ joined,
      world.areasJoined left right = .ok joined ∧
        (joined = true ↔
          (level.own.areaGraph isOpen).Reachable left right) := by
  have lookupLabel
      {area : Nat}
      (inRange : area < level.own.areas.size) :
      ∃ label, world.areas.labels[area]? = some label := by
    rw [← follows.current.size] at inRange
    exact ⟨_, Array.getElem?_eq_getElem inRange⟩
  obtain ⟨leftLabel, foundLeft⟩ := lookupLabel leftInRange
  obtain ⟨rightLabel, foundRight⟩ := lookupLabel rightInRange
  refine ⟨leftLabel.flood == rightLabel.flood, ?_, ?_⟩
  · simp only [World.areasJoined, areasMatter, AreaState.joined,
      AreaState.checkArea, follows.sameLevel, leftInRange, rightInRange,
      lookup_eq_ok_iff.mpr foundLeft, lookup_eq_ok_iff.mpr foundRight,
      ↓reduceIte, Bool.false_eq_true, ok_bind]
    rfl
  · rw [beq_iff_eq]
    exact
      follows.joins left right leftLabel rightLabel leftInside rightInside
        foundLeft foundRight

/--
A level that was read can be used. Whatever its history then, it stops at a portal
that does not exist or where two floods meet, or else any two areas but the first one
are joined when they lie in one component of the graph of open portals.
-/
theorem areasJoined_iff_reachable
    {bytes : List UInt8}
    {level : Level Float32}
    (accepted : (Level.read bytes).outcome = .ok level)
    (apart : level.own.OutsideApart)
    (history : List Change) :
    ∃ start,
      ofLevel level = .ok start ∧
        (∀ fault,
          start.changes history = .error fault →
            ∃ change ∈ history, change.Faults level.own fault) ∧
        ∀ world,
          start.changes history = .ok world →
            world.config.noAreas = false →
              ∀ left right,
                1 ≤ left → left < level.own.areas.size →
                  1 ≤ right → right < level.own.areas.size →
                    ∃ joined,
                      world.areasJoined left right = .ok joined ∧
                        (joined = true ↔
                          (level.own.areaGraph
                              (openAfter history)).Reachable left right) := by
  have closed := Level.own_closed_of_read accepted
  obtain ⟨start, loaded, _⟩ := exists_ofLevel closed
  have follows := follows_ofLevel apart loaded
  refine ⟨start, loaded, ?_, ?_⟩
  · intro fault fails
    exact follows.exists_faults closed apart fails
  · intro world changed areasMatter left right leftInside leftInRange
      rightInside rightInRange
    exact
      (follows.changes apart changed).areasJoined areasMatter leftInside
        leftInRange rightInside rightInRange

/-- The door keeps two rooms apart, and joins them once it is opened. -/
theorem areasJoined_doorway :
    ∃ (level : Level Float32) (start world : World Float32),
      (Level.read Stored.Level.doorway.packed).outcome = .ok level ∧
        ofLevel level = .ok start ∧
        start.areasJoined 1 2 = .ok false ∧
        start.changes [.portal 1 true] = .ok world ∧
        world.areasJoined 1 2 = .ok true ∧
        (level.own.areaGraph (openAfter [.portal 1 true])).Reachable 1 2 := by
  have run :
      ((Level.read Stored.Level.doorway.packed).outcome.toOption.bind
        fun level => (ofLevel level).toOption.bind
          fun start => (start.areasJoined 1 2).toOption.bind
            fun before => (start.changes [.portal 1 true]).toOption.bind
              fun world => (world.areasJoined 1 2).toOption.map
                fun joined =>
                  ((level.own.areas.size,
                      level.own.areaPortals.all (·.otherArea != 0)),
                    before, world.config.noAreas, joined)) =
        some ((3, true), false, false, true) := by
    decide +kernel
  simp only [Option.bind_eq_some_iff, Option.map_eq_some_iff,
    toOption_eq_some_iff, Prod.mk.injEq, Array.all_eq_true_iff_forall_mem,
    bne_iff_ne] at run
  obtain ⟨level, accepted, start, loaded, before, apartBefore, world, changed,
    joined, answers, ⟨areaCount, apart⟩, rfl, areasMatter, rfl⟩ := run
  obtain ⟨used, usedLoaded, _, joins⟩ :=
    areasJoined_iff_reachable accepted apart [.portal 1 true]
  rw [loaded, Except.ok.injEq] at usedLoaded
  subst usedLoaded
  obtain ⟨joined, answersAgain, reaches⟩ :=
    joins world changed areasMatter 1 2 (by decide)
      (by rw [areaCount]; decide) (by decide) (by rw [areaCount]; decide)
  rw [answers, Except.ok.injEq] at answersAgain
  exact
    ⟨level, start, world, accepted, loaded, apartBefore, changed, answers,
      reaches.mp answersAgain.symm⟩

end World

end LevelCollision

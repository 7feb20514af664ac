import Mathlib.Combinatorics.SimpleGraph.Connectivity.Connected
import LevelCollision.Proofs.AreaFloods

namespace LevelCollision

/-!
# Areas that are labelled alike

The areas of a level other than the first one form a graph, with an edge for every
open portal that leads from one to another. A pass that comes to an end leaves two
areas with one number exactly when they lie in one component of this graph, provided
that no portal leads to the first area.

`Components` holds after each flood of a pass. Floods of earlier passes do not
matter, since a pass begins with no area that has its number.
-/

section

variable {S : Type} {records : Records S} {isOpen : Nat → Bool}

namespace Records

/-- The areas but the first one, joined where an open portal leads to the other. -/
def areaGraph
    (records : Records S)
    (isOpen : Nat → Bool) : SimpleGraph Nat :=
  .fromRel fun area next =>
    1 ≤ area ∧ 1 ≤ next ∧ records.Leads isOpen area next

/-- No portal leads to the first area. -/
def OutsideApart
    (records : Records S) : Prop :=
  ∀ portal ∈ records.areaPortals, portal.otherArea ≠ 0

theorem OutsideApart.one_le_of_leads
    (apart : records.OutsideApart)
    {area next : Nat}
    (leads : records.Leads isOpen area next) :
    1 ≤ next := by
  obtain ⟨_, _, portal, _, _, _, found, _, rfl⟩ := leads
  exact Nat.one_le_iff_ne_zero.mpr (apart portal (Array.mem_of_getElem? found))

theorem reachable_of_leads
    {area next : Nat}
    (areaInside : 1 ≤ area)
    (nextInside : 1 ≤ next)
    (leads : records.Leads isOpen area next) :
    (records.areaGraph isOpen).Reachable area next := by
  by_cases same : area = next
  · subst same
    exact .refl area
  · refine SimpleGraph.Adj.reachable ?_
    rw [areaGraph, SimpleGraph.fromRel_adj]
    exact ⟨same, .inl ⟨areaInside, nextInside, leads⟩⟩

/-- What open portals reach from an inner area is an inner area of its component. -/
theorem OutsideApart.reachable_of_reaches
    (apart : records.OutsideApart)
    {area other : Nat}
    (inside : 1 ≤ area)
    (reaches : records.Reaches isOpen area other) :
    1 ≤ other ∧ (records.areaGraph isOpen).Reachable area other := by
  induction reaches with
  | refl =>
      exact ⟨inside, .refl area⟩
  | tail _ leads inductionHypothesis =>
      obtain ⟨middleInside, reachable⟩ := inductionHypothesis
      have nextInside := apart.one_le_of_leads leads
      exact
        ⟨nextInside,
          reachable.trans
            (reachable_of_leads middleInside nextInside leads)⟩

end Records

namespace AreaState

/-- What holds of the labels of a pass after each of its floods. -/
structure Components
    (records : Records S)
    (isOpen : Nat → Bool)
    (pass : UInt32)
    (floods : Nat)
    (labels : Array AreaLabel) : Prop where
  numbered :
    ∀ (area : Nat) (label : AreaLabel),
      1 ≤ area → labels[area]? = some label →
        label.pass = pass → label.flood ≤ floods
  passedOn :
    ∀ (area next : Nat) (label : AreaLabel),
      1 ≤ area → labels[area]? = some label → label.pass = pass →
        records.Leads isOpen area next → labels[next]? = some label
  joined :
    ∀ (left right : Nat) (label : AreaLabel),
      1 ≤ left → 1 ≤ right →
        labels[left]? = some label → labels[right]? = some label →
          label.pass = pass →
            (records.areaGraph isOpen).Reachable left right

variable {portalOpen : Array Bool} {pass : UInt32} {floods : Nat}
variable {labels after : Array AreaLabel}

/-- Another flood from a fresh area leaves what holds of a pass. -/
theorem Components.spread
    (components : Components records (openFlag portalOpen) pass floods labels)
    (apart : records.OutsideApart)
    {steps area : Nat}
    (inside : 1 ≤ area)
    (spreads :
      AreaState.spread records portalOpen ⟨floods + 1, pass⟩ steps area
          labels =
        .ok after) :
    Components records (openFlag portalOpen) pass (floods + 1) after := by
  obtain ⟨grows, _⟩ := grows_of_spread spreads
  have unused
      {other : Nat}
      (otherInside : 1 ≤ other) :
      labels[other]? ≠ some ⟨floods + 1, pass⟩ := by
    intro labelled
    exact
      Nat.not_succ_le_self floods
        (components.numbered other _ otherInside labelled rfl)
  have reached
      {other : Nat}
      (otherInside : 1 ≤ other)
      (labelled : after[other]? = some ⟨floods + 1, pass⟩) :
      (records.areaGraph (openFlag portalOpen)).Reachable area other := by
    rcases grows.origin other with same | ⟨_, reaches⟩
    · exact absurd (same.symm.trans labelled) (unused otherInside)
    · exact (apart.reachable_of_reaches inside reaches).2
  exact
    { numbered := by
        intro other label otherInside labelled samePass
        rcases grows.origin other with same | ⟨isNew, _⟩
        · rw [same] at labelled
          exact
            Nat.le_succ_of_le
              (components.numbered other label otherInside labelled samePass)
        · rw [isNew, Option.some.injEq] at labelled
          subst labelled
          exact Nat.le_refl _
      passedOn := by
        intro other next label otherInside labelled samePass leads
        rcases grows.origin other with same | ⟨isNew, _⟩
        · rw [same] at labelled
          exact
            grows.kept next label
              (components.passedOn other next label otherInside labelled
                samePass leads)
              samePass
        · have sameLabel := isNew.symm.trans labelled
          rw [Option.some.injEq] at sameLabel
          subst sameLabel
          exact grows.passedOn other next isNew (unused otherInside) leads
      joined := by
        intro left right label leftInside rightInside leftLabel rightLabel
          samePass
        by_cases isNew : label = ⟨floods + 1, pass⟩
        · subst isNew
          exact
            (reached leftInside leftLabel).symm.trans
              (reached rightInside rightLabel)
        · have isOld
              {other : Nat}
              (labelled : after[other]? = some label) :
              labels[other]? = some label := by
            rcases grows.origin other with same | ⟨other, _⟩
            · exact same.symm.trans labelled
            · rw [labelled, Option.some.injEq] at other
              exact absurd other isNew
          exact
            components.joined left right label leftInside rightInside
              (isOld leftLabel) (isOld rightLabel) samePass }

/-- A pass keeps what holds of it. -/
theorem Components.floodFrom
    (components : Components records (openFlag portalOpen) pass floods labels)
    (apart : records.OutsideApart)
    {areas : List Nat}
    (inside : ∀ area ∈ areas, 1 ≤ area)
    (flooded :
      AreaState.floodFrom records portalOpen pass areas floods labels =
        .ok after) :
    ∃ total,
      Components records (openFlag portalOpen) pass total after := by
  induction areas generalizing floods labels with
  | nil =>
      cases flooded
      exact ⟨floods, components⟩
  | cons area rest inductionHypothesis =>
      have restInside : ∀ other ∈ rest, 1 ≤ other := by
        intro other member
        exact inside other (List.mem_cons_of_mem area member)
      unfold AreaState.floodFrom at flooded
      obtain ⟨label, _, flooded⟩ := bind_eq_ok_iff.mp flooded
      split at flooded
      · exact inductionHypothesis components restInside flooded
      · obtain ⟨middle, spreads, flooded⟩ := bind_eq_ok_iff.mp flooded
        have next :=
          components.spread apart (inside area List.mem_cons_self) spreads
        exact inductionHypothesis next restInside flooded

/-- All areas but the first have labels of the last pass. -/
structure Current
    (records : Records S)
    (state : AreaState) : Prop where
  size :
    state.labels.size = records.areas.size
  pass :
    ∀ (area : Nat) (label : AreaLabel),
      1 ≤ area → state.labels[area]? = some label →
        label.pass = state.pass

/-- Two areas but the first have one number when they lie in one component. -/
def Joins
    (records : Records S)
    (isOpen : Nat → Bool)
    (state : AreaState) : Prop :=
  ∀ (left right : Nat) (leftLabel rightLabel : AreaLabel),
    1 ≤ left → 1 ≤ right →
      state.labels[left]? = some leftLabel →
        state.labels[right]? = some rightLabel →
          (leftLabel.flood = rightLabel.flood ↔
            (records.areaGraph isOpen).Reachable left right)

/-- The number of the next pass is not that of the last one, even after it wraps. -/
theorem next_pass_ne
    (pass : UInt32) :
    pass ≠ pass + 1 := by
  intro same
  have numbers := congrArg UInt32.toNat same
  rw [UInt32.toNat_add] at numbers
  have bound := pass.toNat_lt
  change pass.toNat = (pass.toNat + 1) % 2 ^ 32 at numbers
  omega

theorem Current.stale
    {state : AreaState}
    (current : Current records state)
    {area : Nat}
    {label : AreaLabel}
    (inside : 1 ≤ area)
    (found : state.labels[area]? = some label) :
    label.pass ≠ state.pass + 1 := by
  rw [current.pass area label inside found]
  exact next_pass_ne state.pass

theorem Current.components
    {state : AreaState}
    (current : Current records state) :
    Components records isOpen (state.pass + 1) 0 state.labels where
  numbered _ _ inside found samePass :=
    absurd samePass (current.stale inside found)
  passedOn _ _ _ inside found samePass :=
    absurd samePass (current.stale inside found)
  joined _ _ _ inside _ found _ samePass :=
    absurd samePass (current.stale inside found)

/-- It does not matter which portals are open. -/
theorem Current.setFlags
    {state : AreaState}
    (current : Current records state)
    (portalOpen : Array Bool) :
    Current records { state with portalOpen := portalOpen } where
  size := current.size
  pass := current.pass

/-- Labels that are passed on are the same all over a component. -/
theorem Components.labels_eq_of_reachable
    (components : Components records isOpen pass floods labels)
    (labelled :
      ∀ area, 1 ≤ area → area < records.areas.size →
        ∃ label, labels[area]? = some label ∧ label.pass = pass)
    {left right : Nat}
    (reachable : (records.areaGraph isOpen).Reachable left right)
    {label : AreaLabel}
    (found : labels[left]? = some label)
    (samePass : label.pass = pass) :
    labels[right]? = some label := by
  rw [SimpleGraph.reachable_iff_reflTransGen] at reachable
  induction reachable with
  | refl =>
      exact found
  | @tail middle next _ adjacent inductionHypothesis =>
      rw [Records.areaGraph, SimpleGraph.fromRel_adj] at adjacent
      rcases adjacent with
          ⟨_, ⟨middleInside, _, leads⟩ | ⟨nextInside, _, leads⟩⟩
      · exact
          components.passedOn middle next label middleInside
            inductionHypothesis samePass leads
      · have inRange : next < records.areas.size := by
          obtain ⟨_, _, _, foundNext, _⟩ := leads
          exact (Array.getElem?_eq_some_iff.mp foundNext).1
        obtain ⟨nextLabel, foundNext, nextPass⟩ :=
          labelled next nextInside inRange
        have passedBack :=
          components.passedOn next middle nextLabel nextInside foundNext
            nextPass leads
        rw [inductionHypothesis] at passedBack
        rw [foundNext]
        exact passedBack.symm

/-- A pass that comes to an end has labelled all areas but the first. -/
theorem current_of_reflow
    {state after : AreaState}
    (size : state.labels.size = records.areas.size)
    (flowed : state.reflow records = .ok after) :
    Current records after := by
  obtain ⟨labels, flooded, made⟩ := bind_eq_ok_iff.mp flowed
  cases made
  have relabels := relabels_of_floodFrom flooded
  refine ⟨relabels.size.trans size, ?_⟩
  intro area label inside found
  have inRange := (Array.getElem?_eq_some_iff.mp found).1
  change area < labels.size at inRange
  rw [relabels.size, size] at inRange
  have member : area ∈ List.range' 1 (records.areas.size - 1) := by
    rw [List.mem_range'_1]
    omega
  obtain ⟨flood, foundNew⟩ := relabels.visited area member
  change labels[area]? = some label at found
  rw [found, Option.some.injEq] at foundNew
  rw [foundNew]

/-- It tells the components apart. -/
theorem Current.reflow
    {state after : AreaState}
    (current : Current records state)
    (apart : records.OutsideApart)
    (flowed : state.reflow records = .ok after) :
    Current records after ∧
      after.portalOpen = state.portalOpen ∧
      Joins records (openFlag state.portalOpen) after := by
  have currentAfter := current_of_reflow current.size flowed
  obtain ⟨labels, flooded, made⟩ := bind_eq_ok_iff.mp flowed
  cases made
  have inside : ∀ area ∈ List.range' 1 (records.areas.size - 1), 1 ≤ area := by
    intro area member
    exact (List.mem_range'_1.mp member).1
  obtain ⟨total, components⟩ :=
    current.components.floodFrom apart inside flooded
  have labelled
      (area : Nat)
      (areaInside : 1 ≤ area)
      (inRange : area < records.areas.size) :
      ∃ label, labels[area]? = some label ∧ label.pass = state.pass + 1 := by
    rw [← currentAfter.size] at inRange
    have found : labels[area]? = some labels[area] :=
      Array.getElem?_eq_getElem inRange
    exact ⟨_, found, currentAfter.pass area _ areaInside found⟩
  refine ⟨currentAfter, rfl, ?_⟩
  intro left right leftLabel rightLabel leftInside rightInside foundLeft
    foundRight
  have leftPass := currentAfter.pass left leftLabel leftInside foundLeft
  have rightPass := currentAfter.pass right rightLabel rightInside foundRight
  constructor
  · intro sameFlood
    have same : leftLabel = rightLabel := by
      cases leftLabel
      cases rightLabel
      simp_all
    rw [← same] at foundRight
    exact
      components.joined left right leftLabel leftInside rightInside foundLeft
        foundRight leftPass
  · intro reachable
    have alike :=
      components.labels_eq_of_reachable labelled reachable foundLeft leftPass
    rw [foundRight, Option.some.injEq] at alike
    rw [alike]

/-- Before the first pass all areas have labels of one pass. -/
theorem current_closed :
    Current records (AreaState.closed records) where
  size := Array.size_replicate
  pass _ _ _ found := by
    obtain ⟨_, rfl⟩ := Array.getElem?_eq_some_iff.mp found
    simp [AreaState.closed]

end AreaState

end

end LevelCollision

import Mathlib.Logic.Relation
import LevelCollision.Areas.Flood
import LevelCollision.Proofs.References
import LevelCollision.Proofs.Outcomes

namespace LevelCollision

/-!
# What a flood labels

A flood follows open portals from the area that it starts from. `Grows` says what
becomes of the labels on the way: labels of the same pass stay, every other area is
left alone or comes to the flood's label, and an area that comes to it has passed
the label on through all its open portals.
-/

section

variable {S : Type}

/-- A portal of an area is open and leads to the next one. -/
def Records.Leads
    (records : Records S)
    (isOpen : Nat → Bool)
    (area next : Nat) : Prop :=
  ∃ entry position portal,
    records.areas[area]? = some entry ∧
      entry.portals.first ≤ position ∧
      position < entry.portals.stop ∧
      records.areaPortals[position]? = some portal ∧
      isOpen portal.number = true ∧
      portal.otherArea = next

/-- Open portals lead from an area to another one in any number of steps. -/
abbrev Records.Reaches
    (records : Records S)
    (isOpen : Nat → Bool) : Nat → Nat → Prop :=
  Relation.ReflTransGen (records.Leads isOpen)

/-- Portals without a flag are closed. -/
def openFlag
    (portalOpen : Array Bool)
    (number : Nat) : Bool :=
  portalOpen.getD number false

/-- An open portal of an area leads from it. -/
theorem Records.leads_of_mem_portals
    {records : Records S}
    {isOpen : Nat → Bool}
    {area : Nat}
    {entry : Area}
    {portals : List AreaPortal}
    (found : records.areas[area]? = some entry)
    (foundPortals : lookupSpan records.areaPortals entry.portals = .ok portals)
    {portal : AreaPortal}
    (member : portal ∈ portals)
    (passable : isOpen portal.number = true) :
    records.Leads isOpen area portal.otherArea := by
  obtain ⟨position, afterFirst, beforeStop, foundPortal⟩ :=
    (mem_lookupSpan_iff foundPortals).mp member
  exact
    ⟨entry, position, portal, found, afterFirst, beforeStop, foundPortal,
      passable, rfl⟩

theorem openFlag_eq_of_lookup
    {portalOpen : Array Bool}
    {number : Nat}
    {isOpen : Bool}
    (found : lookup portalOpen number = .ok isOpen) :
    openFlag portalOpen number = isOpen := by
  rw [openFlag, Array.getD_eq_getD_getElem?, lookup_eq_ok_iff.mp found]
  rfl

namespace AreaState

/-- How labels become others while a flood passes on its label. -/
structure Grows
    (records : Records S)
    (isOpen : Nat → Bool)
    (label : AreaLabel)
    (within : Nat → Prop)
    (before after : Array AreaLabel) : Prop where
  size :
    after.size = before.size
  /-- Labels of the pass stay. -/
  kept :
    ∀ (area : Nat) (entry : AreaLabel),
      before[area]? = some entry →
        entry.pass = label.pass → after[area]? = some entry
  origin :
    ∀ area : Nat,
      after[area]? = before[area]? ∨
        after[area]? = some label ∧ within area
  /-- Areas that come to the label have passed it on. -/
  passedOn :
    ∀ area next : Nat,
      after[area]? = some label →
        before[area]? ≠ some label →
          records.Leads isOpen area next → after[next]? = some label

namespace Grows

variable {records : Records S} {isOpen : Nat → Bool} {label : AreaLabel}
variable {within wider : Nat → Prop}
variable {before middle after : Array AreaLabel}

theorem refl :
    Grows records isOpen label within before before where
  size := rfl
  kept _ _ found _ := found
  origin _ := .inl rfl
  passedOn _ _ labelled notBefore _ := absurd labelled notBefore

theorem trans
    (first : Grows records isOpen label within before middle)
    (second : Grows records isOpen label within middle after) :
    Grows records isOpen label within before after where
  size := second.size.trans first.size
  kept area entry found samePass :=
    second.kept area entry (first.kept area entry found samePass) samePass
  origin area := by
    rcases second.origin area with same | labelled
    · rw [same]
      exact first.origin area
    · exact .inr labelled
  passedOn area next labelled notBefore leads := by
    by_cases inMiddle : middle[area]? = some label
    · exact
        second.kept next label
          (first.passedOn area next inMiddle notBefore leads) rfl
    · exact second.passedOn area next labelled inMiddle leads

theorem widen
    (grows : Grows records isOpen label within before after)
    (wide : ∀ area, within area → wider area) :
    Grows records isOpen label wider before after where
  size := grows.size
  kept := grows.kept
  origin area := by
    rcases grows.origin area with same | ⟨labelled, inside⟩
    · exact .inl same
    · exact .inr ⟨labelled, wide area inside⟩
  passedOn := grows.passedOn

/-- Going through portals one after the other passes the label on through each. -/
theorem foldlM
    {portals : List AreaPortal}
    {through : Array AreaLabel → AreaPortal → Except Fault (Array AreaLabel)}
    (each :
      ∀ portal ∈ portals,
        ∀ before after,
          through before portal = .ok after →
            Grows records isOpen label within before after ∧
              (isOpen portal.number = true →
                after[portal.otherArea]? = some label))
    (passed : portals.foldlM through before = .ok after) :
    Grows records isOpen label within before after ∧
      ∀ portal ∈ portals,
        isOpen portal.number = true →
          after[portal.otherArea]? = some label := by
  induction portals generalizing before with
  | nil =>
      cases passed
      exact ⟨refl, by simp⟩
  | cons portal rest inductionHypothesis =>
      rw [List.foldlM_cons, bind_eq_ok_iff] at passed
      obtain ⟨middle, throughFirst, throughRest⟩ := passed
      obtain ⟨firstGrows, firstLabels⟩ :=
        each portal (by simp) before middle throughFirst
      obtain ⟨restGrows, restLabels⟩ :=
        inductionHypothesis
          (fun other member => each other (by simp [member])) throughRest
      refine ⟨firstGrows.trans restGrows, ?_⟩
      intro other member isOpenNumber
      rcases List.mem_cons.mp member with isFirst | inRest
      · subst isFirst
        exact restGrows.kept _ label (firstLabels isOpenNumber) rfl
      · exact restLabels other inRest isOpenNumber

/-- An area that is labelled, and passes the label on, has grown the labels. -/
theorem ofStart
    {area : Nat}
    {previous : AreaLabel}
    (found : before[area]? = some previous)
    (fresh : previous.pass ≠ label.pass)
    (inside : within area)
    (grows :
      Grows records isOpen label within
        (before.setIfInBounds area label) after)
    (passedOn :
      ∀ next, records.Leads isOpen area next → after[next]? = some label) :
    Grows records isOpen label within before after := by
  have elsewhere
      {other : Nat}
      (differs : area ≠ other) :
      (before.setIfInBounds area label)[other]? = before[other]? :=
    Array.getElem?_setIfInBounds_ne differs
  have atStart : (before.setIfInBounds area label)[area]? = some label := by
    obtain ⟨inRange, _⟩ := Array.getElem?_eq_some_iff.mp found
    exact Array.getElem?_setIfInBounds_self_of_lt inRange
  exact
    { size := grows.size.trans Array.size_setIfInBounds
      kept := by
        intro other entry foundOther samePass
        by_cases isStart : area = other
        · subst isStart
          rw [found, Option.some.injEq] at foundOther
          subst foundOther
          exact absurd samePass fresh
        · exact
            grows.kept other entry
              ((elsewhere isStart).trans foundOther) samePass
      origin := by
        intro other
        by_cases isStart : area = other
        · subst isStart
          exact .inr ⟨grows.kept area label atStart rfl, inside⟩
        · rw [← elsewhere isStart]
          exact grows.origin other
      passedOn := by
        intro other next labelled notBefore leads
        by_cases isStart : area = other
        · subst isStart
          exact passedOn next leads
        · rw [← elsewhere isStart] at notBefore
          exact grows.passedOn other next labelled notBefore leads }

end Grows

/-- Go through one portal, if it is open. -/
def spreadThrough
    (records : Records S)
    (portalOpen : Array Bool)
    (label : AreaLabel)
    (steps : Nat)
    (labels : Array AreaLabel)
    (portal : AreaPortal) : Except Fault (Array AreaLabel) := do
  if ← lookup portalOpen portal.number then
    spread records portalOpen label steps portal.otherArea labels
  else
    return labels

section Spread

variable {records : Records S} {portalOpen : Array Bool} {label : AreaLabel}
variable {steps area : Nat} {before after : Array AreaLabel}

/--
A flood that comes to an end has found its own label, or has labelled a fresh area
and gone through its portals.
-/
theorem spread_cases
    (spreads : spread records portalOpen label steps area before = .ok after) :
    before[area]? = some label ∧ after = before ∨
      ∃ previous fewer entry portals,
        before[area]? = some previous ∧
          previous.pass ≠ label.pass ∧
          steps = fewer + 1 ∧
          records.areas[area]? = some entry ∧
          lookupSpan records.areaPortals entry.portals = .ok portals ∧
          portals.foldlM (spreadThrough records portalOpen label fewer)
              (before.setIfInBounds area label) =
            .ok after := by
  unfold spread at spreads
  obtain ⟨previous, found, spreads⟩ := bind_eq_ok_iff.mp spreads
  have foundEntry := lookup_eq_ok_iff.mp found
  by_cases samePass : previous.pass = label.pass
  · by_cases sameFlood : previous.flood = label.flood
    · simp only [samePass, sameFlood, ↓reduceIte] at spreads
      have same : previous = label := by
        cases previous
        cases label
        simp_all
      rw [same] at foundEntry
      exact .inl ⟨foundEntry, (Except.ok.inj spreads).symm⟩
    · simp only [samePass, sameFlood, ↓reduceIte] at spreads
      cases spreads
  · cases steps with
    | zero =>
        simp only [samePass, ↓reduceIte] at spreads
        cases spreads
    | succ fewer =>
        simp only [samePass, ↓reduceIte] at spreads
        obtain ⟨entry, foundArea, spreads⟩ := bind_eq_ok_iff.mp spreads
        obtain ⟨portals, foundPortals, folded⟩ := bind_eq_ok_iff.mp spreads
        exact
          .inr
            ⟨previous, fewer, entry, portals, foundEntry, samePass, rfl,
              lookup_eq_ok_iff.mp foundArea, foundPortals, folded⟩

/-- A portal that was gone through was closed, or the flood went on behind it. -/
theorem spreadThrough_cases
    {portal : AreaPortal}
    (spreads :
      spreadThrough records portalOpen label steps before portal =
        .ok after) :
    openFlag portalOpen portal.number = false ∧ after = before ∨
      openFlag portalOpen portal.number = true ∧
        spread records portalOpen label steps portal.otherArea before =
          .ok after := by
  obtain ⟨isOpen, found, spreads⟩ := bind_eq_ok_iff.mp spreads
  rw [openFlag_eq_of_lookup found]
  cases isOpen with
  | false =>
      exact .inl ⟨rfl, (Except.ok.inj spreads).symm⟩
  | true =>
      exact .inr ⟨rfl, spreads⟩

/-- A flood that comes to an end has labelled where it began, and all it reached. -/
theorem grows_of_spread
    (spreads : spread records portalOpen label steps area before = .ok after) :
    Grows records (openFlag portalOpen) label
        (records.Reaches (openFlag portalOpen) area) before after ∧
      after[area]? = some label := by
  induction steps generalizing area before after with
  | zero =>
      rcases spread_cases spreads with
          ⟨labelled, rfl⟩ | ⟨_, _, _, _, _, _, noSteps, _⟩
      · exact ⟨.refl, labelled⟩
      · cases noSteps
  | succ steps inductionHypothesis =>
      rcases spread_cases spreads with
          ⟨labelled, rfl⟩ |
            ⟨previous, fewer, entry, portals, found, fresh, sameSteps,
              foundArea, foundPortals, folded⟩
      · exact ⟨.refl, labelled⟩
      · cases sameSteps
        have wentThrough :
            Grows records (openFlag portalOpen) label
                (records.Reaches (openFlag portalOpen) area)
                (before.setIfInBounds area label) after ∧
              ∀ portal ∈ portals,
                openFlag portalOpen portal.number = true →
                  after[portal.otherArea]? = some label := by
          refine Grows.foldlM ?_ folded
          intro portal member middle later through
          rcases spreadThrough_cases through with
              ⟨isClosed, rfl⟩ | ⟨isOpen, spreadsOn⟩
          · refine ⟨.refl, fun isOpen => ?_⟩
            rw [isClosed] at isOpen
            cases isOpen
          · obtain ⟨growsOn, labelled⟩ := inductionHypothesis spreadsOn
            refine ⟨growsOn.widen ?_, fun _ => labelled⟩
            intro other reaches
            exact
              .head
                (Records.leads_of_mem_portals foundArea foundPortals member
                  isOpen)
                reaches
        obtain ⟨grows, labels⟩ := wentThrough
        have passedOn
            (next : Nat)
            (leads : records.Leads (openFlag portalOpen) area next) :
            after[next]? = some label := by
          obtain ⟨other, position, portal, foundOther, afterFirst, beforeStop,
            foundPortal, isOpen, rfl⟩ := leads
          rw [foundArea, Option.some.injEq] at foundOther
          subst foundOther
          exact
            labels portal
              ((mem_lookupSpan_iff foundPortals).mpr
                ⟨position, afterFirst, beforeStop, foundPortal⟩)
              isOpen
        have inRange := (Array.getElem?_eq_some_iff.mp found).1
        exact
          ⟨.ofStart found fresh .refl grows passedOn,
            grows.kept area label
              (Array.getElem?_setIfInBounds_self_of_lt inRange) rfl⟩

/-- What a pass does to labels when it goes through some areas. -/
structure Relabels
    (pass : UInt32)
    (areas : List Nat)
    (before after : Array AreaLabel) : Prop where
  size :
    after.size = before.size
  kept :
    ∀ (area : Nat) (entry : AreaLabel),
      before[area]? = some entry →
        entry.pass = pass → after[area]? = some entry
  origin :
    ∀ area : Nat,
      after[area]? = before[area]? ∨
        ∃ flood, after[area]? = some ⟨flood, pass⟩
  visited :
    ∀ area ∈ areas, ∃ flood, after[area]? = some ⟨flood, pass⟩

theorem relabels_of_floodFrom
    {pass : UInt32}
    {areas : List Nat}
    {floods : Nat}
    {labels : Array AreaLabel}
    (flooded :
      floodFrom records portalOpen pass areas floods labels = .ok after) :
    Relabels pass areas labels after := by
  induction areas generalizing floods labels with
  | nil =>
      cases flooded
      exact
        { size := rfl
          kept := fun _ _ found _ => found
          origin := fun _ => .inl rfl
          visited := by simp }
  | cons area rest inductionHypothesis =>
      unfold floodFrom at flooded
      obtain ⟨label, found, flooded⟩ := bind_eq_ok_iff.mp flooded
      by_cases samePass : label.pass = pass
      · rw [if_pos samePass] at flooded
        have later := inductionHypothesis flooded
        refine { later with visited := ?_ }
        intro other member
        rcases List.mem_cons.mp member with isFirst | inRest
        · subst isFirst samePass
          exact
            ⟨label.flood,
              later.kept other label (lookup_eq_ok_iff.mp found) rfl⟩
        · exact later.visited other inRest
      · rw [if_neg samePass] at flooded
        obtain ⟨middle, spreads, flooded⟩ := bind_eq_ok_iff.mp flooded
        obtain ⟨grows, started⟩ := grows_of_spread spreads
        have later := inductionHypothesis flooded
        exact
          { size := later.size.trans grows.size
            kept := by
              intro other entry foundOther entryPass
              exact
                later.kept other entry
                  (grows.kept other entry foundOther entryPass) entryPass
            origin := by
              intro other
              rcases later.origin other with same | isNew
              · rw [same]
                rcases grows.origin other with sameBefore | ⟨isNew, _⟩
                · exact .inl sameBefore
                · exact .inr ⟨_, isNew⟩
              · exact .inr isNew
            visited := by
              intro other member
              rcases List.mem_cons.mp member with isFirst | inRest
              · subst isFirst
                exact ⟨_, later.kept other _ started rfl⟩
              · exact later.visited other inRest }

end Spread

end AreaState

end

end LevelCollision

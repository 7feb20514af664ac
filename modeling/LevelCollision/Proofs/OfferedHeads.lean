import LevelCollision.Proofs.HullTrees
import LevelCollision.Proofs.SoundLevels

namespace LevelCollision

/-!
# Heads that a level offers

A level offers the heads of its models, the world among them, and those of box hulls.
Walks from them end when no model has a cycle below its head. The tree of a model keeps to
the level's own records, so that no walk through it comes to the leaf of a box hull.
-/

section

variable {S : Type} [Scalar S]

/-- A head that can be had from a level. -/
inductive Level.Offers
    (level : Level S) :
    Head S → Prop where
  | world
      {head : Head S} :
      level.worldHead = .ok head →
      Offers level head
  | model
      {id : Nat}
      {model : Model S} :
      level.own.models[id]? = some model →
      Offers level model.treeHead
  | inlineModel
      {name : String}
      {model : Model S} :
      level.inlineModel name = .ok model →
      Offers level model.treeHead
  | box
      (bounds : Box S) :
      Offers level (.box bounds)

/-- No model has a cycle below its head. -/
def Level.Acyclic
    (level : Level S) : Prop :=
  ∀ model ∈ level.own.models, (level.tree model.treeHead).Acyclic

/-- What a walk from a head can rely on. -/
structure Level.Walkable
    (level : Level S)
    (head : Head S) : Prop where
  ends :
    (level.tree head).EndsWithin (level.tree head).depthBound
      (level.tree head).root
  ownLeaf :
    head.isBox = false →
      ∀ leaf,
        (level.tree head).Below (level.tree head).root (.leaf leaf) →
          leaf < level.own.leaves.size

namespace Level

variable {level : Level S} {head : Head S} {model : Model S}

/-- The model of a name is the one at the number behind the asterisk, and not the world. -/
theorem inlineModel_eq_ok_iff
    {name : String} :
    level.inlineModel name = .ok model ↔
      ∃ numeral number,
        name.toList = '*' :: numeral ∧
          Decimal.unsigned? numeral = some number ∧
          number ≠ 0 ∧ level.own.models[number]? = some model := by
  unfold inlineModel
  dsimp only
  constructor
  · intro found
    split at found
    · rename_i isFound
      cases found
      split at isFound
      · rename_i numeral isName
        split at isFound
        · rename_i number isNumber
          split at isFound
          · cases isFound
          · rename_i notWorld
            exact ⟨numeral, number, isName, isNumber, notWorld, isFound⟩
        · cases isFound
      · cases isFound
    · cases found
  · rintro ⟨numeral, number, isName, isNumber, notWorld, isFound⟩
    simp only [isName, isNumber, if_neg notWorld, isFound]

/-- The model of a name is one of the level's. -/
theorem mem_models_of_inlineModel
    {name : String}
    (found : level.inlineModel name = .ok model) :
    model ∈ level.own.models := by
  obtain ⟨_, _, _, _, _, isFound⟩ := inlineModel_eq_ok_iff.mp found
  exact Array.mem_of_getElem? isFound

/-- A level offers the heads of its models and those of box hulls. -/
theorem Offers.cases
    (offers : level.Offers head) :
    (∃ model ∈ level.own.models, head = model.treeHead) ∨
      ∃ bounds, head = .box bounds := by
  cases offers with
  | world found =>
      obtain ⟨model, isWorld, made⟩ := bind_eq_ok_iff.mp found
      cases made
      exact .inl ⟨model, mem_of_lookup_eq_ok isWorld, rfl⟩
  | model found =>
      exact .inl ⟨_, Array.mem_of_getElem? found, rfl⟩
  | inlineModel found =>
      exact .inl ⟨_, mem_models_of_inlineModel found, rfl⟩
  | box bounds =>
      exact .inr ⟨bounds, rfl⟩

/-- What lies below one of the level's own records is one of them. -/
theorem in_own_of_below
    (closed : level.own.Closed level.clusterCount)
    {upper lower : Child}
    (inOwn : upper.In level.own)
    (below : (level.tree head).Below upper lower) :
    lower.In level.own := by
  induction below with
  | refl =>
      exact inOwn
  | @step id child _ hasChild _ inductionHypothesis =>
      obtain ⟨node, side, found, rfl⟩ := hasChild
      refine inductionHypothesis ?_
      rw [records_tree, BoxHull.chain_withBoxHull.ownNodes id inOwn] at found
      exact closed.nodeChild node (Array.mem_of_getElem? found) side

/-- The tree of a model begins in the level's own records. -/
theorem Sound.root_in_own
    (sound : level.Sound)
    (member : model ∈ level.own.models) :
    (level.tree model.treeHead).root.In level.own := by
  unfold tree Model.treeHead
  dsimp only
  split
  · exact Nat.zero_lt_of_lt sound.emptyLeaf_lt
  · exact sound.closed.modelHead model member

/-- Walks from the head of a model end, at one of the level's own leaves. -/
theorem Sound.walkable_model
    (sound : level.Sound)
    (acyclic : (level.tree model.treeHead).Acyclic)
    (member : model ∈ level.own.models) :
    level.Walkable model.treeHead where
  ends := by
    have inOwn := sound.root_in_own member
    refine acyclic.endsWithin (sound.closed_tree model.treeHead) ?_
    rw [records_tree]
    exact inOwn.withBoxHull
  ownLeaf _ leaf below :=
    in_own_of_below sound.closed (sound.root_in_own member) below

/-- Walks from the head of a box hull end. -/
theorem Sound.walkable_box
    (sound : level.Sound)
    (bounds : Box S) :
    level.Walkable (.box bounds) where
  ends := by
    refine (BoxHull.endsWithin_stage sound bounds (Nat.zero_add _)).mono ?_
    rw [Tree.depthBound, records_tree, Records.size_nodes_withBoxHull]
    exact Nat.le_add_left _ _
  ownLeaf isTree := by
    cases isTree

/-- Walks from every head that a level without cycles offers can be relied on. -/
theorem Sound.walkable
    (sound : level.Sound)
    (acyclic : level.Acyclic)
    (offers : level.Offers head) :
    level.Walkable head := by
  rcases offers.cases with ⟨model, member, rfl⟩ | ⟨bounds, rfl⟩
  · exact sound.walkable_model (acyclic model member) member
  · exact sound.walkable_box bounds

/-- There is a world, and its head can be relied on if there is no cycle below it. -/
theorem Sound.exists_walkable_world
    (sound : level.Sound)
    (acyclic :
      ∀ head, level.worldHead = .ok head → (level.tree head).Acyclic) :
    ∃ head,
      level.worldHead = .ok head ∧
        level.Walkable head ∧ head.isBox = false := by
  have found := lookup_of_lt sound.hasModel
  have isWorld : level.worldHead = .ok _ :=
    bind_eq_ok_iff.mpr ⟨_, found, rfl⟩
  exact
    ⟨_, isWorld,
      sound.walkable_model (acyclic _ isWorld) (mem_of_lookup_eq_ok found), rfl⟩

/-- There is one that can be relied on in a level without cycles. -/
theorem Sound.exists_worldHead
    (sound : level.Sound)
    (acyclic : level.Acyclic) :
    ∃ head,
      level.worldHead = .ok head ∧
        level.Walkable head ∧ head.isBox = false := by
  refine sound.exists_walkable_world fun head isWorld => ?_
  obtain ⟨model, found, made⟩ := bind_eq_ok_iff.mp isWorld
  cases made
  exact acyclic model (mem_of_lookup_eq_ok found)

end Level

end

end LevelCollision

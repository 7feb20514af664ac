import LevelCollision.Level.BoxHull
import LevelCollision.Level.Error
import LevelCollision.Text.Decimal
import LevelCollision.Visibility.Table

namespace LevelCollision

/-!
# Levels

A level holds its own records, the visibility of its clusters and its entity text.
The records of a box hull follow its own ones, so that a query can be asked of a
box as it is asked of a model.

A query names the tree it walks by a head: a child of the level's tree, or the
bounds of a box. `Level.tree` turns the head into the records and the root of the
walk.
-/

/-- The entry of an array at a position, or a fault if there is none. -/
def lookup
    {α : Type}
    (entries : Array α)
    (position : Nat) : Except Fault α :=
  match entries[position]? with
  | some entry => .ok entry
  | none => .error .outOfBounds

/-- The array with another entry at a position, or a fault if it has no such place. -/
def store
    {α : Type}
    (entries : Array α)
    (position : Nat)
    (entry : α) : Except Fault (Array α) :=
  if position < entries.size then
    .ok (entries.setIfInBounds position entry)
  else
    .error .outOfBounds

/-- The row with the bit at a position set, or a fault if the row has no such bit. -/
def BitRow.mark
    (row : BitRow)
    (position : Nat) : Except Fault BitRow :=
  if position / 8 < row.bytes.size then
    .ok (row.set position)
  else
    .error .outOfBounds

/-- The entries of a run of positions, or a fault if the array lacks some. -/
def lookupSpan
    {α : Type}
    (entries : Array α)
    (span : Span) : Except Fault (List α) :=
  match span.slice? entries with
  | some run => .ok run
  | none => .error .outOfBounds

/-- A level to which queries can be put. -/
structure Level (S : Type) [Scalar S] where
  /-- The records of the level itself. -/
  own : Records S
  /-- The leaf that lies outside every box hull. -/
  emptyLeaf : Nat
  visibility : Option VisibilityTable
  clusterCount : Nat
  entityBytes : List UInt8
  /-- Size of the file that the level was read from. -/
  fileSize : Nat
  /-- The level's own records and those of a box hull without bounds. -/
  full : Records S := own.withBoxHull emptyLeaf BoxHull.unplaced
  full_eq : full = own.withBoxHull emptyLeaf BoxHull.unplaced := by rfl

/-- Where a query begins. -/
inductive Head (S : Type) where
  /-- The tree below a child. -/
  | tree (root : Child)
  /-- The hull of a box. -/
  | box (bounds : Box S)
  deriving DecidableEq

/-- Whether a head is the hull of a box. -/
def Head.isBox
    {S : Type} :
    Head S → Bool
  | .tree _ => false
  | .box _ => true

/-- The head of a model. -/
def Model.treeHead
    {S : Type}
    (model : Model S) : Head S :=
  .tree model.head

/-- Records and a place in them from which a query walks. -/
structure Tree (S : Type) where
  records : Records S
  root : Child

namespace Level

variable {S : Type} [Scalar S]

/--
The level without a map: one empty leaf in one cluster and one area, and one model
without extent.
-/
def empty : Level S where
  own :=
    { leaves :=
        #[{ contents := .empty
            cluster := some 0
            area := 0
            brushes := ⟨0, 0⟩ }]
      models :=
        #[{ bounds := BoxHull.unplaced
            origin := Vec3.zero
            head := .leaf 0 }]
      areas := #[{ portals := ⟨0, 0⟩ }] }
  emptyLeaf := 0
  visibility := none
  clusterCount := 1
  entityBytes := []
  fileSize := 0

/-- Whether the level is one without a map. -/
def isEmpty
    (level : Level S) : Bool :=
  level.own.planes.isEmpty

/-- Bytes of a row with one bit for each cluster. -/
def rowLength
    (level : Level S) : Nat :=
  BitRow.byteCount level.clusterCount

/--
The tree of a head. The hull of a box is the one that follows the level's records,
with the planes of that box. Without a map there is nothing to walk but a leaf.
-/
def tree
    (level : Level S) :
    Head S → Tree S
  | .box bounds =>
      { records :=
          { level.full with
            planes := level.own.planes ++ BoxHull.planes bounds }
        root := BoxHull.head level.own }
  | .tree root =>
      { records := level.full
        root := if level.isEmpty then .leaf 0 else root }

/-- The first model is the world. -/
def world
    (level : Level S) : Except Fault (Model S) :=
  lookup level.own.models 0

/-- The head of the world. -/
def worldHead
    (level : Level S) : Except Fault (Head S) := do
  let world ← level.world
  return world.treeHead

/--
The model of a name made of an asterisk and a number. The world has no such name.
-/
def inlineModel
    (level : Level S)
    (name : String) : Except LevelError (Model S) :=
  let found :=
    match name.toList with
    | '*' :: numeral =>
        match Decimal.unsigned? numeral with
        | some number =>
            if number = 0 then none else level.own.models[number]?
        | none =>
            none
    | _ =>
        none
  match found with
  | some model => .ok model
  | none => .error (.badModelName name)

/-- One of the level's own leaves. -/
def leaf
    (level : Level S)
    (id : Nat) : Except Fault Leaf :=
  match level.own.leaves[id]? with
  | some leaf => .ok leaf
  | none => .error (.badLeaf id level.own.leaves.size)

end Level

namespace Tree

variable {S : Type}

/-- A node of the tree. -/
def node
    (tree : Tree S)
    (id : Nat) : Except Fault Node :=
  lookup tree.records.nodes id

/-- A plane of the tree. -/
def plane
    (tree : Tree S)
    (id : Nat) : Except Fault (Plane S) :=
  lookup tree.records.planes id

/-- A leaf of the tree. -/
def leaf
    (tree : Tree S)
    (id : Nat) : Except Fault Leaf :=
  lookup tree.records.leaves id

/--
Steps that a walk may take from the root. A walk that meets no node twice takes no
more than there are nodes.
-/
def depthBound
    (tree : Tree S) : Nat :=
  tree.records.nodes.size

end Tree

end LevelCollision

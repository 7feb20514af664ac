namespace LevelCollision

/-!
# Settings

Settings apply to all queries of a world and may be replaced at any time.
-/

/-- The settings of a world. -/
structure Config where
  /-- Every area counts as joined to every other one. -/
  noAreas : Bool := false
  /-- How many leaves the test of a position looks at. -/
  maxTouchedLeaves : Nat := 1024
  /-- How many leaves are looked at for the clusters around a point. -/
  maxFatLeaves : Nat := 64
  deriving DecidableEq, Repr

end LevelCollision

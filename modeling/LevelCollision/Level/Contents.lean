namespace LevelCollision

/-!
# Contents

A leaf and a brush carry a set of content flags, stored as the bits of a 32-bit
word. Only the flags named here have a meaning; a word read from a file or given
as a mask is cut down to them.
-/

/-- A set of content flags. -/
structure Contents where
  bits : UInt32
  deriving DecidableEq, Repr

namespace Contents

/-- No flag. -/
def empty : Contents := ⟨0⟩

def solid : Contents := ⟨0x1⟩
def window : Contents := ⟨0x2⟩
def aux : Contents := ⟨0x4⟩
def lava : Contents := ⟨0x8⟩
def slime : Contents := ⟨0x10⟩
def water : Contents := ⟨0x20⟩
def mist : Contents := ⟨0x40⟩
def areaPortal : Contents := ⟨0x8000⟩
def playerClip : Contents := ⟨0x10000⟩
def monsterClip : Contents := ⟨0x20000⟩
def current0 : Contents := ⟨0x40000⟩
def current90 : Contents := ⟨0x80000⟩
def current180 : Contents := ⟨0x100000⟩
def current270 : Contents := ⟨0x200000⟩
def currentUp : Contents := ⟨0x400000⟩
def currentDown : Contents := ⟨0x800000⟩
def origin : Contents := ⟨0x1000000⟩
def monster : Contents := ⟨0x2000000⟩
def deadMonster : Contents := ⟨0x4000000⟩
def detail : Contents := ⟨0x8000000⟩
def translucent : Contents := ⟨0x10000000⟩
def ladder : Contents := ⟨0x20000000⟩

/-- The flags in either set. -/
def union
    (left right : Contents) : Contents :=
  ⟨left.bits ||| right.bits⟩

/-- The flags in both sets. -/
def inter
    (left right : Contents) : Contents :=
  ⟨left.bits &&& right.bits⟩

/-- The union of a list of sets. -/
def ofList
    (flags : List Contents) : Contents :=
  flags.foldr union empty

/-- Every flag that has a meaning. -/
def all : Contents :=
  ofList [
    solid, window, aux, lava, slime, water, mist, areaPortal,
    playerClip, monsterClip, current0, current90, current180, current270,
    currentUp, currentDown, origin, monster, deadMonster, detail,
    translucent, ladder]

/-- What stops anything solid. -/
def maskSolid : Contents :=
  ofList [solid, window]

/-- What stops a player. -/
def maskPlayerSolid : Contents :=
  ofList [solid, playerClip, window, monster]

/-- What stops a monster. -/
def maskMonsterSolid : Contents :=
  ofList [solid, monsterClip, window, monster]

/-- What counts as a liquid. -/
def maskWater : Contents :=
  ofList [water, lava, slime]

/-- What stops a shot. -/
def maskShot : Contents :=
  ofList [solid, monster, window, deadMonster]

/-- Whether the set has no flag. -/
def isEmpty
    (contents : Contents) : Bool :=
  contents.bits == 0

/-- Whether two sets share a flag. -/
def intersects
    (left right : Contents) : Bool :=
  !(left.inter right).isEmpty

/-- The meaningful flags of a word. -/
def ofBits
    (word : UInt32) : Contents :=
  ⟨word &&& all.bits⟩

/-- The bits of a word that are no meaningful flag. -/
def unknownBits
    (word : UInt32) : UInt32 :=
  word &&& ~~~all.bits

/-- The meaningful flags are these bits of a word. -/
theorem all_bits :
    all.bits = 0x3fff807f := by
  decide

end Contents

end LevelCollision

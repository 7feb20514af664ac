import LevelCollision.Entities.Parser
import LevelCollision.Notice

namespace LevelCollision

/-!
# The world among the entities

The entity of the world is the first one whose class is `worldspawn`. If there is
none, the first entity takes its place, which is noticed.
-/

namespace EntityText

/-- Whether an entity is the world. -/
def isWorldspawn
    (entity : Entity) : Bool :=
  entity.get? "classname" == some "worldspawn"

/-- The entity of the world. -/
def worldspawn
    (entities : List Entity) : Logged (Option Entity) :=
  match entities.find? isWorldspawn with
  | some entity =>
      { value := some entity }
  | none =>
      { value := entities.head?
        notices := [.noWorldspawn] }

/-- What a text leaves unread is worth noticing. -/
def restNotices
    (rest : List Char) : List Notice :=
  if rest.isEmpty then
    []
  else
    [.unparsedEntityText (String.ofList rest).utf8ByteSize]

/-- The value of a name at the world of an entity text. -/
def worldspawnValue
    (text : List Char)
    (name : String) : Logged (Option String) :=
  let parsed := readEntities text
  let world := worldspawn parsed.value
  { value := world.value.bind (·.get? name)
    notices := restNotices parsed.rest ++ world.notices }

end EntityText

end LevelCollision

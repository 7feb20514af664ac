import LevelCollision.Entities.Worldspawn
import LevelCollision.Proofs.EntityGrammar

namespace LevelCollision

/-!
# The world of a text that goes on

What is appended to a text of entities is read as if it stood alone, behind all that the
text says. The search for the world stops at the first entity of its class, so a text that
has one answers for every text that begins with it, however that one ends.
-/

namespace EntityText

/-- A text that is read to its end is read as before, and then what is appended to it. -/
theorem readEntities_append
    {text : List Char}
    {entities : List Entity}
    (whole : readEntities text = { value := entities, rest := [] })
    (suffix : List Char) :
    readEntities (text ++ suffix) =
      { value := entities ++ (readEntities suffix).value
        rest := (readEntities suffix).rest } := by
  obtain ⟨written, isMeaning, begins⟩ := readEntities_eq_iff_begins.mp whole
  have isMeaning : written.meaning = entities := isMeaning
  have isText : text = written.chars :=
    begins.text.trans (List.append_nil _)
  subst isMeaning isText
  unfold readEntities
  rw [WrittenText.chars, List.append_assoc, skipBlanks_gap,
    reads_readEntity.manyOnto_row_append beginsUnblank_entity,
    List.append_nil, ← List.nil_append (List.reverse _), manyOnto_onto,
    List.reverse_reverse]
  rfl

theorem isWorldspawn_iff
    {entity : Entity} :
    isWorldspawn entity = true ↔
      entity.IsLast "classname" "worldspawn" := by
  rw [isWorldspawn, beq_iff_eq, Entity.get?_eq_some_iff]

/-- An entity is the first one of the class of worlds. -/
structure IsWorld
    (entities : List Entity)
    (world : Entity) : Prop where
  tagged :
    world.IsLast "classname" "worldspawn"
  first :
    ∃ before after,
      entities = before ++ world :: after ∧
        ∀ other ∈ before, ¬other.IsLast "classname" "worldspawn"

/-- The search finds the first entity of the class of worlds. -/
theorem find?_isWorldspawn_eq_some_iff
    {entities : List Entity}
    {world : Entity} :
    entities.find? isWorldspawn = some world ↔ IsWorld entities world := by
  rw [List.find?_eq_some_iff_append, isWorldspawn_iff]
  constructor
  · rintro ⟨tagged, before, after, isEntities, untagged⟩
    refine ⟨tagged, before, after, isEntities, ?_⟩
    intro other member isTagged
    have isWorld := isWorldspawn_iff.mpr isTagged
    simpa [isWorld] using untagged other member
  · rintro ⟨tagged, before, after, isEntities, untagged⟩
    refine ⟨tagged, before, after, isEntities, ?_⟩
    intro other member
    rw [Bool.not_eq_true', ← Bool.not_eq_true, isWorldspawn_iff]
    exact untagged other member

/-- Entities behind the world do not take its place. -/
theorem IsWorld.append
    {entities : List Entity}
    {world : Entity}
    (isWorld : IsWorld entities world)
    (others : List Entity) :
    IsWorld (entities ++ others) world := by
  obtain ⟨tagged, before, after, rfl, untagged⟩ := isWorld
  refine ⟨tagged, before, after ++ others, ?_, untagged⟩
  rw [List.append_assoc, List.cons_append]

theorem exists_isWorld
    {entities : List Entity}
    (tagged : ∃ entity ∈ entities, entity.IsLast "classname" "worldspawn") :
    ∃ world, IsWorld entities world := by
  obtain ⟨entity, member, isTagged⟩ := tagged
  have found : (entities.find? isWorldspawn).isSome :=
    List.find?_isSome.mpr ⟨entity, member, isWorldspawn_iff.mpr isTagged⟩
  obtain ⟨world, isFound⟩ := Option.isSome_iff_exists.mp found
  exact ⟨world, find?_isWorldspawn_eq_some_iff.mp isFound⟩

/-- The world of the entities that are read answers, whatever stays unread. -/
theorem value_worldspawnValue
    {text : List Char}
    {world : Entity}
    (isWorld : IsWorld (readEntities text).value world)
    (name : String) :
    (worldspawnValue text name).value = world.get? name := by
  have found := find?_isWorldspawn_eq_some_iff.mpr isWorld
  simp only [worldspawnValue, worldspawn, found, Option.bind_some]

/--
A text that is read to its end and has an entity of the class of worlds answers for all
texts that begin with it. The answer is the last value of the name at the first such
entity, and none if this entity does not give the name.
-/
theorem worldspawnValue_append
    {text : List Char}
    {entities : List Entity}
    (whole : readEntities text = { value := entities, rest := [] })
    (tagged : ∃ entity ∈ entities, entity.IsLast "classname" "worldspawn") :
    ∃ world,
      IsWorld entities world ∧
        ∀ suffix name,
          (worldspawnValue (text ++ suffix) name).value =
              (worldspawnValue text name).value ∧
            (∀ value,
              (worldspawnValue text name).value = some value ↔
                world.IsLast name value) ∧
            ((worldspawnValue text name).value = none ↔
              ∀ given ∈ world.attributes, given.name ≠ name) := by
  obtain ⟨world, isWorld⟩ := exists_isWorld tagged
  refine ⟨world, isWorld, ?_⟩
  intro suffix name
  have inText : IsWorld (readEntities text).value world := by
    rw [whole]
    exact isWorld
  have inLonger : IsWorld (readEntities (text ++ suffix)).value world := by
    rw [readEntities_append whole]
    exact isWorld.append _
  rw [value_worldspawnValue inLonger, value_worldspawnValue inText]
  exact
    ⟨rfl, fun _ => Entity.get?_eq_some_iff, Entity.get?_eq_none_iff⟩

/-- The characters of a string, without the double quotes among them. -/
def unquotedString
    (string : String) : WrittenString where
  inside := string.toList.filter (· ≠ '"')
  unquoted := by simp

/-- Attributes with no blanks between them, in braces and before a line feed. -/
def lineOfAttributes
    (attributes : List (String × String)) : WrittenEntity × Gap :=
  let none : Gap := { chars := [], blank := by simp }
  ({ leading := none
     attributes :=
       attributes.map fun (name, value) =>
         (⟨unquotedString name, none, unquotedString value⟩, none) },
    { chars := ['\n'], blank := by simp [Blank] })

/-- A lamp that was a world before, a world with two messages, and a world with a sky. -/
def lampAndWorlds : WrittenText where
  leading := { chars := [], blank := by simp }
  entities :=
    [lineOfAttributes
        [("classname", "worldspawn"), ("classname", "light"),
          ("message", "dim")],
      lineOfAttributes
        [("message", "first"), ("classname", "worldspawn"),
          ("message", "second")],
      lineOfAttributes
        [("classname", "worldspawn"), ("sky", "unit1_")]]

/-- With a broken tail, the world still has its second message and no sky. -/
theorem worldspawnValue_lampAndWorlds :
    (worldspawnValue (lampAndWorlds.chars ++ ['{', '"']) "message").value =
        some "second" ∧
      (worldspawnValue (lampAndWorlds.chars ++ ['{', '"']) "sky").value =
        none := by
  have tagged :
      ∃ entity ∈ lampAndWorlds.meaning,
        entity.IsLast "classname" "worldspawn" := by
    simp only [← isWorldspawn_iff]
    decide +kernel
  obtain ⟨world, _, answers⟩ :=
    worldspawnValue_append (readEntities_chars lampAndWorlds) tagged
  rw [(answers _ "message").1, (answers _ "sky").1]
  simp only [worldspawnValue, readEntities_chars]
  decide +kernel

end EntityText

end LevelCollision

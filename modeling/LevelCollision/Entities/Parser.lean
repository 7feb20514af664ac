namespace LevelCollision

/-!
# Entity text

The entity text of a level is a list of entities. An entity is a list of attributes
in braces, and an attribute is a name and a value in double quotes. Blanks may
stand between any two of these. Nothing is escaped: a quoted string is whatever
stands between two double quotes.

A parser answers with what it read and the text after it, or, if it fails, with the
text at the place where something else was needed. A list ends where the next of
its members fails.
-/

/-- A name and its value. -/
structure Attribute where
  name : String
  value : String
  deriving DecidableEq, Repr

/-- The attributes of an entity in the order of the text. -/
structure Entity where
  attributes : List Attribute
  deriving DecidableEq, Repr

/-- The value of a name: the last one that was given. -/
def Entity.get?
    (entity : Entity)
    (name : String) : Option String :=
  (entity.attributes.reverse.find? (·.name == name)).map (·.value)

namespace EntityText

/-- What a parser read, and the text after it. -/
structure Parsed (α : Type) where
  value : α
  rest : List Char
  deriving DecidableEq

/-- The characters that may separate the parts of an entity text. -/
def isBlank
    (char : Char) : Bool :=
  char == ' ' || char == '\t' || char == '\r' || char == '\n'

/-- The text after its leading blanks. -/
def skipBlanks
    (text : List Char) : List Char :=
  text.dropWhile isBlank

/-- The text after one character, which is needed. -/
def expect
    (char : Char) :
    List Char → Except (List Char) (List Char)
  | [] =>
      .error []
  | head :: rest =>
      if head = char then .ok rest else .error (head :: rest)

/-- A string in double quotes. -/
def readQuoted
    (text : List Char) : Except (List Char) (Parsed String) := do
  let inside ← expect '"' text
  let rest ← expect '"' (inside.dropWhile (· != '"'))
  return { value := String.ofList (inside.takeWhile (· != '"')), rest := rest }

/-- A name and a value. -/
def readAttribute
    (text : List Char) : Except (List Char) (Parsed Attribute) := do
  let name ← readQuoted text
  let value ← readQuoted (skipBlanks name.rest)
  return { value := ⟨name.value, value.value⟩, rest := value.rest }

/-- Skipping blanks leaves no more text. -/
theorem length_skipBlanks_le
    (text : List Char) :
    (skipBlanks text).length ≤ text.length :=
  (List.dropWhile_suffix _).length_le

/-- A needed character takes one character. -/
theorem length_lt_of_expect
    {char : Char}
    {text rest : List Char}
    (found : expect char text = .ok rest) :
    rest.length < text.length := by
  cases text with
  | nil =>
      cases found
  | cons head tail =>
      simp only [expect] at found
      split at found
      · cases found
        simp
      · cases found

/-- A quoted string takes some text. -/
theorem length_lt_of_readQuoted
    {text : List Char}
    {parsed : Parsed String}
    (found : readQuoted text = .ok parsed) :
    parsed.rest.length < text.length := by
  simp only [readQuoted, bind, Except.bind, pure, Except.pure] at found
  split at found
  · cases found
  · next inside opened =>
    split at found
    · cases found
    · next rest closed =>
      cases found
      have inner := length_lt_of_expect closed
      have outer := length_lt_of_expect opened
      have dropped :=
        (List.dropWhile_suffix
          (l := inside) (fun char : Char => char != '"')).length_le
      simp only at inner ⊢
      omega

/-- An attribute takes some text. -/
theorem length_lt_of_readAttribute
    {text : List Char}
    {parsed : Parsed Attribute}
    (found : readAttribute text = .ok parsed) :
    parsed.rest.length < text.length := by
  simp only [readAttribute, bind, Except.bind, pure, Except.pure] at found
  split at found
  · cases found
  · next name named =>
    split at found
    · cases found
    · next value valued =>
      cases found
      have first := length_lt_of_readQuoted named
      have second := length_lt_of_readQuoted valued
      have skipped := length_skipBlanks_le name.rest
      simp only
      omega

/--
As many members as follow one another, each with the blanks after it, behind those
already read in reverse order.
-/
def manyOnto
    {α : Type}
    (member : List Char → Except (List Char) (Parsed α))
    (shrinks :
      ∀ {text : List Char} {parsed : Parsed α},
        member text = .ok parsed →
        parsed.rest.length < text.length)
    (read : List α)
    (text : List Char) : Parsed (List α) :=
  match _ : member text with
  | .error _ =>
      { value := read.reverse, rest := text }
  | .ok parsed =>
      manyOnto member shrinks (parsed.value :: read) (skipBlanks parsed.rest)
termination_by text.length
decreasing_by
  have shorter := shrinks ‹member text = .ok parsed›
  have skipped := length_skipBlanks_le parsed.rest
  omega

/-- Reading many members leaves no more text. -/
theorem length_manyOnto_le
    {α : Type}
    (member : List Char → Except (List Char) (Parsed α))
    (shrinks :
      ∀ {text : List Char} {parsed : Parsed α},
        member text = .ok parsed →
        parsed.rest.length < text.length)
    (read : List α)
    (text : List Char) :
    (manyOnto member shrinks read text).rest.length ≤ text.length := by
  fun_induction manyOnto member shrinks read text with
  | case1 =>
      simp
  | case2 read text parsed found inductionHypothesis =>
      have shorter := shrinks found
      have skipped := length_skipBlanks_le parsed.rest
      omega

/-- The attributes at the beginning of a text. -/
def readAttributes
    (text : List Char) : Parsed (List Attribute) :=
  manyOnto readAttribute length_lt_of_readAttribute [] text

/-- Attributes in braces. -/
def readEntity
    (text : List Char) : Except (List Char) (Parsed Entity) := do
  let inside ← expect '{' text
  let members := readAttributes (skipBlanks inside)
  let rest ← expect '}' members.rest
  return { value := ⟨members.value⟩, rest := rest }

/-- An entity takes some text. -/
theorem length_lt_of_readEntity
    {text : List Char}
    {parsed : Parsed Entity}
    (found : readEntity text = .ok parsed) :
    parsed.rest.length < text.length := by
  simp only [readEntity, bind, Except.bind, pure, Except.pure] at found
  split at found
  · cases found
  · next inside opened =>
    split at found
    · cases found
    · next rest closed =>
      cases found
      have outer := length_lt_of_expect opened
      have inner := length_lt_of_expect closed
      have members :=
        length_manyOnto_le readAttribute length_lt_of_readAttribute []
          (skipBlanks inside)
      have skipped := length_skipBlanks_le inside
      simp only [readAttributes] at inner ⊢
      omega

/-- The entities at the beginning of a text. What follows them stays unread. -/
def readEntities
    (text : List Char) : Parsed (List Entity) :=
  manyOnto readEntity length_lt_of_readEntity [] (skipBlanks text)

end EntityText

end LevelCollision

import Mathlib.Data.List.TakeWhile
import LevelCollision.Entities.Parser
import LevelCollision.Proofs.Outcomes

namespace LevelCollision

/-!
# The grammar of entity texts

What is written is data: strings that hold no double quote, the blanks between the parts,
attributes, entities and lists of them. Each has its characters and its meaning. Texts
are read by this grammar and by nothing else: a parser of one part accepts exactly the
texts that begin with what can be written there, and a list takes in all its members up to
where no further one is written.
-/

namespace EntityText

/-- A space, a tab, a carriage return or a line feed. -/
def Blank
    (char : Char) : Prop :=
  char = ' ' ∨ char = '\t' ∨ char = '\r' ∨ char = '\n'
  deriving Decidable

theorem isBlank_iff
    {char : Char} :
    isBlank char = true ↔ Blank char := by
  simp only [isBlank, Blank, Bool.or_eq_true, beq_iff_eq, or_assoc]

/-- A text that does not begin with a blank. -/
def Unblank
    (text : List Char) : Prop :=
  ∀ char ∈ text.head?, ¬ Blank char

theorem unblank_nil :
    Unblank [] := by
  rintro char ⟨⟩

theorem unblank_cons
    {char : Char}
    (notBlank : ¬ Blank char)
    (text : List Char) :
    Unblank (char :: text) := by
  rintro other ⟨⟩
  exact notBlank

/-- Blanks between two parts of a text. -/
structure Gap where
  chars : List Char
  blank : ∀ char ∈ chars, Blank char

/-- A string in double quotes, which holds none itself. -/
structure WrittenString where
  inside : List Char
  unquoted : '"' ∉ inside

/-- Two strings, and the blanks between them. -/
structure WrittenAttribute where
  name : WrittenString
  between : Gap
  value : WrittenString

/-- Attributes in braces, and the blanks before and after each of them. -/
structure WrittenEntity where
  leading : Gap
  attributes : List (WrittenAttribute × Gap)

/-- Entities, and the blanks before and after each of them. -/
structure WrittenText where
  leading : Gap
  entities : List (WrittenEntity × Gap)

/-- The characters of members that follow one another, each with the blanks after it. -/
def rowChars
    {Written : Type}
    (chars : Written → List Char)
    (row : List (Written × Gap)) : List Char :=
  row.flatMap fun entry => chars entry.1 ++ entry.2.chars

def WrittenString.chars
    (written : WrittenString) : List Char :=
  '"' :: (written.inside ++ ['"'])

def WrittenString.meaning
    (written : WrittenString) : String :=
  String.ofList written.inside

def WrittenAttribute.chars
    (written : WrittenAttribute) : List Char :=
  written.name.chars ++ written.between.chars ++ written.value.chars

def WrittenAttribute.meaning
    (written : WrittenAttribute) : Attribute where
  name := written.name.meaning
  value := written.value.meaning

def WrittenEntity.chars
    (written : WrittenEntity) : List Char :=
  '{' :: (written.leading.chars ++
    rowChars WrittenAttribute.chars written.attributes ++ ['}'])

def WrittenEntity.meaning
    (written : WrittenEntity) : Entity where
  attributes := written.attributes.map fun entry => entry.1.meaning

def WrittenText.chars
    (written : WrittenText) : List Char :=
  written.leading.chars ++ rowChars WrittenEntity.chars written.entities

def WrittenText.meaning
    (written : WrittenText) : List Entity :=
  written.entities.map fun entry => entry.1.meaning

/-- A gap is skipped, and whatever blanks stand behind it. -/
theorem skipBlanks_gap
    (gap : Gap)
    (text : List Char) :
    skipBlanks (gap.chars ++ text) = skipBlanks text :=
  List.dropWhile_append_of_pos fun char member =>
    isBlank_iff.mpr (gap.blank char member)

theorem skipBlanks_of_unblank
    {text : List Char}
    (unblank : Unblank text) :
    skipBlanks text = text := by
  cases text with
  | nil =>
      rfl
  | cons char text =>
      rw [skipBlanks, List.dropWhile_cons_of_neg]
      rw [isBlank_iff]
      exact unblank char rfl

/-- Skipping blanks takes away a gap, and all blanks that there are. -/
theorem skipBlanks_eq_iff
    {text rest : List Char} :
    skipBlanks text = rest ↔
      ∃ gap : Gap, text = gap.chars ++ rest ∧ Unblank rest := by
  constructor
  · rintro rfl
    refine
      ⟨⟨text.takeWhile isBlank, fun char member =>
          isBlank_iff.mp (List.mem_takeWhile_imp member)⟩,
        List.takeWhile_append_dropWhile.symm, ?_⟩
    intro char isHead
    have isHead : (text.dropWhile isBlank).head? = some char := isHead
    have stops := List.head?_dropWhile_not isBlank text
    rw [isHead] at stops
    rw [← isBlank_iff]
    exact Bool.eq_false_iff.mp stops
  · rintro ⟨gap, rfl, unblank⟩
    rw [skipBlanks_gap, skipBlanks_of_unblank unblank]

theorem expect_eq_ok_iff
    {char : Char}
    {text rest : List Char} :
    expect char text = .ok rest ↔ text = char :: rest := by
  cases text with
  | nil =>
      simp [expect]
  | cons head tail =>
      by_cases same : head = char
      · simp [expect, same]
      · simp [expect, same]

/--
A parser reads what is written and nothing else: it accepts the texts that begin with
something written, and answers with its meaning and the rest.
-/
def Reads
    {Written α : Type}
    (parser : List Char → Except (List Char) (Parsed α))
    (chars : Written → List Char)
    (meaning : Written → α) : Prop :=
  ∀ text parsed,
    parser text = .ok parsed ↔
      ∃ written,
        meaning written = parsed.value ∧
          text = chars written ++ parsed.rest

/-- Quoted strings are read up to the next double quote. -/
theorem reads_readQuoted :
    Reads readQuoted WrittenString.chars WrittenString.meaning := by
  intro text parsed
  unfold readQuoted
  simp only [bind_eq_ok_iff, expect_eq_ok_iff]
  constructor
  · rintro ⟨inside, rfl, rest, closed, isParsed⟩
    cases isParsed
    have unquoted : '"' ∉ inside.takeWhile (· != '"') := by
      intro member
      have differs := List.mem_takeWhile_imp member
      simp at differs
    refine ⟨⟨inside.takeWhile (· != '"'), unquoted⟩, rfl, ?_⟩
    change '"' :: inside = '"' :: (inside.takeWhile _ ++ ['"']) ++ rest
    rw [List.cons_append, List.append_assoc, List.singleton_append, ← closed,
      List.takeWhile_append_dropWhile]
  · rintro ⟨written, isValue, rfl⟩
    have inside :
        ∀ char ∈ written.inside, (char != '"') = true := by
      intro char member
      rw [bne_iff_ne]
      rintro rfl
      exact written.unquoted member
    refine
      ⟨written.inside ++ '"' :: parsed.rest, by simp [WrittenString.chars],
        parsed.rest, ?_, ?_⟩
    · rw [List.dropWhile_append_of_pos inside]
      exact List.dropWhile_cons_of_neg (by decide)
    · rw [List.takeWhile_append_of_pos inside,
        List.takeWhile_cons_of_neg (by decide), List.append_nil]
      change Except.ok (Parsed.mk written.meaning parsed.rest) = .ok parsed
      rw [isValue]

theorem WrittenString.unblank
    (written : WrittenString)
    (rest : List Char) :
    Unblank (written.chars ++ rest) :=
  unblank_cons (by decide) _

/-- Attributes are read, whatever blanks stand between their strings. -/
theorem reads_readAttribute :
    Reads readAttribute WrittenAttribute.chars WrittenAttribute.meaning := by
  intro text parsed
  unfold readAttribute
  simp only [bind_eq_ok_iff, reads_readQuoted _ _]
  constructor
  · rintro ⟨name, ⟨writtenName, isName, rfl⟩, value,
      ⟨writtenValue, isValue, valueText⟩, isParsed⟩
    cases isParsed
    obtain ⟨between, afterName, _⟩ := skipBlanks_eq_iff.mp valueText
    refine ⟨⟨writtenName, between, writtenValue⟩, ?_, ?_⟩
    · rw [WrittenAttribute.meaning, isName, isValue]
    · rw [afterName]
      simp only [WrittenAttribute.chars, List.append_assoc]
  · rintro ⟨written, isAttribute, rfl⟩
    refine
      ⟨⟨written.name.meaning,
          written.between.chars ++ (written.value.chars ++ parsed.rest)⟩,
        ⟨written.name, rfl, ?_⟩, ⟨written.value.meaning, parsed.rest⟩,
        ⟨written.value, rfl, ?_⟩, ?_⟩
    · simp only [WrittenAttribute.chars, List.append_assoc]
    · exact
        skipBlanks_eq_iff.mpr
          ⟨written.between, rfl, written.value.unblank parsed.rest⟩
    · change Except.ok (Parsed.mk written.meaning parsed.rest) = .ok parsed
      rw [isAttribute]

section Rows

variable {Written α : Type}
variable {member : List Char → Except (List Char) (Parsed α)}
variable {chars : Written → List Char} {meaning : Written → α}

variable
  {shrinks :
    ∀ {text : List Char} {parsed : Parsed α},
      member text = .ok parsed →
      parsed.rest.length < text.length}

theorem manyOnto_of_ok
    {text : List Char}
    {parsed : Parsed α}
    (found : member text = .ok parsed)
    (read : List α) :
    manyOnto member shrinks read text =
      manyOnto member shrinks (parsed.value :: read)
        (skipBlanks parsed.rest) := by
  rw [manyOnto]
  split
  · rename_i failed
    rw [found] at failed
    cases failed
  · rename_i other foundOther
    rw [found, Except.ok.injEq] at foundOther
    rw [foundOther]

theorem manyOnto_of_error
    {text place : List Char}
    (failed : member text = .error place)
    (read : List α) :
    manyOnto member shrinks read text =
      { value := read.reverse, rest := text } := by
  rw [manyOnto]
  split
  · rfl
  · rename_i found
    rw [failed] at found
    cases found

/-- What was read before stands before what is read, and changes nothing of it. -/
theorem manyOnto_onto
    (read earlier : List α)
    (text : List Char) :
    manyOnto member shrinks (read ++ earlier) text =
      { value :=
          earlier.reverse ++ (manyOnto member shrinks read text).value
        rest := (manyOnto member shrinks read text).rest } := by
  fun_induction manyOnto member shrinks read text with
  | case1 read text place failed =>
      rw [manyOnto_of_error failed, List.reverse_append]
  | case2 read text parsed found inductionHypothesis =>
      rw [manyOnto_of_ok found]
      exact inductionHypothesis

/-- Members that can be written begin with no blank. -/
def BeginsUnblank
    (chars : Written → List Char) : Prop :=
  ∀ written rest, Unblank (chars written ++ rest)

/-- Nothing that can be written stands at the beginning of a text. -/
def Lacks
    (chars : Written → List Char)
    (text : List Char) : Prop :=
  ∀ written rest, text ≠ chars written ++ rest

theorem Reads.exists_error
    (reads : Reads member chars meaning)
    {text : List Char}
    (lacks : Lacks chars text) :
    ∃ place, member text = .error place := by
  cases outcome : member text with
  | error place =>
      exact ⟨place, rfl⟩
  | ok parsed =>
      obtain ⟨written, _, isText⟩ := (reads text parsed).mp outcome
      exact absurd isText (lacks written parsed.rest)

theorem Reads.lacks_of_error
    (reads : Reads member chars meaning)
    {text place : List Char}
    (failed : member text = .error place) :
    Lacks chars text := by
  rintro written rest rfl
  have found := (reads _ ⟨meaning written, rest⟩).mpr ⟨written, rfl, rfl⟩
  rw [failed] at found
  cases found

/-- A row before a text without blanks begins with no blank. -/
theorem unblank_row
    (begins : BeginsUnblank chars)
    (row : List (Written × Gap))
    {rest : List Char}
    (unblank : Unblank rest) :
    Unblank (rowChars chars row ++ rest) := by
  cases row with
  | nil =>
      exact unblank
  | cons first row =>
      rw [rowChars, List.flatMap_cons, List.append_assoc, List.append_assoc]
      exact begins first.1 _

/-- A row is read, and then what stands behind it, whatever that is. -/
theorem Reads.manyOnto_row_append
    (reads : Reads member chars meaning)
    (begins : BeginsUnblank chars)
    (row : List (Written × Gap))
    (text : List Char)
    (read : List α) :
    manyOnto member shrinks read
        (skipBlanks (rowChars chars row ++ text)) =
      manyOnto member shrinks
        ((row.map fun entry => meaning entry.1).reverse ++ read)
        (skipBlanks text) := by
  induction row generalizing read with
  | nil =>
      rfl
  | cons first row inductionHypothesis =>
      have isText :
          rowChars chars (first :: row) ++ text =
            chars first.1 ++
              (first.2.chars ++ (rowChars chars row ++ text)) := by
        simp only [rowChars, List.flatMap_cons, List.append_assoc]
      have found :=
        (reads _
            { value := meaning first.1
              rest := first.2.chars ++ (rowChars chars row ++ text) }).mpr
          ⟨first.1, rfl, rfl⟩
      rw [isText, skipBlanks_of_unblank (begins first.1 _),
        manyOnto_of_ok found, skipBlanks_gap, inductionHypothesis,
        List.map_cons, List.reverse_cons, List.append_assoc]
      rfl

/-- A row is read as a whole, up to where no further member stands. -/
theorem Reads.manyOnto_row
    (reads : Reads member chars meaning)
    (begins : BeginsUnblank chars)
    (row : List (Written × Gap))
    {rest : List Char}
    (unblank : Unblank rest)
    (lacks : Lacks chars rest)
    (read : List α) :
    manyOnto member shrinks read (rowChars chars row ++ rest) =
      { value := read.reverse ++ row.map fun entry => meaning entry.1
        rest := rest } := by
  obtain ⟨place, failed⟩ := reads.exists_error lacks
  have readsOn :=
    @Reads.manyOnto_row_append Written α member chars meaning shrinks reads
      begins row rest read
  rw [skipBlanks_of_unblank (unblank_row begins row unblank),
    skipBlanks_of_unblank unblank, manyOnto_of_error failed,
    List.reverse_append, List.reverse_reverse] at readsOn
  exact readsOn

/-- What is read is a row, up to where no further member stands. -/
theorem Reads.exists_row
    (reads : Reads member chars meaning)
    (read : List α)
    {text : List Char}
    (unblank : Unblank text) :
    ∃ row,
      (manyOnto member shrinks read text).value =
          read.reverse ++ row.map (fun entry => meaning entry.1) ∧
        text =
          rowChars chars row ++ (manyOnto member shrinks read text).rest ∧
        Unblank (manyOnto member shrinks read text).rest ∧
        Lacks chars (manyOnto member shrinks read text).rest := by
  fun_induction manyOnto member shrinks read text with
  | case1 read text place failed =>
      exact
        ⟨[], (List.append_nil _).symm, rfl, unblank,
          reads.lacks_of_error failed⟩
  | case2 read text parsed found inductionHypothesis =>
      obtain ⟨written, isValue, isText⟩ := (reads text parsed).mp found
      obtain ⟨gap, isRest, unblankRest⟩ :=
        skipBlanks_eq_iff.mp (Eq.refl (skipBlanks parsed.rest))
      obtain ⟨row, values, isRow, ends⟩ := inductionHypothesis unblankRest
      refine ⟨(written, gap) :: row, ?_, ?_, ends⟩
      · rw [values, List.reverse_cons, List.append_assoc, ← isValue]
        rfl
      · rw [rowChars, List.flatMap_cons, List.append_assoc,
          List.append_assoc, ← rowChars, ← isRow, ← isRest]
        exact isText

/-- Of a text that begins with no blank, a row is read up to where no member stands. -/
theorem Reads.manyOnto_eq_iff
    (reads : Reads member chars meaning)
    (begins : BeginsUnblank chars)
    {text : List Char}
    (unblank : Unblank text)
    {parsed : Parsed (List α)} :
    manyOnto member shrinks [] text = parsed ↔
      ∃ row,
        row.map (fun entry => meaning entry.1) = parsed.value ∧
          text = rowChars chars row ++ parsed.rest ∧
          Unblank parsed.rest ∧ Lacks chars parsed.rest := by
  constructor
  · rintro rfl
    obtain ⟨row, values, isRow, ends⟩ :=
      @Reads.exists_row Written α member chars meaning shrinks reads [] text
        unblank
    exact ⟨row, values.symm, isRow, ends⟩
  · rintro ⟨row, values, rfl, unblankRest, lacks⟩
    rw [reads.manyOnto_row begins row unblankRest lacks, values]
    rfl

end Rows

theorem beginsUnblank_attribute :
    BeginsUnblank WrittenAttribute.chars := by
  intro written rest
  rw [WrittenAttribute.chars, List.append_assoc, List.append_assoc]
  exact written.name.unblank _

theorem beginsUnblank_entity :
    BeginsUnblank WrittenEntity.chars :=
  fun _ _ => unblank_cons (by decide) _

/-- No attribute begins with the brace at the end of an entity. -/
theorem lacks_attribute_brace
    (rest : List Char) :
    Lacks WrittenAttribute.chars ('}' :: rest) := by
  intro written after same
  have isQuote : '}' = '"' := (List.cons.inj same).1
  exact absurd isQuote (by decide)

/-- Entities are read with all of their attributes, or not at all. -/
theorem reads_readEntity :
    Reads readEntity WrittenEntity.chars WrittenEntity.meaning := by
  intro text parsed
  unfold readEntity
  simp only [bind_eq_ok_iff, expect_eq_ok_iff]
  constructor
  · rintro ⟨inside, rfl, rest, closed, isParsed⟩
    cases isParsed
    obtain ⟨leading, isInside, unblank⟩ :=
      skipBlanks_eq_iff.mp (Eq.refl (skipBlanks inside))
    obtain ⟨row, values, isRow, _⟩ :=
      (reads_readAttribute.manyOnto_eq_iff beginsUnblank_attribute
        unblank).mp
        (Eq.refl (readAttributes (skipBlanks inside)))
    refine ⟨⟨leading, row⟩, congrArg Entity.mk values, ?_⟩
    rw [isInside, isRow, closed]
    simp only [WrittenEntity.chars, List.cons_append, List.append_assoc,
      List.nil_append]
  · rintro ⟨written, isEntity, rfl⟩
    have closing : Unblank ('}' :: parsed.rest) :=
      unblank_cons (by decide) _
    have skips :
        skipBlanks
            (written.leading.chars ++
              (rowChars WrittenAttribute.chars written.attributes ++
                '}' :: parsed.rest)) =
          rowChars WrittenAttribute.chars written.attributes ++
            '}' :: parsed.rest :=
      skipBlanks_eq_iff.mpr
        ⟨written.leading, rfl,
          unblank_row beginsUnblank_attribute written.attributes closing⟩
    have attributes :
        readAttributes
            (rowChars WrittenAttribute.chars written.attributes ++
              '}' :: parsed.rest) =
          { value := written.meaning.attributes
            rest := '}' :: parsed.rest } :=
      reads_readAttribute.manyOnto_row beginsUnblank_attribute
        written.attributes closing (lacks_attribute_brace parsed.rest) []
    refine
      ⟨written.leading.chars ++
          (rowChars WrittenAttribute.chars written.attributes ++
            '}' :: parsed.rest), ?_, parsed.rest, ?_, ?_⟩
    · simp only [WrittenEntity.chars, List.cons_append, List.append_assoc,
        List.nil_append]
    · rw [skips, attributes]
    · rw [skips, attributes]
      change Except.ok (Parsed.mk written.meaning parsed.rest) = .ok parsed
      rw [isEntity]

/--
A text is what was written, and then a rest that begins neither with a blank nor with an
entity.
-/
structure WrittenText.Begins
    (written : WrittenText)
    (text rest : List Char) : Prop where
  text :
    text = written.chars ++ rest
  unblank :
    Unblank rest
  lacks :
    Lacks WrittenEntity.chars rest

/-- Entities are read from a text exactly as they are written at its beginning. -/
theorem readEntities_eq_iff_begins
    {text : List Char}
    {parsed : Parsed (List Entity)} :
    readEntities text = parsed ↔
      ∃ written : WrittenText,
        written.meaning = parsed.value ∧ written.Begins text parsed.rest := by
  unfold readEntities
  obtain ⟨leading, isText, unblank⟩ :=
    skipBlanks_eq_iff.mp (Eq.refl (skipBlanks text))
  rw [reads_readEntity.manyOnto_eq_iff beginsUnblank_entity unblank]
  constructor
  · rintro ⟨row, values, isRow, unblankRest, lacks⟩
    refine ⟨⟨leading, row⟩, values, ?_, unblankRest, lacks⟩
    rw [isText, isRow, WrittenText.chars, List.append_assoc]
  · rintro ⟨written, values, begins⟩
    refine
      ⟨written.entities, values, ?_, begins.unblank, begins.lacks⟩
    have isWritten := begins.text
    rw [WrittenText.chars, List.append_assoc] at isWritten
    exact
      skipBlanks_eq_iff.mpr
        ⟨written.leading, isWritten,
          unblank_row beginsUnblank_entity written.entities begins.unblank⟩

end EntityText

namespace Entity

variable {entity : Entity} {name value : String}

/-- Of the attributes with a name, the last one has this value. -/
def IsLast
    (entity : Entity)
    (name value : String) : Prop :=
  ∃ earlier later,
    entity.attributes = earlier ++ ⟨name, value⟩ :: later ∧
      ∀ other ∈ later, other.name ≠ name

theorem get?_eq_some_iff :
    entity.get? name = some value ↔ entity.IsLast name value := by
  rw [get?, Option.map_eq_some_iff]
  constructor
  · rintro ⟨⟨givenName, givenValue⟩, found, rfl⟩
    obtain ⟨isName, later, earlier, reversed, others⟩ :=
      List.find?_eq_some_iff_append.mp found
    have isName : givenName = name := eq_of_beq isName
    subst isName
    refine ⟨earlier.reverse, later.reverse, ?_, ?_⟩
    · rw [← List.reverse_inj, reversed]
      simp
    · intro other member
      simpa using others other (List.mem_reverse.mp member)
  · rintro ⟨earlier, later, attributes, others⟩
    refine ⟨⟨name, value⟩, ?_, rfl⟩
    refine
      List.find?_eq_some_iff_append.mpr
        ⟨beq_self_eq_true name, later.reverse, earlier.reverse, ?_, ?_⟩
    · rw [attributes]
      simp
    · intro other member
      simpa using others other (List.mem_reverse.mp member)

theorem get?_eq_none_iff :
    entity.get? name = none ↔
      ∀ given ∈ entity.attributes, given.name ≠ name := by
  simp [get?]

end Entity

namespace EntityText

/-- What was written is read back, and nothing of it stays unread. -/
theorem readEntities_chars
    (written : WrittenText) :
    readEntities written.chars = { value := written.meaning, rest := [] } := by
  refine readEntities_eq_iff_begins.mpr ⟨written, rfl, ?_⟩
  exact
    { text := (List.append_nil _).symm
      unblank := unblank_nil
      lacks := by
        rintro entity rest ⟨⟩ }

/--
The grammar is all that is read. The answer to a text is what was written at its beginning
and a rest in which neither a blank nor an entity comes first; whatever can be written is
read back without a rest; and an entity gives each name the last of its values.
-/
theorem readEntities_accepts_grammar :
    (∀ text (parsed : Parsed (List Entity)),
      readEntities text = parsed ↔
        ∃ written : WrittenText,
          written.meaning = parsed.value ∧
            written.Begins text parsed.rest) ∧
      (∀ written : WrittenText,
        readEntities written.chars =
          { value := written.meaning, rest := [] }) ∧
      ∀ (entity : Entity) (name : String),
        (∀ value,
          entity.get? name = some value ↔ entity.IsLast name value) ∧
          (entity.get? name = none ↔
            ∀ given ∈ entity.attributes, given.name ≠ name) :=
  ⟨fun _ _ => readEntities_eq_iff_begins, readEntities_chars,
    fun _ _ => ⟨fun _ => Entity.get?_eq_some_iff, Entity.get?_eq_none_iff⟩⟩

end EntityText

end LevelCollision

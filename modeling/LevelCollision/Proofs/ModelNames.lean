import Mathlib.Data.Nat.Digits.Defs
import Mathlib.Tactic.Ring
import LevelCollision.Proofs.OfferedHeads
import LevelCollision.Proofs.TouchedLeaves

namespace LevelCollision

/-!
# Names of models

A name is an asterisk before the numeral of the model's position. Numerals are data here: a
sign or none, and digits, whose number is the sum of what each of them stands for at its
place. A reader that makes the number in a word refuses a numeral exactly when its number
does not fit there, since no number on the way is greater than the last one. A level has far
fewer models than a word has numbers, so that no name of a model is lost.
-/

namespace Decimal

/-- A digit as it is written. -/
def digitChar
    (digit : Fin 10) : Char :=
  Char.ofNat ('0'.toNat + digit)

/-- What a row of digits stands for; the last digit counts ones. -/
def placeValue
    (digits : List (Fin 10)) : Nat :=
  Nat.ofDigits 10 (digits.map Fin.val).reverse

/-- A number with a row of digits behind it. -/
def extended
    (start : Nat)
    (digits : List (Fin 10)) : Nat :=
  start * 10 ^ digits.length + placeValue digits

/-- A number as it can be written, in as many digits as one likes. -/
structure Numeral where
  /-- Whether a plus sign stands before the digits. -/
  signed : Bool
  digits : List (Fin 10)
  nonempty : digits ≠ []

def Numeral.chars
    (numeral : Numeral) : List Char :=
  (if numeral.signed then ['+'] else []) ++ numeral.digits.map digitChar

def Numeral.value
    (numeral : Numeral) : Nat :=
  placeValue numeral.digits

theorem toNat_digitChar
    (digit : Fin 10) :
    (digitChar digit).toNat - '0'.toNat = digit := by
  decide +revert

theorem digitChar_ne_plus
    (digit : Fin 10) :
    digitChar digit ≠ '+' := by
  decide +revert

theorem isDigit_iff
    {char : Char} :
    char.isDigit = true ↔ ∃ digit, char = digitChar digit := by
  constructor
  · intro isDigit
    simp only [Char.isDigit, Bool.and_eq_true, decide_eq_true_eq,
      UInt32.le_iff_toNat_le] at isDigit
    have bounds : '0'.toNat ≤ char.toNat ∧ char.toNat ≤ '9'.toNat := isDigit
    refine ⟨⟨char.toNat - '0'.toNat, ?_⟩, ?_⟩
    · have last : '9'.toNat = '0'.toNat + 9 := rfl
      omega
    · rw [digitChar, Nat.add_sub_cancel' bounds.1, Char.ofNat_toNat]
  · rintro ⟨digit, rfl⟩
    decide +revert

theorem extended_nil
    (start : Nat) :
    extended start [] = start :=
  Nat.mul_one start

/-- The first digit of a row belongs as well to the number before the row. -/
theorem extended_cons
    (start : Nat)
    (digit : Fin 10)
    (digits : List (Fin 10)) :
    extended start (digit :: digits) = extended (start * 10 + digit) digits := by
  have shifted :
      placeValue (digit :: digits) =
        placeValue digits + 10 ^ digits.length * digit := by
    rw [placeValue, List.map_cons, Nat.ofDigits_reverse_cons, List.length_map]
    rfl
  rw [extended, extended, shifted, List.length_cons, Nat.pow_succ]
  ring

/-- Digits behind a number make it no less. -/
theorem le_extended
    (start : Nat)
    (digits : List (Fin 10)) :
    start ≤ extended start digits :=
  calc
    start
    _ ≤ start * 10 ^ digits.length :=
      Nat.le_mul_of_pos_right start (Nat.pow_pos (by decide))
    _ ≤ extended start digits := Nat.le_add_right _ _

/-- A digit is pushed if it is one, and if the longer number fits into the word. -/
theorem push?_eq_some_iff
    {number longer : Nat}
    {char : Char} :
    push? number char = some longer ↔
      ∃ digit : Fin 10,
        char = digitChar digit ∧
          longer = number * 10 + digit ∧ longer < UInt64.size := by
  unfold push?
  dsimp only
  constructor
  · intro pushed
    split at pushed
    · rename_i allowed
      obtain ⟨digit, rfl⟩ := isDigit_iff.mp allowed.1
      cases pushed
      refine ⟨digit, rfl, ?_, allowed.2⟩
      rw [toNat_digitChar]
    · cases pushed
  · rintro ⟨digit, rfl, rfl, room⟩
    rw [toNat_digitChar, if_pos ⟨isDigit_iff.mpr ⟨digit, rfl⟩, room⟩]

/--
Characters are pushed onto a number if all are digits and what they make of it fits into the
word. Only the last number is asked about: none on the way is greater.
-/
theorem foldlM_push?_eq_some_iff
    {text : List Char}
    {start total : Nat}
    (fits : start < UInt64.size) :
    text.foldlM push? start = some total ↔
      ∃ digits : List (Fin 10),
        text = digits.map digitChar ∧
          total = extended start digits ∧ total < UInt64.size := by
  induction text generalizing start with
  | nil =>
      constructor
      · intro same
        cases same
        exact ⟨[], rfl, (extended_nil _).symm, fits⟩
      · rintro ⟨digits, isText, rfl, _⟩
        cases List.map_eq_nil_iff.mp isText.symm
        rw [extended_nil]
        rfl
  | cons char rest inductionHypothesis =>
      rw [List.foldlM_cons, Option.bind_eq_bind, Option.bind_eq_some_iff]
      constructor
      · rintro ⟨longer, pushed, others⟩
        obtain ⟨digit, rfl, rfl, room⟩ := push?_eq_some_iff.mp pushed
        obtain ⟨digits, rfl, isTotal, totalFits⟩ :=
          (inductionHypothesis room).mp others
        refine ⟨digit :: digits, rfl, ?_, totalFits⟩
        rw [extended_cons, isTotal]
      · rintro ⟨digits, isText, isTotal, totalFits⟩
        cases digits with
        | nil =>
            cases isText
        | cons digit digits =>
            obtain ⟨rfl, rfl⟩ := List.cons.inj isText
            rw [extended_cons] at isTotal
            have room : start * 10 + digit < UInt64.size := by
              rw [isTotal] at totalFits
              exact Nat.lt_of_le_of_lt (le_extended _ digits) totalFits
            exact
              ⟨_, push?_eq_some_iff.mpr ⟨digit, rfl, rfl, room⟩,
                (inductionHypothesis room).mpr
                  ⟨digits, rfl, isTotal, totalFits⟩⟩

/-- The texts that are read as digits are rows of them whose numbers fit into a word. -/
theorem digits?_eq_some_iff
    {text : List Char}
    {number : Nat} :
    digits? text = some number ↔
      ∃ digits : List (Fin 10),
        digits ≠ [] ∧
          text = digits.map digitChar ∧
          number = placeValue digits ∧ number < UInt64.size := by
  have room : 0 < UInt64.size := by
    decide
  have fromZero := @foldlM_push?_eq_some_iff text 0 number room
  simp only [extended, Nat.zero_mul, Nat.zero_add] at fromZero
  unfold digits?
  split
  · rename_i isEmpty
    constructor
    · intro found
      cases found
    · rintro ⟨digits, nonempty, isText, _⟩
      exact absurd (List.map_eq_nil_iff.mp (isText.symm.trans isEmpty)) nonempty
  · rename_i nonempty
    rw [fromZero]
    refine exists_congr fun digits => ⟨fun isNumber => ⟨?_, isNumber⟩, And.right⟩
    rintro rfl
    exact nonempty isNumber.1

/-- The texts that have a number are the numerals whose numbers fit into a word. -/
theorem unsigned?_eq_some_iff
    {text : List Char}
    {number : Nat} :
    unsigned? text = some number ↔
      ∃ numeral : Numeral,
        text = numeral.chars ∧
          number = numeral.value ∧ number < UInt64.size := by
  unfold unsigned?
  split
  · rename_i rest
    rw [digits?_eq_some_iff]
    constructor
    · rintro ⟨digits, nonempty, rfl, isNumber⟩
      exact ⟨⟨true, digits, nonempty⟩, rfl, isNumber⟩
    · rintro ⟨⟨signed, digits, nonempty⟩, isText, isNumber⟩
      cases signed with
      | true =>
          exact ⟨digits, nonempty, (List.cons.inj isText).2, isNumber⟩
      | false =>
          obtain ⟨digit, others, rfl⟩ := List.exists_cons_of_ne_nil nonempty
          exact absurd (List.cons.inj isText).1.symm (digitChar_ne_plus digit)
  · rename_i unsigned
    rw [digits?_eq_some_iff]
    constructor
    · rintro ⟨digits, nonempty, rfl, isNumber⟩
      exact ⟨⟨false, digits, nonempty⟩, rfl, isNumber⟩
    · rintro ⟨⟨signed, digits, nonempty⟩, isText, isNumber⟩
      cases signed with
      | true =>
          exact absurd isText (unsigned _)
      | false =>
          exact ⟨digits, nonempty, isText, isNumber⟩

end Decimal

namespace Level

section Names

variable {S : Type} [Scalar S] {level : Level S} {name : String}

/-- An asterisk and a numeral of the position of a model, which is not the world. -/
structure Names
    (level : Level S)
    (name : String)
    (position : Nat) : Prop where
  written :
    ∃ numeral : Decimal.Numeral,
      name.toList = '*' :: numeral.chars ∧ position = numeral.value
  notWorld :
    1 ≤ position
  inModels :
    position < level.own.models.size

/-- A name with no model is told back as a whole. -/
theorem inlineModel_eq_error_iff
    {error : LevelError} :
    level.inlineModel name = .error error ↔
      error = .badModelName name ∧
        ∀ model, level.inlineModel name ≠ .ok model := by
  unfold inlineModel
  dsimp only
  split
  · rename_i model _
    constructor
    · intro failed
      cases failed
    · rintro ⟨_, noModel⟩
      exact absurd rfl (noModel model)
  · constructor
    · intro failed
      cases failed
      refine ⟨rfl, ?_⟩
      rintro model ⟨⟩
    · rintro ⟨rfl, _⟩
      rfl

/-- If a word can count the models, each of them has all the names of its position. -/
theorem inlineModel_eq_ok_iff_names
    {model : Model S}
    (fewModels : level.own.models.size ≤ UInt64.size) :
    level.inlineModel name = .ok model ↔
      ∃ position,
        level.Names name position ∧
          level.own.models[position]? = some model := by
  rw [inlineModel_eq_ok_iff]
  constructor
  · rintro ⟨text, number, isName, isNumber, notWorld, found⟩
    obtain ⟨numeral, rfl, isValue, _⟩ :=
      Decimal.unsigned?_eq_some_iff.mp isNumber
    obtain ⟨inModels, _⟩ := Array.getElem?_eq_some_iff.mp found
    exact
      ⟨number,
        { written := ⟨numeral, isName, isValue⟩
          notWorld := Nat.one_le_iff_ne_zero.mpr notWorld
          inModels },
        found⟩
  · rintro ⟨position, names, found⟩
    obtain ⟨numeral, isName, isValue⟩ := names.written
    have fits : position < UInt64.size :=
      Nat.lt_of_lt_of_le names.inModels fewModels
    exact
      ⟨numeral.chars, position, isName,
        Decimal.unsigned?_eq_some_iff.mpr ⟨numeral, rfl, isValue, fits⟩,
        Nat.one_le_iff_ne_zero.mp names.notWorld, found⟩

end Names

/-- A level without a map has one model, and the lump of models has a limit. -/
theorem models_size_le_limit_of_origin
    {level : Level Float32}
    (origin : level = .empty ∨ ∃ bytes, (read bytes).outcome = .ok level) :
    level.own.models.size ≤ RecordKind.limit .model := by
  rcases origin with rfl | ⟨bytes, accepted⟩
  · exact Nat.le_of_ble_eq_true rfl
  · have limited := count_le_limit_of_read accepted .model
    rw [level.full_eq] at limited
    exact limited

/--
The names of a model are the asterisk with any numeral of its position, be there a plus sign
before it and as many zeros as one likes; the world has none. Every other string is refused
and told back, a numeral that no word can hold among them.
-/
theorem inlineModel_iff_names
    {level : Level Float32}
    (origin : level = .empty ∨ ∃ bytes, (read bytes).outcome = .ok level)
    (name : String) :
    (∀ model,
      level.inlineModel name = .ok model ↔
        ∃ position,
          level.Names name position ∧
            level.own.models[position]? = some model) ∧
      ∀ error,
        level.inlineModel name = .error error ↔
          error = .badModelName name ∧
            ∀ position, ¬level.Names name position := by
  have fewModels : level.own.models.size ≤ UInt64.size :=
    (models_size_le_limit_of_origin origin).trans (by decide)
  refine ⟨fun model => inlineModel_eq_ok_iff_names fewModels, fun error => ?_⟩
  rw [inlineModel_eq_error_iff]
  refine and_congr_right fun _ => ⟨fun noModel position names => ?_, ?_⟩
  · have found := Array.getElem?_eq_getElem names.inModels
    exact
      noModel _ ((inlineModel_eq_ok_iff_names fewModels).mpr ⟨_, names, found⟩)
  · intro noName model found
    obtain ⟨position, names, _⟩ :=
      (inlineModel_eq_ok_iff_names fewModels).mp found
    exact noName position names

end Level

/-- The two rooms with two doors that slide, the second of them into the wall. -/
def Stored.Level.slidingDoors : Stored.Level :=
  { doorway with
    models :=
      [{ mins := ⟨0, 0, 0⟩, maxs := ⟨0, 0, 0⟩, origin := ⟨0, 0, 0⟩,
          head := 0 },
        { mins := ⟨0, 0, 0⟩, maxs := ⟨0, 0, 0⟩, origin := ⟨0, 0, 0⟩,
          head := -2 },
        { mins := ⟨0, 0, 0⟩, maxs := ⟨0, 0, 0⟩, origin := ⟨0, 0, 0⟩,
          head := -1 }] }

namespace Level

/--
The last door has a name with a sign and zeros. A numeral that is greater than its position
by as much as a word can count is no name.
-/
theorem inlineModel_slidingDoors :
    ∃ level model,
      (read Stored.Level.slidingDoors.packed).outcome = .ok level ∧
        level.own.models[2]? = some model ∧
        model.head = .leaf 0 ∧
        level.inlineModel "*+002" = .ok model ∧
        ∀ position, ¬level.Names "*18446744073709551618" position := by
  have run :
      ((read Stored.Level.slidingDoors.packed).outcome.toOption.bind
        fun level => level.own.models[2]?.map
          fun model =>
            (model.head, level.inlineModel "*18446744073709551618")) =
        some (.leaf 0, .error (.badModelName "*18446744073709551618")) := by
    decide +kernel
  simp only [Option.bind_eq_some_iff, Option.map_eq_some_iff,
    toOption_eq_some_iff, Prod.mk.injEq] at run
  obtain ⟨level, accepted, model, found, isHead, refused⟩ := run
  have inModels := (Array.getElem?_eq_some_iff.mp found).1
  have names : level.Names "*+002" 2 :=
    { written := ⟨⟨true, [0, 0, 2], by decide⟩, by decide +kernel, by decide +kernel⟩
      notWorld := by decide
      inModels }
  have ofSigned := (inlineModel_iff_names (.inr ⟨_, accepted⟩) "*+002").1
  have ofLong :=
    (inlineModel_iff_names (.inr ⟨_, accepted⟩) "*18446744073709551618").2
  exact
    ⟨level, model, accepted, found, isHead,
      (ofSigned model).mpr ⟨2, names, found⟩, ((ofLong _).mp refused).2⟩

end Level

end LevelCollision

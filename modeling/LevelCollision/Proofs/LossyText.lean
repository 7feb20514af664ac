import LevelCollision.Text.Lossy

namespace LevelCollision

/-!
# Bytes as text

Text is stored in UTF-8, as the bytes of its characters one behind the other. Bytes
that store no text have a reading all the same: where no character is stored, the
longest run of bytes that begins one, or a single byte if none does, is read as one
replacement character.

`Reads` relates bytes to their reading by how characters are written. It does not
mention how they are read. Every list of bytes has one reading, and `decode` finds
it.
-/

namespace Lossy

/-- Some character is written with bytes that begin with these. -/
def Begins
    (bytes : List UInt8) : Prop :=
  ∃ character : Char, bytes <+: String.utf8EncodeChar character

/--
No character is written where the part begins, and the part is all that can be read
there: the longest run of bytes that begins a character, or a single byte if none
does.
-/
structure Broken
    (part rest : List UInt8) : Prop where
  unreadable :
    ∀ character : Char, ¬ String.utf8EncodeChar character <+: part ++ rest
  notEmpty :
    part ≠ []
  single_or_begins :
    part.length = 1 ∨ Begins part
  longest :
    ∀ other, Begins other → other <+: part ++ rest → other.length ≤ part.length

/-- The bytes are read as the text. -/
inductive Reads : List UInt8 → List Char → Prop where
  | nil :
      Reads [] []
  | character
      {character : Char}
      {rest : List UInt8}
      {text : List Char} :
      Reads rest text →
      Reads (String.utf8EncodeChar character ++ rest) (character :: text)
  | broken
      {part rest : List UInt8}
      {text : List Char} :
      Broken part rest →
      Reads rest text →
      Reads (part ++ rest) ('\uFFFD' :: text)

/-!
The bytes of one character: how many there are depends on the first, and the second
is in a narrower range behind some of them.
-/

section Characters

/-- The bytes that write a character. -/
inductive Writes : List UInt8 → Prop where
  | one
      {first : UInt8} :
      first < 0x80 →
      Writes [first]
  | two
      {first second : UInt8} :
      0xc2 ≤ first →
      first ≤ 0xdf →
      isContinuation second = true →
      Writes [first, second]
  | three
      {first second third : UInt8} :
      0xe0 ≤ first →
      first ≤ 0xef →
      secondOfThree first second = true →
      isContinuation third = true →
      Writes [first, second, third]
  | four
      {first second third fourth : UInt8} :
      0xf0 ≤ first →
      first ≤ 0xf4 →
      secondOfFour first second = true →
      isContinuation third = true →
      isContinuation fourth = true →
      Writes [first, second, third, fourth]

theorem isContinuation_iff
    {byte : UInt8} :
    isContinuation byte = true ↔
      0x80 ≤ byte.toNat ∧ byte.toNat ≤ 0xbf := by
  simp [isContinuation, UInt8.le_iff_toNat_le]

/-- Behind one first byte the second one is higher, and behind another one it is lower. -/
theorem narrowed_iff
    {low high least most first second : UInt8}
    (different : low.toNat ≠ high.toNat)
    (continues : 0x80 ≤ least.toNat)
    (continuesToo : most.toNat ≤ 0xbf) :
    (if first == low then
        decide (least ≤ second) && decide (second ≤ 0xbf)
      else if first == high then
        decide (0x80 ≤ second) && decide (second ≤ most)
      else
        isContinuation second) = true ↔
      0x80 ≤ second.toNat ∧ second.toNat ≤ 0xbf ∧
        (first.toNat = low.toNat → least.toNat ≤ second.toNat) ∧
        (first.toNat = high.toNat → second.toNat ≤ most.toNat) := by
  simp only [beq_iff_eq, ← UInt8.toNat_inj]
  split
  · simp [UInt8.le_iff_toNat_le]
    omega
  split
  · simp [UInt8.le_iff_toNat_le]
    omega
  · rw [isContinuation_iff]
    omega

/-- No number is written with three bytes that needs only two, and no surrogate. -/
theorem secondOfThree_iff
    {first second : UInt8} :
    secondOfThree first second = true ↔
      0x80 ≤ second.toNat ∧ second.toNat ≤ 0xbf ∧
        (first.toNat = 0xe0 → 0xa0 ≤ second.toNat) ∧
        (first.toNat = 0xed → second.toNat ≤ 0x9f) :=
  narrowed_iff (by decide) (by decide) (by decide)

/-- No number is written with four bytes that needs only three, or is too large. -/
theorem secondOfFour_iff
    {first second : UInt8} :
    secondOfFour first second = true ↔
      0x80 ≤ second.toNat ∧ second.toNat ≤ 0xbf ∧
        (first.toNat = 0xf0 → 0x90 ≤ second.toNat) ∧
        (first.toNat = 0xf4 → second.toNat ≤ 0x8f) :=
  narrowed_iff (by decide) (by decide) (by decide)

/-- Every character is written so. -/
theorem writes_utf8EncodeChar
    (character : Char) :
    Writes (String.utf8EncodeChar character) := by
  have valid :
      character.val.toNat < 0xd800 ∨
        0xdfff < character.val.toNat ∧ character.val.toNat < 0x110000 :=
    character.valid
  unfold String.utf8EncodeChar
  generalize character.val.toNat = number at valid
  dsimp only
  split
  · refine .one ?_
    simp [UInt8.lt_iff_toNat_lt]
    omega
  split
  · refine .two ?_ ?_ ?_ <;>
      simp [UInt8.le_iff_toNat_le, isContinuation_iff] <;>
      omega
  split
  · refine .three ?_ ?_ ?_ ?_ <;>
      simp [UInt8.le_iff_toNat_le, isContinuation_iff, secondOfThree_iff] <;>
      omega
  · refine .four ?_ ?_ ?_ ?_ ?_ <;>
      simp [UInt8.le_iff_toNat_le, isContinuation_iff, secondOfFour_iff] <;>
      omega

theorem val_ofNat
    {number : Nat}
    (valid : number.isValidChar) :
    (Char.ofNat number).val.toNat = number := by
  rw [Char.ofNat, dif_pos valid]
  rfl

theorem utf8EncodeChar_one
    {first : UInt8}
    (low : first < 0x80) :
    String.utf8EncodeChar (Char.ofNat first.toNat) = [first] := by
  simp only [UInt8.lt_iff_toNat_lt, UInt8.reduceToNat] at low
  have valid : first.toNat.isValidChar := by
    unfold Nat.isValidChar
    omega
  rw [String.utf8EncodeChar, val_ofNat valid, if_pos (by omega),
    UInt8.ofNat_toNat]

theorem utf8EncodeChar_two
    {first second : UInt8}
    (least : 0xc2 ≤ first)
    (most : first ≤ 0xdf)
    (continues : isContinuation second = true) :
    String.utf8EncodeChar
        (Char.ofNat (first.toNat % 32 * 64 + payload second)) =
      [first, second] := by
  simp only [UInt8.le_iff_toNat_le, UInt8.reduceToNat] at least most
  rw [isContinuation_iff] at continues
  unfold payload
  have valid :
      (first.toNat % 32 * 64 + second.toNat % 64).isValidChar := by
    unfold Nat.isValidChar
    omega
  rw [String.utf8EncodeChar, val_ofNat valid, if_neg (by omega),
    if_pos (by omega)]
  simp only [← UInt8.toNat_inj, List.cons.injEq, UInt8.toNat_ofNat', and_true]
  omega

theorem utf8EncodeChar_three
    {first second third : UInt8}
    (least : 0xe0 ≤ first)
    (most : first ≤ 0xef)
    (follows : secondOfThree first second = true)
    (continues : isContinuation third = true) :
    String.utf8EncodeChar
        (Char.ofNat
          ((first.toNat % 16 * 64 + payload second) * 64 + payload third)) =
      [first, second, third] := by
  simp only [UInt8.le_iff_toNat_le, UInt8.reduceToNat] at least most
  rw [secondOfThree_iff] at follows
  rw [isContinuation_iff] at continues
  unfold payload
  have valid :
      ((first.toNat % 16 * 64 + second.toNat % 64) * 64 +
        third.toNat % 64).isValidChar := by
    unfold Nat.isValidChar
    omega
  rw [String.utf8EncodeChar, val_ofNat valid, if_neg (by omega),
    if_neg (by omega), if_pos (by omega)]
  simp only [← UInt8.toNat_inj, List.cons.injEq, UInt8.toNat_ofNat', and_true]
  omega

theorem utf8EncodeChar_four
    {first second third fourth : UInt8}
    (least : 0xf0 ≤ first)
    (most : first ≤ 0xf4)
    (follows : secondOfFour first second = true)
    (continues : isContinuation third = true)
    (ends : isContinuation fourth = true) :
    String.utf8EncodeChar
        (Char.ofNat
          (((first.toNat % 8 * 64 + payload second) * 64 + payload third) * 64 +
            payload fourth)) =
      [first, second, third, fourth] := by
  simp only [UInt8.le_iff_toNat_le, UInt8.reduceToNat] at least most
  rw [secondOfFour_iff] at follows
  rw [isContinuation_iff] at continues ends
  unfold payload
  have valid :
      (((first.toNat % 8 * 64 + second.toNat % 64) * 64 +
          third.toNat % 64) * 64 + fourth.toNat % 64).isValidChar := by
    unfold Nat.isValidChar
    omega
  rw [String.utf8EncodeChar, val_ofNat valid, if_neg (by omega),
    if_neg (by omega), if_neg (by omega)]
  simp only [← UInt8.toNat_inj, List.cons.injEq, UInt8.toNat_ofNat', and_true]
  omega

theorem Writes.exists_character
    {bytes : List UInt8}
    (writes : Writes bytes) :
    ∃ character : Char, String.utf8EncodeChar character = bytes := by
  cases writes with
  | one low =>
      exact ⟨_, utf8EncodeChar_one low⟩
  | two least most continues =>
      exact ⟨_, utf8EncodeChar_two least most continues⟩
  | three least most follows continues =>
      exact ⟨_, utf8EncodeChar_three least most follows continues⟩
  | four least most follows continues ends =>
      exact ⟨_, utf8EncodeChar_four least most follows continues ends⟩

/-- Bytes begin a character when more of them write one. -/
theorem begins_iff
    {bytes : List UInt8} :
    Begins bytes ↔ ∃ more, Writes (bytes ++ more) := by
  constructor
  · rintro ⟨character, more, written⟩
    refine ⟨more, ?_⟩
    rw [written]
    exact writes_utf8EncodeChar character
  · rintro ⟨more, writes⟩
    obtain ⟨character, written⟩ := writes.exists_character
    exact ⟨character, more, written.symm⟩

/-- Different characters are not written at the front of the same bytes. -/
theorem eq_of_prefix
    {character other : Char}
    {bytes : List UInt8}
    (written : String.utf8EncodeChar character <+: bytes)
    (otherWritten : String.utf8EncodeChar other <+: bytes) :
    character = other := by
  obtain ⟨rest, rfl⟩ := otherWritten
  obtain ⟨more, same⟩ := written
  have decoded :=
    congrArg (fun whole => (List.toByteArray whole).utf8DecodeChar? 0) same
  simpa only [List.toByteArray_append,
    ByteArray.utf8DecodeChar?_utf8EncodeChar_append, Option.some.injEq]
    using decoded

end Characters

section Parts

variable {first : UInt8} {more rest : List UInt8}

/-- Where no character goes on with the next byte, no longer run of bytes begins one. -/
theorem length_le_of_stuck
    (stuck :
      ∀ next ∈ rest.head?, ∀ further,
        ¬ Writes (first :: more ++ next :: further))
    {other : List UInt8}
    (begins : Begins other)
    (inBytes : other <+: first :: more ++ rest) :
    other.length ≤ (first :: more).length := by
  refine Nat.le_of_not_lt fun longer => ?_
  cases rest with
  | nil =>
      rw [List.append_nil] at inBytes
      exact Nat.not_le_of_lt longer inBytes.length_le
  | cons next further =>
      -- A longer run would have the next byte in it, and so would its character.
      obtain ⟨after, writes⟩ := begins_iff.mp begins
      have inOther : first :: more ++ [next] <+: other := by
        refine List.prefix_of_prefix_length_le ⟨further, ?_⟩ inBytes ?_
        · simp
        · rw [List.length_append]
          exact longer
      obtain ⟨between, rfl⟩ := inOther
      refine stuck next rfl (between ++ after) ?_
      simpa using writes

/--
Bytes are a broken part if they write no character, if they are a single byte or begin a
character, and if the next byte continues none.
-/
theorem Broken.of_stuck
    (incomplete : ¬ Writes (first :: more))
    (begun : more = [] ∨ ∃ further, Writes (first :: more ++ further))
    (stuck :
      ∀ next ∈ rest.head?, ∀ further,
        ¬ Writes (first :: more ++ next :: further)) :
    Broken (first :: more) rest where
  unreadable := by
    intro character inBytes
    have inside : String.utf8EncodeChar character <+: first :: more :=
      List.prefix_of_prefix_length_le inBytes (List.prefix_append _ _)
        (length_le_of_stuck stuck ⟨character, List.prefix_rfl⟩ inBytes)
    -- The character would be all of the part, since it is no beginning of another one.
    refine incomplete ?_
    suffices String.utf8EncodeChar character = first :: more by
      rw [← this]
      exact writes_utf8EncodeChar character
    rcases begun with rfl | begun
    · refine inside.eq_of_length_le ?_
      exact List.length_pos_iff.mpr String.utf8EncodeChar_ne_nil
    · obtain ⟨other, written⟩ := begins_iff.mpr begun
      obtain rfl := eq_of_prefix (inside.trans written) List.prefix_rfl
      exact inside.eq_of_length_le written.length_le
  notEmpty := List.cons_ne_nil _ _
  single_or_begins := by
    rcases begun with rfl | begun
    · exact .inl rfl
    · exact .inr (begins_iff.mpr begun)
  longest _ := length_le_of_stuck stuck

/-- These are the first two bytes of a character of more than two. -/
def BeginsLong
    (first second : UInt8) : Prop :=
  0xe0 ≤ first ∧ first ≤ 0xef ∧ secondOfThree first second = true ∨
    0xf0 ≤ first ∧ first ≤ 0xf4 ∧ secondOfFour first second = true

/-- These are the first two bytes of a character. -/
def BeginsTwo
    (first second : UInt8) : Prop :=
  0xc2 ≤ first ∧ first ≤ 0xdf ∧ isContinuation second = true ∨
    BeginsLong first second

theorem broken_one
    (high : ¬ first < 0x80)
    (stuck : ∀ second ∈ rest.head?, ¬ BeginsTwo first second) :
    Broken [first] rest := by
  refine .of_stuck ?_ (.inl rfl) ?_
  · rintro ⟨low⟩
    exact high low
  · intro second next further writes
    refine stuck second next ?_
    cases writes with
    | two least most continues =>
        exact .inl ⟨least, most, continues⟩
    | three least most follows _ =>
        exact .inr (.inl ⟨least, most, follows⟩)
    | four least most follows _ _ =>
        exact .inr (.inr ⟨least, most, follows⟩)

theorem broken_two
    {second : UInt8}
    (begun : BeginsLong first second)
    (stuck : ∀ third ∈ rest.head?, ¬ isContinuation third = true) :
    Broken [first, second] rest := by
  refine .of_stuck ?_ (.inr ?_) ?_
  · rintro ⟨⟩
    grind [BeginsLong]
  · rcases begun with ⟨least, most, follows⟩ | ⟨least, most, follows⟩
    · exact ⟨[0x80], .three least most follows rfl⟩
    · exact ⟨[0x80, 0x80], .four least most follows rfl rfl⟩
  · intro third next further writes
    refine stuck third next ?_
    cases writes with
    | three _ _ _ continues =>
        exact continues
    | four _ _ _ continues _ =>
        exact continues

theorem broken_three
    {second third : UInt8}
    (least : 0xf0 ≤ first)
    (most : first ≤ 0xf4)
    (follows : secondOfFour first second = true)
    (continues : isContinuation third = true)
    (stuck : ∀ fourth ∈ rest.head?, ¬ isContinuation fourth = true) :
    Broken [first, second, third] rest := by
  refine .of_stuck ?_ (.inr ?_) ?_
  · rintro ⟨⟩
    grind
  · exact ⟨[0x80], .four least most follows continues rfl⟩
  · intro fourth next further writes
    refine stuck fourth next ?_
    cases writes with
    | four _ _ _ _ ends =>
        exact ends

end Parts

section Decoding

variable {first : UInt8} {rest bytes : List UInt8} {text : List Char}

/-- A character is read where it is written. -/
theorem Reads.of_written
    {character : Char}
    {part : List UInt8}
    (behind : Reads rest text)
    (written : String.utf8EncodeChar character = part) :
    Reads (part ++ rest) (character :: text) := by
  rw [← written]
  exact .character behind

/--
What is decoded where a byte stands is read in front of what is read behind it.

The cases are those of the decoder. Four of them find a character, by its length; in
the others the part ends before the first byte that does not continue it, be it the
second, the third or the fourth, or before the end of the bytes.
-/
theorem Reads.decodeFrom_cons :
    Reads (rest.drop (decodeFrom first rest).2) text →
      Reads (first :: rest) ((decodeFrom first rest).1 :: text) := by
  fun_cases decodeFrom first rest with
  | case1 _ low =>
      exact fun behind => behind.of_written (utf8EncodeChar_one low)
  | case2 _ lead second rest continues =>
      simp only [Bool.and_eq_true, decide_eq_true_eq] at lead
      exact fun behind =>
        behind.of_written (utf8EncodeChar_two lead.1 lead.2 continues)
  | case6 _ _ lead second third rest follows continues =>
      simp only [Bool.and_eq_true, decide_eq_true_eq, Bool.not_eq_true',
        Bool.not_eq_false] at lead follows
      exact fun behind =>
        behind.of_written (utf8EncodeChar_three lead.1 lead.2 follows continues)
  | case12 _ _ _ lead second third fourth rest follows continues ends =>
      simp only [Bool.and_eq_true, decide_eq_true_eq, Bool.not_eq_true',
        Bool.not_eq_false] at lead follows continues
      exact fun behind =>
        behind.of_written
          (utf8EncodeChar_four lead.1 lead.2 follows continues ends)
  | case3 | case4 | case5 | case9 | case10 | case16 | case17 =>
      refine .broken (broken_one ‹_› ?_)
      grind [BeginsTwo, BeginsLong]
  | case7 | case11 =>
      refine .broken (broken_two ?_ ?_) <;>
        grind [BeginsLong]
  | case13 =>
      refine .broken (broken_three ?_ ?_ ?_ ?_ ?_) <;>
        grind
  | case8 | case15 =>
      dsimp only
      split
      · refine .broken (broken_two ?_ ?_) <;>
          grind [BeginsLong]
      · refine .broken (broken_one ‹_› ?_)
        grind [BeginsTwo, BeginsLong]
  | case14 =>
      dsimp only
      split
      · refine .broken (broken_one ‹_› ?_)
        grind [BeginsTwo, BeginsLong]
      split
      · refine .broken (broken_three ?_ ?_ ?_ ?_ ?_) <;>
          grind
      · refine .broken (broken_two ?_ ?_) <;>
          grind [BeginsLong]

theorem exists_reads_decodeOnto
    (read : List Char)
    (bytes : List UInt8) :
    ∃ text, decodeOnto read bytes = read.reverse ++ text ∧ Reads bytes text := by
  fun_induction decodeOnto read bytes with
  | case1 read =>
      exact ⟨[], (List.append_nil _).symm, .nil⟩
  | case2 read first rest character further taken inductionHypothesis =>
      obtain ⟨text, decoded, behind⟩ := inductionHypothesis
      refine ⟨character :: text, ?_, ?_⟩
      · rw [decoded, List.reverse_cons, List.append_assoc, List.singleton_append]
      · have front := @Reads.decodeFrom_cons first rest text
        rw [taken] at front
        exact front behind

/-- What is decoded is a reading. -/
theorem reads_decode
    (bytes : List UInt8) :
    Reads bytes (decode bytes).toList := by
  obtain ⟨text, decoded, reads⟩ := exists_reads_decodeOnto [] bytes
  rw [decode, decoded, String.toList_ofList]
  exact reads

end Decoding

section Uniqueness

variable {bytes : List UInt8} {text : List Char}

/-- Bytes that are read end, or begin with a character or with a broken part. -/
theorem Reads.cases_front
    (reads : Reads bytes text) :
    bytes = [] ∧ text = [] ∨
      (∃ character rest behind,
        bytes = String.utf8EncodeChar character ++ rest ∧
          text = character :: behind ∧
          Reads rest behind) ∨
      ∃ part rest behind,
        bytes = part ++ rest ∧
          text = '\uFFFD' :: behind ∧
          Broken part rest ∧
          Reads rest behind := by
  cases reads with
  | nil =>
      exact .inl ⟨rfl, rfl⟩
  | character behind =>
      exact .inr (.inl ⟨_, _, _, rfl, rfl, behind⟩)
  | broken broken behind =>
      exact .inr (.inr ⟨_, _, _, rfl, rfl, broken, behind⟩)

theorem Broken.length_le
    {part rest other further : List UInt8}
    (broken : Broken part rest)
    (otherBroken : Broken other further)
    (same : other ++ further = part ++ rest) :
    other.length ≤ part.length := by
  rcases otherBroken.single_or_begins with single | begins
  · rw [single]
    exact List.length_pos_iff.mpr broken.notEmpty
  · exact broken.longest other begins ⟨further, same⟩

/-- Two broken parts of the same bytes are one. -/
theorem Broken.eq_of_append_eq
    {part rest other further : List UInt8}
    (broken : Broken part rest)
    (otherBroken : Broken other further)
    (same : part ++ rest = other ++ further) :
    part = other ∧ rest = further :=
  List.append_inj same
    (Nat.le_antisymm (otherBroken.length_le broken same)
      (broken.length_le otherBroken same.symm))

/-- Bytes have no two readings. -/
theorem Reads.unique
    {other : List Char}
    (reads : Reads bytes text)
    (otherReads : Reads bytes other) :
    text = other := by
  induction reads generalizing other with
  | nil =>
      rcases otherReads.cases_front with
        ⟨_, rfl⟩ | ⟨character, _, _, same, _⟩ | ⟨_, _, _, same, _, broken, _⟩
      · rfl
      · exact
          absurd (List.nil_eq_append_iff.mp same).1 String.utf8EncodeChar_ne_nil
      · exact absurd (List.nil_eq_append_iff.mp same).1 broken.notEmpty
  | @character character rest text behind inductionHypothesis =>
      rcases otherReads.cases_front with
        ⟨same, _⟩ | ⟨next, further, _, same, rfl, otherBehind⟩ |
        ⟨_, _, _, same, _, broken, _⟩
      · exact
          absurd (List.append_eq_nil_iff.mp same).1 String.utf8EncodeChar_ne_nil
      · obtain rfl := eq_of_prefix ⟨rest, rfl⟩ ⟨further, same.symm⟩
        obtain rfl := List.append_cancel_left same
        rw [inductionHypothesis otherBehind]
      · exact absurd ⟨rest, same⟩ (broken.unreadable character)
  | @broken part rest text broken behind inductionHypothesis =>
      rcases otherReads.cases_front with
        ⟨same, _⟩ | ⟨next, further, _, same, _, _⟩ |
        ⟨_, _, _, same, rfl, otherBroken, otherBehind⟩
      · exact absurd (List.append_eq_nil_iff.mp same).1 broken.notEmpty
      · exact absurd ⟨further, same.symm⟩ (broken.unreadable next)
      · obtain ⟨rfl, rfl⟩ := broken.eq_of_append_eq otherBroken same
        rw [inductionHypothesis otherBehind]

/-- The reading of bytes is what they are decoded as. -/
theorem reads_iff :
    Reads bytes text ↔ decode bytes = String.ofList text := by
  constructor
  · intro reads
    rw [reads.unique (reads_decode bytes), String.ofList_toList]
  · intro decoded
    have reads := reads_decode bytes
    rw [decoded, String.toList_ofList] at reads
    exact reads

/-- Text that is stored is read back. -/
theorem decode_flatMap
    (text : List Char) :
    decode (text.flatMap String.utf8EncodeChar) = String.ofList text := by
  rw [← reads_iff]
  induction text with
  | nil =>
      exact .nil
  | cons character rest inductionHypothesis =>
      exact .character inductionHypothesis

end Uniqueness

end Lossy

end LevelCollision

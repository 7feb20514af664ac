import LevelCollision.Proofs.VisibilityQueries

namespace LevelCollision

/-!
# Expansions of run-length rows

`whole` is what stored bytes stand for when no length cuts it off. The row of a length is
the beginning of it, with zeros for what is missing. Whether a notice is left depends on
where tokens end: none is left if some of the first tokens make up the length, which those
of an encoded row do, whatever follows them.
-/

namespace RunLength

/--
All bytes that stored bytes stand for. A zero byte at the end, which lacks its count, stands
for nothing.
-/
def whole : List UInt8 → List UInt8
  | [] =>
      []
  | byte :: rest =>
      if byte ≠ 0 then
        byte :: whole rest
      else
        match rest with
        | [] =>
            []
        | count :: further =>
            List.replicate count.toNat 0 ++ whole further

/-- Stored bytes are a run-length encoding of a row: its tokens are complete. -/
inductive Encoded : List UInt8 → List UInt8 → Prop where
  | nil :
      Encoded [] []
  | byte
      {value : UInt8}
      {stored row : List UInt8} :
      value ≠ 0 →
      Encoded stored row →
      Encoded (value :: stored) (value :: row)
  | zeros
      (count : UInt8)
      {stored row : List UInt8} :
      Encoded stored row →
      Encoded (0 :: count :: stored) (List.replicate count.toNat 0 ++ row)

/-- Some of the first stored tokens make up a length. -/
def MakesUp
    (stored : List UInt8)
    (length : Nat) : Prop :=
  ∃ first rest row,
    stored = first ++ rest ∧ Encoded first row ∧ row.length = length

section Whole

variable {byte : UInt8}

theorem whole_byte
    (nonzero : byte ≠ 0)
    (rest : List UInt8) :
    whole (byte :: rest) = byte :: whole rest := by
  rw [whole.eq_def]
  exact if_pos nonzero

theorem whole_zeros
    (count : UInt8)
    (rest : List UInt8) :
    whole (0 :: count :: rest) =
      List.replicate count.toNat 0 ++ whole rest := by
  rw [whole.eq_def]
  exact if_neg (not_not_intro rfl)

/-- Stored bytes go on to stand for the row that they begin with. -/
theorem Encoded.whole_append
    {first row : List UInt8}
    (encoded : Encoded first row)
    (rest : List UInt8) :
    whole (first ++ rest) = row ++ whole rest := by
  induction encoded with
  | nil =>
      rfl
  | byte nonzero _ inductionHypothesis =>
      rw [List.cons_append, whole_byte nonzero, inductionHypothesis,
        List.cons_append]
  | zeros count _ inductionHypothesis =>
      rw [List.cons_append, List.cons_append, whole_zeros,
        inductionHypothesis, List.append_assoc]

/-- Every row can be encoded. -/
theorem exists_encoded
    (row : List UInt8) :
    ∃ stored, Encoded stored row := by
  induction row with
  | nil =>
      exact ⟨[], .nil⟩
  | cons value row inductionHypothesis =>
      obtain ⟨stored, encoded⟩ := inductionHypothesis
      by_cases isZero : value = 0
      · subst isZero
        exact ⟨0 :: 1 :: stored, .zeros 1 encoded⟩
      · exact ⟨value :: stored, .byte isZero encoded⟩

end Whole

section Tokens

variable {byte count : UInt8} {rest : List UInt8} {length : Nat}

/-- Without any token nothing is made up. -/
theorem makesUp_zero
    (stored : List UInt8) :
    MakesUp stored 0 :=
  ⟨[], stored, [], rfl, .nil, rfl⟩

theorem makesUp_nil_iff :
    MakesUp [] length ↔ length = 0 := by
  constructor
  · rintro ⟨first, rest, row, parts, encoded, rfl⟩
    obtain ⟨rfl, -⟩ := List.append_eq_nil_iff.mp parts.symm
    cases encoded
    rfl
  · rintro rfl
    exact makesUp_zero []

theorem makesUp_byte_iff
    (nonzero : byte ≠ 0) :
    MakesUp (byte :: rest) length ↔
      length = 0 ∨ ∃ shorter, MakesUp rest shorter ∧ shorter + 1 = length := by
  constructor
  · rintro ⟨first, others, row, parts, encoded, rfl⟩
    cases encoded with
    | nil =>
        exact .inl rfl
    | byte _ encoded =>
        cases parts
        exact .inr ⟨_, ⟨_, _, _, rfl, encoded, rfl⟩, rfl⟩
    | zeros =>
        cases parts
        exact absurd rfl nonzero
  · rintro (rfl | ⟨_, ⟨first, others, row, rfl, encoded, rfl⟩, rfl⟩)
    · exact makesUp_zero _
    · exact ⟨byte :: first, others, byte :: row, rfl, .byte nonzero encoded, rfl⟩

/-- A zero byte without its count is no token. -/
theorem makesUp_lone_iff :
    MakesUp [0] length ↔ length = 0 := by
  constructor
  · rintro ⟨first, others, row, parts, encoded, rfl⟩
    cases encoded with
    | nil =>
        rfl
    | byte nonzero _ =>
        simp only [List.cons_append, List.cons.injEq] at parts
        exact absurd parts.1.symm nonzero
    | zeros _ _ =>
        simp only [List.cons_append, List.cons.injEq, List.nil_eq] at parts
        cases parts.2
  · rintro rfl
    exact makesUp_zero _

theorem makesUp_zeros_iff :
    MakesUp (0 :: count :: rest) length ↔
      length = 0 ∨
        ∃ shorter, MakesUp rest shorter ∧ count.toNat + shorter = length := by
  constructor
  · rintro ⟨first, others, row, parts, encoded, rfl⟩
    cases encoded with
    | nil =>
        exact .inl rfl
    | byte nonzero _ =>
        simp only [List.cons_append, List.cons.injEq] at parts
        exact absurd parts.1.symm nonzero
    | zeros _ encoded =>
        simp only [List.cons_append, List.cons.injEq, true_and] at parts
        obtain ⟨rfl, rfl⟩ := parts
        exact .inr ⟨_, ⟨_, _, _, rfl, encoded, rfl⟩, by simp⟩
  · rintro (rfl | ⟨_, ⟨first, others, row, rfl, encoded, rfl⟩, rfl⟩)
    · exact makesUp_zero _
    · exact
        ⟨0 :: count :: first, others, _, rfl, .zeros count encoded, by simp⟩

end Tokens

section Endings

variable {length : Nat} {written : Array UInt8}

/--
Behind the bytes already written come those that the stored ones stand for, and then zeros,
up to the length.
-/
theorem toList_padTo_expandOnto
    (fits : written.size ≤ length)
    (stored : List UInt8) :
    (padTo length (expandOnto length written stored).1).toList =
      (written.toList ++ whole stored).take length ++
        List.replicate (length - (written.size + (whole stored).length)) 0 := by
  fun_induction expandOnto length written stored with
  | case1 stored written full =>
      have isFull : written.size = length :=
        Nat.le_antisymm fits full
      subst isFull
      simp [padTo]
  | case2 written notFull =>
      have kept : written.toList.take length = written.toList :=
        List.take_of_length_le fits
      simp [padTo, whole, kept]
  | case3 written notFull byte rest nonzero inductionHypothesis =>
      rw [inductionHypothesis (size_push_le notFull byte), whole_byte nonzero]
      simp [Nat.add_assoc, Nat.add_comm]
  | case4 written notFull byte notNonzero =>
      have kept : written.toList.take length = written.toList :=
        List.take_of_length_le fits
      simp [padTo, whole, notNonzero, kept]
  | case5 written notFull byte notNonzero count further overrun =>
      cases not_not.mp notNonzero
      have kept : written.toList.take length = written.toList :=
        List.take_of_length_le fits
      -- The zeros that the length cuts off are those that would pad the row.
      have cut :
          min (length - written.size) count.toNat = length - written.size := by
        omega
      have noMore : length - written.size - count.toNat = 0 := by
        omega
      have noneMissing :
          length -
              (written.size + (count.toNat + (whole further).length)) = 0 := by
        omega
      simp [padTo, whole_zeros, List.take_append, kept, cut, noMore,
        noneMissing]
  | case6 written notFull byte notNonzero count further noOverrun
      inductionHypothesis =>
      cases not_not.mp notNonzero
      rw [inductionHypothesis (size_run_le noOverrun), whole_zeros]
      simp [Nat.add_assoc]

/-- The ending is exact if and only if some of the first tokens make up what is left. -/
theorem ending_eq_exact_iff
    (fits : written.size ≤ length)
    (stored : List UInt8) :
    (expandOnto length written stored).2 = .exact ↔
      MakesUp stored (length - written.size) := by
  fun_induction expandOnto length written stored with
  | case1 stored written full =>
      rw [Nat.sub_eq_zero_of_le full]
      exact iff_of_true rfl (makesUp_zero stored)
  | case2 written notFull =>
      rw [makesUp_nil_iff]
      refine iff_of_false Ending.noConfusion ?_
      omega
  | case3 written notFull byte rest nonzero inductionHypothesis =>
      have left : length - written.size = length - (written.size + 1) + 1 := by
        omega
      rw [inductionHypothesis (size_push_le notFull byte), Array.size_push,
        makesUp_byte_iff nonzero, left]
      simp
  | case4 written notFull byte notNonzero =>
      cases not_not.mp notNonzero
      rw [makesUp_lone_iff]
      refine iff_of_false Ending.noConfusion ?_
      omega
  | case5 written notFull byte notNonzero count further overrun =>
      cases not_not.mp notNonzero
      rw [makesUp_zeros_iff]
      refine iff_of_false Ending.noConfusion ?_
      rintro (nothingLeft | ⟨shorter, _, made⟩)
      · omega
      · omega
  | case6 written notFull byte notNonzero count further noOverrun
      inductionHypothesis =>
      cases not_not.mp notNonzero
      rw [inductionHypothesis (size_run_le noOverrun), makesUp_zeros_iff,
        Array.size_append, Array.size_replicate]
      constructor
      · intro makesUp
        exact .inr ⟨_, makesUp, by omega⟩
      · rintro (nothingLeft | ⟨shorter, makesUp, made⟩)
        · omega
        · have isShorter :
              length - (written.size + count.toNat) = shorter := by
            omega
          rw [isShorter]
          exact makesUp

/-- It is early if and only if the stored bytes stand for less than what is left. -/
theorem ending_eq_early_iff
    (stored : List UInt8) :
    (expandOnto length written stored).2 = .early ↔
      written.size + (whole stored).length < length := by
  fun_induction expandOnto length written stored with
  | case1 stored written full =>
      refine iff_of_false Ending.noConfusion ?_
      omega
  | case2 written notFull =>
      exact iff_of_true rfl (Nat.lt_of_not_le notFull)
  | case3 written notFull byte rest nonzero inductionHypothesis =>
      rw [inductionHypothesis, whole_byte nonzero, Array.size_push,
        List.length_cons]
      omega
  | case4 written notFull byte notNonzero =>
      cases not_not.mp notNonzero
      exact iff_of_true rfl (Nat.lt_of_not_le notFull)
  | case5 written notFull byte notNonzero count further overrun =>
      cases not_not.mp notNonzero
      rw [whole_zeros, List.length_append, List.length_replicate]
      refine iff_of_false Ending.noConfusion ?_
      omega
  | case6 written notFull byte notNonzero count further noOverrun
      inductionHypothesis =>
      cases not_not.mp notNonzero
      rw [inductionHypothesis, whole_zeros, Array.size_append,
        Array.size_replicate, List.length_append, List.length_replicate,
        Nat.add_assoc]

end Endings

section Rows

/-- Only an exact ending leaves nothing to notice. -/
theorem Ending.notices_eq_nil_iff
    {ending : Ending} :
    ending.notices = [] ↔ ending = .exact := by
  cases ending <;> decide

/-- Every other ending has words of its own. -/
theorem Ending.texts_eq_early_iff
    {ending : Ending} :
    ending.notices.map Notice.text = ["Visibility row ends early"] ↔
      ending = .early := by
  cases ending <;> decide

theorem Ending.texts_eq_overrun_iff
    {ending : Ending} :
    ending.notices.map Notice.text = ["Visibility decompression overrun"] ↔
      ending ≠ .exact ∧ ending ≠ .early := by
  cases ending <;> decide

/-- The row of a length is the beginning of the whole, and zeros for what is missing. -/
theorem toList_expand
    (stored : List UInt8)
    (length : Nat) :
    (expand stored length).value.bytes.toList =
      (whole stored).take length ++
        List.replicate (length - (whole stored).length) 0 := by
  have fits : (#[] : Array UInt8).size ≤ length :=
    Nat.zero_le length
  have expands := toList_padTo_expandOnto fits stored
  rw [List.size_toArray, List.length_nil, Nat.zero_add] at expands
  exact expands

/-- An encoded row is expanded without a notice, whatever follows it. -/
theorem Encoded.expand_append
    {first row : List UInt8}
    (encoded : Encoded first row)
    (rest : List UInt8) :
    expand (first ++ rest) row.length =
      { value := ⟨row.toArray⟩, notices := [] } := by
  have isRow :
      (expand (first ++ rest) row.length).value.bytes.toList = row := by
    rw [toList_expand, encoded.whole_append, List.take_left,
      List.length_append, Nat.sub_eq_zero_of_le (Nat.le_add_right _ _),
      List.replicate_zero, List.append_nil]
  have isExact :
      (expandOnto row.length #[] (first ++ rest)).2 = .exact :=
    (ending_eq_exact_iff (Nat.zero_le _) _).mpr
      ⟨first, rest, row, rfl, encoded, rfl⟩
  have isSilent : (expand (first ++ rest) row.length).notices = [] :=
    Ending.notices_eq_nil_iff.mpr isExact
  cases shape : expand (first ++ rest) row.length with
  | mk value notices =>
      rw [shape] at isRow isSilent
      have isValue : value = ⟨row.toArray⟩ := by
        rw [← isRow]
      have isNone : notices = [] := isSilent
      rw [isValue, isNone]

/--
The row of a length is the beginning of what the stored bytes stand for, with zeros for what
is missing. Nothing is noticed if some of the first tokens make up the length, that the row
ends early if all of them stand for less, and that it is overrun in all other cases. So an
encoded row is recovered from the bytes that encode it, whatever bytes follow them.
-/
theorem expand_eq_padded_whole
    (stored : List UInt8)
    (length : Nat) :
    (expand stored length).value.bytes.toList =
        (whole stored).take length ++
          List.replicate (length - (whole stored).length) 0 ∧
      (expand stored length).value.bytes.size = length ∧
      ((expand stored length).notices = [] ↔ MakesUp stored length) ∧
      ((expand stored length).notices.map Notice.text =
          ["Visibility row ends early"] ↔
        (whole stored).length < length) ∧
      ((expand stored length).notices.map Notice.text =
          ["Visibility decompression overrun"] ↔
        ¬MakesUp stored length ∧ ¬(whole stored).length < length) ∧
      ∀ row,
        (∃ first, Encoded first row) ∧
          ∀ first rest,
            Encoded first row →
              expand (first ++ rest) row.length =
                { value := ⟨row.toArray⟩, notices := [] } := by
  have notices :
      (expand stored length).notices =
        (expandOnto length #[] stored).2.notices := rfl
  have exact :
      (expandOnto length #[] stored).2 = .exact ↔ MakesUp stored length :=
    ending_eq_exact_iff (Nat.zero_le length) stored
  have early :
      (expandOnto length #[] stored).2 = .early ↔
        0 + (whole stored).length < length :=
    ending_eq_early_iff stored
  rw [Nat.zero_add] at early
  rw [notices]
  refine
    ⟨toList_expand stored length, size_expand stored length,
      Ending.notices_eq_nil_iff.trans exact,
      Ending.texts_eq_early_iff.trans early, ?_, fun row =>
        ⟨exists_encoded row, fun _ rest encoded => encoded.expand_append rest⟩⟩
  rw [Ending.texts_eq_overrun_iff, ne_eq, ne_eq, exact, early]

/-- A row with three zeros in a run is recovered from bytes with others behind them. -/
theorem expand_encoded_zeros :
    Encoded [0x01, 0x00, 0x03, 0x80] [0x01, 0x00, 0x00, 0x00, 0x80] ∧
      expand [0x01, 0x00, 0x03, 0x80, 0x00, 0x0a] 5 =
        { value := ⟨#[0x01, 0x00, 0x00, 0x00, 0x80]⟩, notices := [] } := by
  have encoded :
      Encoded [0x01, 0x00, 0x03, 0x80] [0x01, 0x00, 0x00, 0x00, 0x80] :=
    .byte (by decide) (.zeros 3 (.byte (by decide) .nil))
  obtain ⟨_, _, _, _, _, rows⟩ := expand_eq_padded_whole [] 0
  exact ⟨encoded, (rows _).2 _ [0x00, 0x0a] encoded⟩

end Rows

end RunLength

end LevelCollision

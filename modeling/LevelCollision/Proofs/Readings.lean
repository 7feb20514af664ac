import LevelCollision.File.Reading
import LevelCollision.Proofs.Outcomes

namespace LevelCollision

/-!
# Outcomes of readings

What a reading ends in does not depend on the notices it leaves: the outcome of a
chain of readings is the chain of their outcomes. Reading records of one size one
after the other succeeds exactly when each stretch of that size is the record that
it is read as.
-/

namespace Reading

variable {α β : Type}

@[simp] theorem outcome_pure
    (result : α) :
    (pure result : Reading α).outcome = .ok result :=
  rfl

@[simp] theorem outcome_value
    (result : α) :
    (value result).outcome = .ok result :=
  rfl

@[simp] theorem outcome_refuse
    (error : LevelError) :
    (refuse error : Reading α).outcome = .error error :=
  rfl

/-- The outcome of a chain is the chain of the outcomes. -/
@[simp] theorem outcome_bind
    (reading : Reading α)
    (next : α → Reading β) :
    (reading >>= next).outcome =
      reading.outcome >>= fun result => (next result).outcome := by
  change (reading.andThen next).outcome = _
  unfold andThen
  cases reading.outcome with
  | ok result =>
      rfl
  | error error =>
      rfl

@[simp] theorem outcome_map
    (transform : α → β)
    (reading : Reading α) :
    (transform <$> reading).outcome =
      reading.outcome >>= fun result => .ok (transform result) :=
  outcome_bind reading (fun result => pure (transform result))

@[simp] theorem outcome_flatten
    (reading : Reading (Reading α)) :
    reading.flatten.outcome =
      reading.outcome >>= fun inner => inner.outcome :=
  outcome_bind reading (fun inner => inner)

/-- A requirement is passed exactly when it is met. -/
theorem outcome_require
    (condition : Bool)
    (error : LevelError) :
    (require condition error).outcome =
      if condition then .ok () else .error error := by
  cases condition <;> rfl

/-- Reading goes on behind a requirement exactly when it is met. -/
@[simp] theorem require_bind_eq_ok_iff
    {condition : Bool}
    {error : LevelError}
    {next : Unit → Except LevelError β}
    {result : β} :
    (require condition error).outcome >>= next = .ok result ↔
      condition = true ∧ next () = .ok result := by
  rw [outcome_require]
  cases condition with
  | false =>
      simp
  | true =>
      simp

/-- Fields are read when there are bytes for all of them. -/
theorem outcome_ofFields_eq_ok_iff
    {fields : Fields α}
    {bytes : List UInt8}
    {result : α} :
    (ofFields fields bytes).outcome = .ok result ↔
      ∃ rest, fields.run bytes = some (result, rest) := by
  unfold ofFields
  cases fields.run bytes with
  | none =>
      simp
  | some read =>
      simp only [outcome_value, Except.ok.injEq, Option.some.injEq]
      constructor
      · rintro rfl
        exact ⟨read.2, rfl⟩
      · rintro ⟨rest, rfl⟩
        rfl

instance : LawfulMonad Reading := by
  refine LawfulMonad.mk' Reading ?_ ?_ ?_
  · intro α reading
    change reading.andThen value = reading
    rcases reading with ⟨notices, _ | result⟩
    · rfl
    · simp [andThen, value]
  · intro α β result next
    change (value result).andThen next = next result
    simp [andThen, value]
  · intro α β γ reading next further
    change (reading.andThen next).andThen further =
      reading.andThen fun result => (next result).andThen further
    rcases reading with ⟨notices, _ | result⟩
    · rfl
    · rcases shape : next result with ⟨later, _ | middle⟩
      · simp [andThen, shape]
      · simp [andThen, shape]

/-- Reading every entry of a list succeeds when each of them does. -/
theorem outcome_mapM_list
    {entries : List α}
    {read : α → Reading β}
    {expected : α → β}
    (each : ∀ entry ∈ entries, (read entry).outcome = .ok (expected entry)) :
    (entries.mapM read).outcome = .ok (entries.map expected) := by
  induction entries with
  | nil =>
      rfl
  | cons entry rest inductionHypothesis =>
      have first := each entry (by simp)
      have others :=
        inductionHypothesis fun other member => each other (by simp [member])
      simp [List.mapM_cons, first, others]

/-- Reading every entry of a vector succeeds when each of them does. -/
theorem outcome_mapM_vector
    {count : Nat}
    {entries : Vector α count}
    {read : α → Reading β}
    {expected : α → β}
    (each : ∀ entry ∈ entries, (read entry).outcome = .ok (expected entry)) :
    (entries.mapM read).outcome = .ok (entries.map expected) := by
  have onArray :
      (Vector.toArray <$> entries.mapM read).outcome =
        .ok (entries.map expected).toArray := by
    rw [Vector.toArray_mapM, Array.mapM_eq_mapM_toList, outcome_map,
      outcome_mapM_list fun entry member =>
        each entry (by simpa using member),
      ok_bind, ← Array.toList_map, Array.toArray_toList, Vector.toArray_map]
  rw [outcome_map, bind_eq_ok_iff] at onArray
  obtain ⟨results, read, same⟩ := onArray
  rw [read, ← Vector.toArray_inj.mp (Except.ok.inj same)]

/-- What was read from a list has at each position what its entry there is read as. -/
theorem exists_getElem?_of_outcome_mapM_list
    {entries : List α}
    {read : α → Reading β}
    {results : List β}
    (reads : (entries.mapM read).outcome = .ok results)
    {position : Nat}
    {entry : α}
    (found : entries[position]? = some entry) :
    ∃ result,
      results[position]? = some result ∧
        (read entry).outcome = .ok result := by
  induction entries generalizing results position with
  | nil =>
      cases found
  | cons first rest inductionHypothesis =>
      simp only [List.mapM_cons, outcome_bind, bind_eq_ok_iff, outcome_pure,
        Except.ok.injEq] at reads
      obtain ⟨result, readsFirst, others, readsOthers, rfl⟩ := reads
      cases position with
      | zero =>
          cases found
          exact ⟨result, rfl, readsFirst⟩
      | succ position =>
          exact inductionHypothesis readsOthers found

/-- So has what was read from a vector. -/
theorem outcome_get_of_outcome_mapM_vector
    {count : Nat}
    {entries : Vector α count}
    {read : α → Reading β}
    {results : Vector β count}
    (reads : (entries.mapM read).outcome = .ok results)
    (position : Fin count) :
    (read (entries.get position)).outcome = .ok (results.get position) := by
  have onArray :
      (Vector.toArray <$> entries.mapM read).outcome =
        .ok results.toArray := by
    rw [outcome_map, reads]
    rfl
  rw [Vector.toArray_mapM, Array.mapM_eq_mapM_toList, outcome_map,
    bind_eq_ok_iff] at onArray
  obtain ⟨listed, readsList, same⟩ := onArray
  have found :
      entries.toArray.toList[position.val]? = some (entries.get position) := by
    simp [Vector.get]
  obtain ⟨result, isResult, readsHere⟩ :=
    exists_getElem?_of_outcome_mapM_list readsList found
  have isThere : results.toArray[position.val]? = some result := by
    rw [← Except.ok.inj same]
    simpa using isResult
  have sameResult : results.get position = result := by
    simpa [Vector.get] using isThere
  rw [sameResult]
  exact readsHere

/--
The bytes are read as these records, one stretch of bytes for each, from a position
onwards.
-/
inductive ReadAs
    (size : Nat)
    (record : Nat → Fields (Reading α)) :
    Nat → List UInt8 → List α → Prop where
  | nil
      (position : Nat)
      (bytes : List UInt8) :
      ReadAs size record position bytes []
  | cons
      {position : Nat}
      {bytes : List UInt8}
      {entry : α}
      {rest : List α} :
      (ofFields (record position) (bytes.take size)).flatten.outcome =
        .ok entry →
      ReadAs size record (position + 1) (bytes.drop size) rest →
      ReadAs size record position bytes (entry :: rest)

/-- Each record that is read comes from its own stretch of the bytes. -/
theorem ReadAs.stretch
    {size position : Nat}
    {record : Nat → Fields (Reading α)}
    {bytes : List UInt8}
    {entries : List α}
    (read : ReadAs size record position bytes entries)
    {index : Nat}
    (inRange : index < entries.length) :
    (ofFields (record (position + index))
        ((bytes.drop (index * size)).take size)).flatten.outcome =
      .ok entries[index] := by
  induction read generalizing index with
  | nil =>
      exact absurd inRange (Nat.not_lt_zero index)
  | @cons position bytes first rest head _ inductionHypothesis =>
      cases index with
      | zero =>
          rw [Nat.zero_mul]
          exact head
      | succ index =>
          have here :=
            inductionHypothesis (Nat.lt_of_succ_lt_succ inRange)
          rw [List.drop_drop, Nat.add_assoc, Nat.add_comm 1 index,
            Nat.add_comm size, ← Nat.succ_mul] at here
          exact here

/-- Records that are read each come from some bytes at some position. -/
theorem ReadAs.source
    {size position : Nat}
    {record : Nat → Fields (Reading α)}
    {bytes : List UInt8}
    {entries : List α}
    (read : ReadAs size record position bytes entries)
    {entry : α}
    (member : entry ∈ entries) :
    ∃ place stretch,
      (ofFields (record place) stretch).flatten.outcome = .ok entry := by
  obtain ⟨index, inRange, rfl⟩ := List.getElem_of_mem member
  exact ⟨_, _, read.stretch inRange⟩

/-- The outcome of the first of some records decides whether others are read. -/
theorem outcome_recordsOnto_succ
    (size count : Nat)
    (record : Nat → Fields (Reading α))
    (bytes : List UInt8)
    (notices : Array Notice)
    (before : Array α) :
    ∃ noted,
      (recordsOnto size record (count + 1) bytes notices before).outcome =
        (ofFields (record before.size) (bytes.take size)).flatten.outcome >>=
          fun entry =>
            (recordsOnto size record count (bytes.drop size) noted
              (before.push entry)).outcome := by
  refine
    ⟨notices ++
      (ofFields (record before.size)
        (bytes.take size)).flatten.notices.toArray, ?_⟩
  rw [recordsOnto]
  cases (ofFields (record before.size) (bytes.take size)).flatten.outcome with
  | ok entry =>
      rfl
  | error error =>
      rfl

/-- Records read behind others are those that the bytes are read as. -/
theorem outcome_recordsOnto_eq_ok_iff
    {size count : Nat}
    {record : Nat → Fields (Reading α)}
    {bytes : List UInt8}
    {notices : Array Notice}
    {before entries : Array α} :
    (recordsOnto size record count bytes notices before).outcome =
        .ok entries ↔
      ∃ rest : List α,
        rest.length = count ∧
          ReadAs size record before.size bytes rest ∧
          entries = before ++ rest := by
  induction count generalizing bytes notices before with
  | zero =>
      simp only [recordsOnto, Except.ok.injEq, List.length_eq_zero_iff]
      constructor
      · rintro rfl
        exact ⟨[], rfl, .nil _ _, by simp⟩
      · rintro ⟨rest, rfl, -, rfl⟩
        simp
  | succ count inductionHypothesis =>
      unfold recordsOnto
      cases shape :
          (ofFields (record before.size) (bytes.take size)).flatten.outcome with
      | error error =>
          simp only [shape, reduceCtorEq, false_iff]
          rintro ⟨rest, length, read, -⟩
          cases read with
          | nil =>
              simp at length
          | cons head _ =>
              cases shape.symm.trans head
      | ok entry =>
          simp only [shape, inductionHypothesis, Array.size_push]
          constructor
          · rintro ⟨rest, length, read, rfl⟩
            exact ⟨entry :: rest, by simp [length], .cons shape read, by simp⟩
          · rintro ⟨rest, length, read, rfl⟩
            cases read with
            | nil =>
                simp at length
            | @cons _ _ first others head tail =>
                have same : entry = first :=
                  Except.ok.inj (shape.symm.trans head)
                subst same
                exact ⟨others, by simpa using length, tail, by simp⟩

/-- Records of one size are those that the bytes are read as. -/
theorem outcome_records_eq_ok_iff
    {size count : Nat}
    {record : Nat → Fields (Reading α)}
    {bytes : List UInt8}
    {entries : Array α} :
    (records size count record bytes).outcome = .ok entries ↔
      entries.size = count ∧
        ReadAs size record 0 bytes entries.toList := by
  unfold records
  rw [outcome_recordsOnto_eq_ok_iff]
  constructor
  · rintro ⟨rest, length, read, rfl⟩
    simpa using ⟨length, read⟩
  · rintro ⟨length, read⟩
    exact ⟨entries.toList, by simpa using length, by simpa using read, by simp⟩

end Reading

end LevelCollision

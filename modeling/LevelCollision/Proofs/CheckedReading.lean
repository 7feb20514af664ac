import LevelCollision.Proofs.FieldWidths

namespace LevelCollision

/-!
# Checked reading

A reading takes bytes from lists and adds numbers without a limit. Here every step is
checked: a run of bytes has to lie inside the bytes that it is taken from, sums and
products have to fit into words of 64 bits, and the fields of a lump are read one after
the other from where the last one ended, with no record kept apart from the next one. The
result mirrors that of the reading, whatever the bytes are: no check fails, and no field
is missing.
-/

/-- Why a checked step is the last one. -/
inductive Halt where
  /-- The file is refused. -/
  | refused (error : LevelError)
  /-- Something is asked for that is not there. -/
  | fault (fault : Fault)
  /-- A number does not fit into its word. -/
  | overflow
  deriving DecidableEq, Repr

/-- The outcome of steps each of which is checked. -/
abbrev Checked :=
  Except Halt

namespace Checked

variable {α β γ δ : Type}

def ofOutcome
    (outcome : Except LevelError α) : Checked α :=
  outcome.mapError .refused

def ofAnswer
    (answer : Except Fault α) : Checked α :=
  answer.mapError .fault

/-- A number that has to fit into a word of so many bits. -/
def word
    (bits number : Nat) : Checked Nat :=
  if number < 2 ^ bits then .ok number else .error .overflow

/-- A number that has to fit into a word of 32 bits with a sign. -/
def signed32
    (number : Int) : Checked Int :=
  if -2 ^ 31 ≤ number ∧ number < 2 ^ 31 then
    .ok number
  else
    .error .overflow

def plus
    (left right : Nat) : Checked Nat :=
  word 64 (left + right)

def times
    (left right : Nat) : Checked Nat :=
  word 64 (left * right)

/-- A run of bytes, which has to lie inside the others. -/
def window
    (bytes : List UInt8)
    (offset size : Nat) : Checked (List UInt8) := do
  let stop ← plus offset size
  if stop ≤ bytes.length then
    return (bytes.drop offset).take size
  else
    throw (.fault .outOfBounds)

theorem word_of_lt
    {bits number : Nat}
    (fits : number < 2 ^ bits) :
    word bits number = .ok number :=
  if_pos fits

theorem signed32_of_bounds
    {number : Int}
    (atLeast : -2 ^ 31 ≤ number)
    (below : number < 2 ^ 31) :
    signed32 number = .ok number :=
  if_pos ⟨atLeast, below⟩

theorem window_of_le
    {bytes : List UInt8}
    {offset size : Nat}
    (fits : offset + size < 2 ^ 64)
    (inside : offset + size ≤ bytes.length) :
    window bytes offset size = .ok ((bytes.drop offset).take size) := by
  rw [window, plus, word_of_lt fits, ok_bind, if_pos inside]
  rfl

/-- A checked outcome is that of a reading, which is no refusal for want of bytes. -/
inductive Mirrors
    (same : α → β → Prop) :
    Checked α → Except LevelError β → Prop where
  | value
      {checked : α}
      {result : β} :
      same checked result →
      Mirrors same (.ok checked) (.ok result)
  | refusal
      {error : LevelError} :
      (∀ cause, error ≠ .unreadable cause) →
      Mirrors same (.error (.refused error)) (.error error)

namespace Mirrors

theorem bind
    {same : α → β → Prop}
    {sameAfter : γ → δ → Prop}
    {checked : Checked α}
    {outcome : Except LevelError β}
    {checkedNext : α → Checked γ}
    {next : β → Except LevelError δ}
    (first : Mirrors same checked outcome)
    (second :
      ∀ checked result,
        same checked result →
          Mirrors sameAfter (checkedNext checked) (next result)) :
    Mirrors sameAfter (checked >>= checkedNext) (outcome >>= next) := by
  cases first with
  | value isSame =>
      exact second _ _ isSame
  | refusal readable =>
      exact .refusal readable

/-- What follows goes on with the result of the reading. -/
theorem andThen
    {holds : β → Prop}
    {same : γ → δ → Prop}
    {checked : Checked β}
    {outcome : Except LevelError β}
    {checkedNext : β → Checked γ}
    {next : β → Except LevelError δ}
    (first :
      Mirrors (fun checked result => checked = result ∧ holds result)
        checked outcome)
    (second :
      ∀ result,
        holds result → Mirrors same (checkedNext result) (next result)) :
    Mirrors same (checked >>= checkedNext) (outcome >>= next) := by
  refine first.bind fun checked result isSame => ?_
  obtain ⟨rfl, holdsResult⟩ := isSame
  exact second checked holdsResult

theorem mono
    {same sameAfter : α → β → Prop}
    {checked : Checked α}
    {outcome : Except LevelError β}
    (mirrors : Mirrors same checked outcome)
    (weaker :
      ∀ checked result, same checked result → sameAfter checked result) :
    Mirrors sameAfter checked outcome := by
  cases mirrors with
  | value isSame =>
      exact .value (weaker _ _ isSame)
  | refusal readable =>
      exact .refusal readable

/-- What is mirrored can be taken for the result of the reading. -/
theorem attach
    {same : α → β → Prop}
    {checked : Checked α}
    {outcome : Except LevelError β}
    (mirrors : Mirrors same checked outcome) :
    Mirrors
      (fun checked result => same checked result ∧ outcome = .ok result)
      checked outcome := by
  cases mirrors with
  | value isSame =>
      exact .value ⟨isSame, rfl⟩
  | refusal readable =>
      exact .refusal readable

/-- A reading that ends for a reason in what was read is mirrored by itself. -/
theorem ofEnds
    {holds : α → Prop}
    {reading : Reading α}
    (ends : reading.Ends holds) :
    Mirrors (fun checked result => checked = result ∧ holds result)
      (ofOutcome reading.outcome) reading.outcome := by
  cases outcome : reading.outcome with
  | ok result =>
      exact .value ⟨rfl, ends.value result outcome⟩
  | error error =>
      exact .refusal (ends.ne_unreadable outcome)

/-- A reading with the same outcome, told in another way, is mirrored with it. -/
theorem congr
    (same : α → γ → Prop)
    {checked : Checked α}
    {outcome : Except LevelError β}
    {other : Except LevelError δ}
    {tell : β → γ}
    {otherTell : δ → γ}
    (mirrors :
      Mirrors (fun checked result => same checked (otherTell result))
        checked other)
    (isSame :
      (outcome >>= fun result => .ok (tell result)) =
        other >>= fun result => .ok (otherTell result)) :
    Mirrors (fun checked result => same checked (tell result))
      checked outcome := by
  cases mirrors with
  | value isThere =>
      obtain ⟨result, rfl, told⟩ := bind_eq_ok_iff.mp isSame
      rw [← Except.ok.inj told] at isThere
      exact .value isThere
  | refusal readable =>
      rcases bind_eq_error_iff.mp isSame with rfl | ⟨_, _, noRefusal⟩
      · exact .refusal readable
      · cases noRefusal

end Mirrors

end Checked

/-- Checked steps that read on where the last one ended. -/
abbrev Cursor :=
  StateT (List UInt8) Checked

namespace Cursor

variable {α β : Type}

/-- Read fields, of which there have to be all bytes. -/
def read
    (fields : Fields α) : Cursor α :=
  fun bytes =>
    match fields.run bytes with
    | some result => .ok result
    | none => .error (.refused Reading.shortInput)

/-- Go on with the value of a reading. -/
def settle
    (reading : Reading α) : Cursor α :=
  StateT.lift (Checked.ofOutcome reading.outcome)

/-- Read a record. -/
def record
    (layout : Fields (Reading α)) : Cursor α := do
  let reading ← read layout
  settle reading

/-- Read a number of records, one after the other, behind those already read. -/
def recordsOnto
    (each : Nat → Cursor α) :
    Nat → Array α → Cursor (Array α)
  | 0, entries =>
      return entries
  | count + 1, entries => do
      let entry ← each entries.size
      recordsOnto each count (entries.push entry)

/-- Whether a child is a leaf is told from its sign, and the leaf from the rest. -/
def child : Cursor Child := do
  let stored ← read Fields.integer32
  if stored < 0 then
    let id ← Checked.signed32 (-1 - stored)
    return .leaf id.toNat
  else
    return .node stored.toNat

/-- The name of a surface is the bytes before its first zero byte. -/
def surface : Cursor Surface := do
  read (Fields.skip 32)
  let flags ← read Fields.integer32
  let number ← read Fields.integer32
  let bytes ← read (Fields.take 32)
  let length := (bytes.findIdx? (· == 0)).getD 32
  let name ← Checked.window bytes 0 length
  let _ ← read Fields.integer32
  return {
    name := Lossy.decode name
    flags := flags
    value := number }

def model : Cursor (Model Float32) := do
  let mins ← read Layout.vector
  let maxs ← read Layout.vector
  let origin ← read Layout.vector
  let head ← child
  read (Fields.skip 8)
  return {
    bounds := ({ mins := mins, maxs := maxs } : Box Float32).grow 1
    origin := origin
    head := head }

def node : Cursor Node := do
  let plane ← read Fields.integer32
  let front ← child
  let back ← child
  read (Fields.skip 16)
  let plane ← settle (Layout.reference .nodePlane plane)
  return { plane := plane, front := front, back := back }

/-- An entry of the table has to lie in the file. -/
def entry
    (fileSize : Nat)
    (id : LumpId) : Cursor (Nat × Nat) := do
  let offset ← read Fields.integer32
  let size ← read Fields.integer32
  settle
    (Reading.require (decide (0 ≤ offset ∧ 0 ≤ size))
      (.lumpOutOfBounds id offset size fileSize))
  let stop ← Checked.plus offset.toNat size.toNat
  settle
    (Reading.require (decide (stop ≤ fileSize))
      (.lumpOutOfBounds id offset size fileSize))
  return (offset.toNat, size.toNat)

section Records

theorem run_read
    (fields : Fields α)
    (bytes : List UInt8) :
    (read fields).run bytes =
      match fields.run bytes with
      | some result => .ok result
      | none => .error (.refused Reading.shortInput) :=
  rfl

theorem read_pure
    (result : α) :
    read (pure result) = pure result :=
  rfl

/-- To read fields and then others is to read both. -/
theorem read_bind
    (fields : Fields α)
    (further : α → Fields β) :
    read (fields >>= further) =
      read fields >>= fun result => read (further result) := by
  funext bytes
  change (read (fields >>= further)).run bytes =
    (read fields >>= fun result => read (further result)).run bytes
  rw [StateT.run_bind, run_read, run_read, StateT.run_bind]
  cases fields.run bytes with
  | none =>
      rfl
  | some result =>
      rfl

theorem record_bind
    (fields : Fields α)
    (layout : α → Fields (Reading β)) :
    record (fields >>= layout) =
      read fields >>= fun result => record (layout result) := by
  simp only [record, read_bind, bind_assoc]

theorem record_pure
    (reading : Reading α) :
    record (pure reading) = settle reading :=
  rfl

theorem settle_bind
    (reading : Reading α)
    (further : α → Reading β) :
    settle (reading >>= further) =
      settle reading >>= fun result => settle (further result) := by
  funext bytes
  change (settle (reading >>= further)).run bytes =
    (settle reading >>= fun result => settle (further result)).run bytes
  rw [StateT.run_bind]
  simp only [settle, StateT.run_lift, Reading.outcome_bind]
  cases reading.outcome with
  | ok result =>
      rfl
  | error error =>
      rfl

/-- A checked number that fits is gone on with. -/
theorem lift_ok_bind
    (result : α)
    (next : α → Cursor β) :
    (liftM (.ok result : Checked α) >>= next) = next result :=
  rfl

/-- What follows fields has to be the same for what they can be only. -/
theorem read_bind_congr
    {fields : Fields α}
    {next other : α → Cursor β}
    (same :
      ∀ bytes result rest,
        fields.run bytes = some (result, rest) → next result = other result) :
    (read fields >>= next) = (read fields >>= other) := by
  funext bytes
  change (read fields >>= next).run bytes = (read fields >>= other).run bytes
  rw [StateT.run_bind, StateT.run_bind, run_read]
  cases run : fields.run bytes with
  | none =>
      rfl
  | some result =>
      change (next result.1).run result.2 = (other result.1).run result.2
      rw [same bytes result.1 result.2 run]

/-- What follows a number has to be the same for numbers of 32 bits only. -/
theorem read_integer32_congr
    {next other : Int → Cursor β}
    (same :
      ∀ number,
        -2 ^ 31 ≤ number → number < 2 ^ 31 → next number = other number) :
    (read Fields.integer32 >>= next) = (read Fields.integer32 >>= other) := by
  unfold Fields.integer32
  rw [read_bind, bind_assoc, bind_assoc]
  refine bind_congr fun word => ?_
  rw [read_pure, pure_bind, pure_bind]
  exact same _ word.toInt32.le_toInt word.toInt32.toInt_lt

/-- A leaf has a number that fits into a word because its stored number does. -/
theorem child_eq :
    child = read Layout.child := by
  unfold child Layout.child
  rw [read_bind]
  refine read_integer32_congr fun stored atLeast below => ?_
  rw [read_pure, Child.ofStored]
  split
  · rw [Checked.signed32_of_bounds (by omega) (by omega)]
    rfl
  · rfl

/-- A name that is cut off at its first zero byte ends inside the bytes of the name. -/
theorem window_name
    {bytes : List UInt8}
    (length : bytes.length = 32) :
    Checked.window bytes 0 ((bytes.findIdx? (· == 0)).getD 32) =
      .ok (bytes.takeWhile (· != 0)) := by
  have inside : bytes.findIdx (· == 0) ≤ bytes.length :=
    List.findIdx_le_length
  have negated : (fun byte : UInt8 => !(byte != 0)) = (· == 0) := by
    funext byte
    exact Bool.not_not _
  rw [← length, ← List.findIdx_eq_getD_findIdx?,
    Checked.window_of_le (by omega) (by omega),
    List.takeWhile_eq_take_findIdx_not, negated]
  rfl

theorem surface_eq :
    surface = record Layout.surface := by
  unfold surface Layout.surface
  simp only [record_bind, record_pure]
  refine bind_congr fun _ => ?_
  refine bind_congr fun flags => ?_
  refine bind_congr fun number => ?_
  refine read_bind_congr fun bytes taken rest run => ?_
  rw [window_name (Fields.length_of_run_take run)]
  rfl

theorem model_eq :
    model = record Layout.model := by
  unfold model Layout.model
  simp only [record_bind, record_pure, child_eq]
  rfl

theorem node_eq :
    node = record Layout.node := by
  unfold node Layout.node
  simp only [record_bind, record_pure, child_eq]
  refine bind_congr fun plane => ?_
  refine bind_congr fun front => ?_
  refine bind_congr fun back => ?_
  refine bind_congr fun _ => ?_
  rw [settle_bind]
  rfl

/-- The end of a lump fits into a word because its offset and its size fit into less. -/
theorem entry_eq
    (fileSize : Nat)
    (id : LumpId) :
    entry fileSize id = record (LumpTable.entry fileSize id) := by
  unfold entry LumpTable.entry
  simp only [record_bind, record_pure]
  refine read_integer32_congr fun offset _ offsetBelow => ?_
  refine read_integer32_congr fun size _ sizeBelow => ?_
  rw [Checked.plus, Checked.word_of_lt (by omega), lift_ok_bind, settle_bind]
  by_cases natural : 0 ≤ offset ∧ 0 ≤ size
  · have sameStop :
        (0 ≤ offset ∧ 0 ≤ size ∧ offset + size ≤ fileSize) ↔
          offset.toNat + size.toNat ≤ fileSize := by
      omega
    rw [decide_eq_true natural]
    simp only [sameStop]
    rfl
  · have differs : ¬(0 ≤ offset ∧ 0 ≤ size ∧ offset + size ≤ fileSize) := by
      omega
    rw [decide_eq_false natural, decide_eq_false differs]
    rfl

end Records

section Mirrors

variable {γ δ : Type} {width : Nat} {holds : α → Prop} {bytes : List UInt8}

open Checked (Mirrors)

/-- What follows goes on where the cursor stands. -/
theorem mirrors_bind
    {rest : List UInt8}
    {same : γ × List UInt8 → δ → Prop}
    {first : Cursor α}
    {next : α → Cursor γ}
    {outcome : Except LevelError α}
    {further : α → Except LevelError δ}
    (here :
      Mirrors (fun after result => after = (result, rest) ∧ holds result)
        (first.run bytes) outcome)
    (later :
      ∀ result,
        holds result →
          Mirrors same ((next result).run rest) (further result)) :
    Mirrors same ((first >>= next).run bytes) (outcome >>= further) := by
  rw [StateT.run_bind]
  refine here.bind fun after result isHere => ?_
  obtain ⟨rfl, holdsResult⟩ := isHere
  exact later result holdsResult

/-- Fields are read from where they are, and the cursor stands behind them. -/
theorem mirrors_read
    {fields : Fields α}
    (reads : fields.Reads width holds)
    (enough : width ≤ bytes.length) :
    Mirrors
      (fun after result =>
        after = (result, bytes.drop width) ∧ holds result)
      ((read fields).run bytes) (Reading.ofFields fields bytes).outcome := by
  obtain ⟨result, holdsResult, _, run⟩ := reads.run_take enough
  have readsAll :
      (Reading.ofFields fields bytes).outcome = .ok result :=
    Reading.outcome_ofFields_eq_ok_iff.mpr ⟨_, run⟩
  rw [run_read, run, readsAll]
  exact .value ⟨rfl, holdsResult⟩

/-- A record that is read from more bytes is what it is in its own bytes. -/
theorem ofFields_take
    {fields : Fields α}
    (reads : fields.Reads width holds)
    (enough : width ≤ bytes.length) :
    (Reading.ofFields fields (bytes.take width)).outcome =
      (Reading.ofFields fields bytes).outcome := by
  obtain ⟨result, _, runFront, run⟩ := reads.run_take enough
  rw [Reading.outcome_ofFields_eq_ok_iff.mpr ⟨_, run⟩,
    Reading.outcome_ofFields_eq_ok_iff.mpr ⟨_, runFront⟩]

theorem mirrors_settle
    {reading : Reading α}
    (ends : reading.Ends holds) :
    Mirrors
      (fun after result => after = (result, bytes) ∧ holds result)
      ((settle reading).run bytes) reading.outcome := by
  rw [settle, StateT.run_lift]
  cases outcome : reading.outcome with
  | ok result =>
      exact .value ⟨rfl, ends.value result outcome⟩
  | error error =>
      exact .refusal (ends.ne_unreadable outcome)

theorem mirrors_record
    {layout : Fields (Reading α)}
    (reads : layout.Reads width (Reading.Ends holds))
    (enough : width ≤ bytes.length) :
    Mirrors
      (fun after result =>
        after = (result, bytes.drop width) ∧ holds result)
      ((record layout).run bytes)
      (Reading.ofFields layout bytes).flatten.outcome := by
  rw [record, Reading.outcome_flatten]
  exact mirrors_bind (mirrors_read reads enough) fun _ => mirrors_settle

/--
Records that fill their bytes are read one after the other as they are in their own
bytes.
-/
theorem mirrors_recordsOnto
    {layout : Nat → Fields (Reading α)}
    {each : Nat → Cursor α}
    (isRecord : ∀ position, each position = record (layout position))
    (reads : ∀ position, (layout position).Reads width (Reading.Ends holds))
    {count : Nat}
    (enough : count * width ≤ bytes.length)
    {before : Array α}
    (beforeHolds : ∀ entry ∈ before, holds entry)
    (notices : Array Notice) :
    Mirrors
      (fun after entries =>
        after = (entries, bytes.drop (count * width)) ∧
          entries.size = before.size + count ∧
          ∀ entry ∈ entries, holds entry)
      ((recordsOnto each count before).run bytes)
      (Reading.recordsOnto width layout count bytes notices before).outcome := by
  induction count generalizing bytes before notices with
  | zero =>
      refine .value ⟨?_, rfl, beforeHolds⟩
      rw [Nat.zero_mul, List.drop_zero]
  | succ count inductionHypothesis =>
      rw [Nat.succ_mul] at enough
      have enoughHere : width ≤ bytes.length := by
        omega
      have enoughLater : count * width ≤ (bytes.drop width).length := by
        rw [List.length_drop]
        omega
      have first := mirrors_record (reads before.size) enoughHere
      have isHere :
          (Reading.ofFields (layout before.size)
              (bytes.take width)).flatten.outcome =
            (Reading.ofFields (layout before.size) bytes).flatten.outcome := by
        rw [Reading.outcome_flatten, Reading.outcome_flatten,
          ofFields_take (reads before.size) enoughHere]
      obtain ⟨noted, outcome⟩ :=
        Reading.outcome_recordsOnto_succ width count layout bytes notices before
      rw [recordsOnto, isRecord, outcome, isHere]
      refine mirrors_bind first fun entry holdsEntry => ?_
      have pushedHold : ∀ other ∈ before.push entry, holds other := by
        intro other member
        rcases Array.mem_push.mp member with inBefore | rfl
        · exact beforeHolds other inBefore
        · exact holdsEntry
      have later := inductionHypothesis enoughLater pushedHold noted
      refine later.mono fun after entries same => ?_
      obtain ⟨rfl, size, allHold⟩ := same
      refine ⟨?_, ?_, allHold⟩
      · rw [List.drop_drop, Nat.succ_mul, Nat.add_comm width]
      · rw [size, Array.size_push]
        omega

/-- Where the cursor stands in the end does not matter to the value. -/
theorem mirrors_run'
    {same : α → β → Prop}
    {cursor : Cursor α}
    {outcome : Except LevelError β}
    (mirrors :
      Mirrors (fun after result => same after.1 result)
        (cursor.run bytes) outcome) :
    Mirrors same (cursor.run' bytes) outcome := by
  rw [StateT.run'_eq]
  generalize cursor.run bytes = checked at mirrors ⊢
  cases mirrors with
  | value isSame =>
      exact .value isSame
  | refusal readable =>
      exact .refusal readable

/-- The records of a lump, from its first byte. -/
theorem mirrors_records
    {layout : Nat → Fields (Reading α)}
    {each : Nat → Cursor α}
    (isRecord : ∀ position, each position = record (layout position))
    (reads : ∀ position, (layout position).Reads width (Reading.Ends holds))
    {count : Nat}
    (enough : count * width ≤ bytes.length) :
    Mirrors
      (fun checked entries =>
        checked = entries ∧ entries.size = count ∧
          ∀ entry ∈ entries, holds entry)
      ((recordsOnto each count #[]).run' bytes)
      (Reading.records width count layout bytes).outcome := by
  have noneYet : ∀ entry ∈ (#[] : Array α), holds entry := by
    simp
  have read := mirrors_recordsOnto isRecord reads enough noneYet #[]
  refine mirrors_run' (read.mono fun after entries same => ?_)
  obtain ⟨rfl, size, allHold⟩ := same
  exact ⟨rfl, by rw [size]; simp, allHold⟩

end Mirrors

end Cursor

end LevelCollision

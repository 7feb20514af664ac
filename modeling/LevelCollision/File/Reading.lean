import LevelCollision.File.Fields
import LevelCollision.Level.Error
import LevelCollision.Notice

namespace LevelCollision

/-!
# Readings

Reading a file leaves notices and ends in a value or a refusal. Notices are kept in
the order in which they were made, and those made before a refusal are kept too.
-/

/-- What came of reading something. -/
structure Reading (α : Type) where
  notices : List Notice
  outcome : Except LevelError α

namespace Reading

variable {α β : Type}

/-- A value that was read without a notice. -/
def value
    (result : α) : Reading α where
  notices := []
  outcome := .ok result

/-- A refusal without a notice. -/
def refuse
    (error : LevelError) : Reading α where
  notices := []
  outcome := .error error

/-- Read on from a value. -/
def andThen
    (reading : Reading α)
    (next : α → Reading β) : Reading β :=
  match reading.outcome with
  | .ok result =>
      let further := next result
      { notices := reading.notices ++ further.notices
        outcome := further.outcome }
  | .error error =>
      { notices := reading.notices
        outcome := .error error }

/-- Read what was read. -/
def flatten
    (reading : Reading (Reading α)) : Reading α :=
  reading.andThen fun inner => inner

instance : Monad Reading where
  pure := value
  bind := andThen

/-- Leave a notice. -/
def note
    (notice : Notice) : Reading Unit where
  notices := [notice]
  outcome := .ok ()

/-- Refuse unless a condition holds. -/
def require
    (condition : Bool)
    (error : LevelError) : Reading Unit :=
  if condition then value () else refuse error

/-- The error of a reader that ran out of bytes. -/
def shortInput : LevelError :=
  .unreadable "failed to fill whole buffer"

/-- Read fields from bytes. -/
def ofFields
    (fields : Fields α)
    (bytes : List UInt8) : Reading α :=
  match fields.run bytes with
  | some (result, _) => value result
  | none => refuse shortInput

/--
Read records of one size, one after the other, behind those already read. A record
may depend on its position.
-/
def recordsOnto
    (size : Nat)
    (record : Nat → Fields (Reading α)) :
    Nat → List UInt8 → Array Notice → Array α → Reading (Array α)
  | 0, _, notices, read =>
      { notices := notices.toList
        outcome := .ok read }
  | count + 1, bytes, notices, read =>
      let reading :=
        flatten (ofFields (record read.size) (bytes.take size))
      let noted := notices ++ reading.notices.toArray
      match reading.outcome with
      | .ok entry =>
          recordsOnto size record count (bytes.drop size) noted
            (read.push entry)
      | .error error =>
          { notices := noted.toList
            outcome := .error error }

/-- Read a number of records of one size. -/
def records
    (size count : Nat)
    (record : Nat → Fields (Reading α))
    (bytes : List UInt8) : Reading (Array α) :=
  recordsOnto size record count bytes #[] #[]

end Reading

end LevelCollision

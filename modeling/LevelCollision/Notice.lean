import LevelCollision.Text.Hex

namespace LevelCollision

/-!
# Notices

Loading a level and some queries report what they noticed along the way. A notice
never changes an answer. `Logged` pairs an answer with the notices made while it
was found, in the order in which they were made.
-/

/-- How much attention a notice asks for. -/
inductive Severity where
  | info
  | warn
  deriving DecidableEq, Repr

/-- Something noticed while loading a level or answering a query. -/
inductive Notice where
  /-- Content bits without a meaning were dropped. -/
  | unknownContents (bits : UInt32)
  /-- An entity text has a tail of this many bytes that is no entity. -/
  | unparsedEntityText (bytes : Nat)
  /-- No entity of the text is the world. -/
  | noWorldspawn
  /-- A compressed row ended before it filled its length. -/
  | rowEndsEarly
  /-- A run of a compressed row went past the row's end. -/
  | rowOverrun
  /-- A level was loaded, with these numbers of records. -/
  | loaded (planes nodes leaves brushes models clusters areas : Nat)
  deriving DecidableEq, Repr

namespace Notice

/-- Only the arrival of a level is not a warning. -/
def severity : Notice → Severity
  | .loaded .. => .info
  | _ => .warn

/-- The words of a notice. -/
def text : Notice → String
  | .unknownContents bits =>
      s!"Ignoring unknown content bits {Hex.short bits}"
  | .unparsedEntityText bytes =>
      s!"Ignoring {bytes} unparsed bytes of entity string"
  | .noWorldspawn =>
      "No worldspawn entity, using the first entity"
  | .rowEndsEarly =>
      "Visibility row ends early"
  | .rowOverrun =>
      "Visibility decompression overrun"
  | .loaded planes nodes leaves brushes models clusters areas =>
      s!"Loaded BSP: {planes} planes, {nodes} nodes, {leaves} leaves, " ++
        s!"{brushes} brushes, {models} models, {clusters} clusters, {areas} areas"

end Notice

/-- The word that opens a line of the log. -/
def Severity.label : Severity → String
  | .info => "INFO"
  | .warn => "WARN"

/-- A notice as one line of the log. -/
def Notice.line
    (notice : Notice) : String :=
  s!"{notice.severity.label} {notice.text}"

/-- An answer with the notices made on the way to it. -/
structure Logged (α : Type) where
  value : α
  notices : List Notice := []
  deriving DecidableEq

end LevelCollision

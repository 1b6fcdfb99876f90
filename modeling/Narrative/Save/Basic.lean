import Narrative.Path.Document
import Narrative.State

namespace Narrative

inductive SaveKind
  | auto
  | manual
  deriving DecidableEq, Repr

/-- A position that play can return to. -/
structure Checkpoint where
  path : Path
  state : PlayerState
  snapshots : List PlayerState
  deriving DecidableEq, Repr

structure Save extends Checkpoint where
  time : UInt64
  kind : SaveKind
  deriving DecidableEq, Repr

namespace SaveKind

def word : SaveKind → String
  | auto => "auto"
  | manual => "manual"

def toDatum (k : SaveKind) : Datum := .case (some k.word) []

def ofDatum? : Datum → Option SaveKind
  | .case (some "auto") [] => some auto
  | .case (some "manual") [] => some manual
  | _ => none

end SaveKind

namespace Save

def toDatum (s : Save) : Datum := .record [
  Path.toDatum s.path,
  s.state.toDatum,
  .record [.ofWord s.time, s.kind.toDatum],
  .list (s.snapshots.map PlayerState.toDatum)]

def ofDatum? : Datum → Option Save
  | .record [path, state, .record [time, kind], .list snapshots] => do
    some {
      path := ← Path.ofDatum? path
      state := ← PlayerState.ofDatum? state
      snapshots := ← snapshots.mapM PlayerState.ofDatum?
      time := ← time.word?
      kind := ← SaveKind.ofDatum? kind }
  | _ => none

def ofText (s : String) : Except Fault Save := Schema.ofText (.named .save) ofDatum? s

def toJson (s : Save) : Json := Format.toJson Schema.book (.named .save) s.toDatum

def text (s : Save) : String := s.toJson.compact

end Save

end Narrative

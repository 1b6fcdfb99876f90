import Narrative.Json.Skip
import Narrative.Save.Record
import Narrative.Text

namespace Narrative

/-- What a menu shows of a save without reading it. -/
structure SlotLabel where
  slot : UInt16
  quick : Bool
  updated : UInt64
  scriptId : String
  kind : SaveKind
  scene : Option String
  pathLength : UInt64
  snapshotCount : UInt64
  deriving DecidableEq, Repr

namespace SlotLabel

def ofRecord (slot : UInt16) (quick : Bool) (now : UInt64) (r : SaveRecord) : SlotLabel where
  slot := slot
  quick := quick
  updated := now
  scriptId := Text.Hex.ofBytes r.scriptId.toList
  kind := r.save.kind
  scene := Path.scene? r.save.path
  pathLength := UInt64.ofNat r.save.path.length
  snapshotCount := UInt64.ofNat r.save.snapshots.length

def toDatum (l : SlotLabel) : Datum := .record [
  .int l.slot.toNat, .bool l.quick, .ofWord l.updated, .text l.scriptId, l.kind.toDatum,
  .ofText? l.scene, .ofWord l.pathLength, .ofWord l.snapshotCount]

def ofDatum? : Datum → Option SlotLabel
  | .record [.int slot, .bool quick, updated, .text scriptId, kind, scene, pathLength, snapshots] => do
    some {
      slot := UInt16.ofNat slot.toNat
      quick := quick
      updated := ← updated.word?
      scriptId := scriptId
      kind := ← SaveKind.ofDatum? kind
      scene := ← Datum.orNull Datum.text? scene
      pathLength := ← pathLength.word?
      snapshotCount := ← snapshots.word? }
  | _ => none

def ofText (s : String) : Except Fault SlotLabel := Schema.ofText (.named .slotLabel) ofDatum? s

/-- A label is read from bytes if those that are no text make no difference to it or its keys, as in
a field that is not looked at. -/
def ofBytes? (bytes : Bytes) : Option SlotLabel :=
  let text := Text.patched '?' bytes
  let other := Text.patched '!' bytes
  let label := (ofText text).toOption
  if label = (ofText other).toOption ∧ Json.keysOf text = Json.keysOf other then label else none

def toJson (l : SlotLabel) : Json := Format.toJson Schema.book (.named .slotLabel) l.toDatum

def text (l : SlotLabel) : String := l.toJson.pretty

end SlotLabel

end Narrative

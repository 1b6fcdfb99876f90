import Narrative.Digest
import Narrative.Save.Payload

namespace Narrative

/-- A save with the id of its script, as the file of a slot holds it. -/
structure SaveRecord where
  scriptId : ScriptId
  save : Save
  deriving DecidableEq

/-- What stands before the payload, after the magic word. -/
structure RecordHeader where
  version : Nat
  checksum : Nat
  length : Nat
  deriving DecidableEq, Repr

namespace RecordHeader

def magic : Bytes := [0x56, 0x4e, 0x50, 0x53]

def formatVersion : Nat := 1

/-- A number in so many bytes, the lowest first. -/
def littleEndian : Nat → Nat → Bytes
  | 0, _ => []
  | n + 1, value => UInt8.ofNat (value % 256) :: littleEndian n (value / 256)

def ofLittleEndian : Bytes → Nat
  | [] => 0
  | b :: rest => b.toNat + 256 * ofLittleEndian rest

def ofPayload (payload : Bytes) : Except RecordFault RecordHeader :=
  if payload.length < UInt32.size then
    .ok ⟨formatVersion, (Crc32.hash payload).toNat, payload.length⟩
  else .error .tooLarge

def toBytes (h : RecordHeader) : Bytes :=
  magic ++ littleEndian 2 h.version ++ littleEndian 4 h.checksum ++ littleEndian 4 h.length

/-- Divides a file into its header and its payload. -/
def split (input : Bytes) : Except RecordFault (RecordHeader × Bytes) :=
  if input.length < 14 then .error .tooSmall
  else if input.take 4 ≠ magic then .error .invalidMagic
  else
    let field (start count : Nat) : Nat := ofLittleEndian ((input.drop start).take count)
    .ok (⟨field 4 2, field 6 4, field 10 4⟩, input.drop 14)

/-- Of several faults the version is told first, and the checksum last. -/
def check (h : RecordHeader) (payload : Bytes) : Except RecordFault Unit :=
  if h.version ≠ formatVersion then .error (.incompatibleVersion h.version formatVersion)
  else if payload.length ≠ h.length then .error .lengthMismatch
  else if (Crc32.hash payload).toNat ≠ h.checksum then .error .checksumMismatch
  else .ok ()

end RecordHeader

namespace SaveRecord

def payload (r : SaveRecord) : Bytes := r.scriptId.toList ++ Payload.save r.save

def readPayload : Payload.Reader SaveRecord := fun s => do
  let (id, s) ← Payload.readScriptId s
  let (save, s) ← Payload.readSave s
  .ok (⟨id, save⟩, s)

def toBytes (r : SaveRecord) : Except RecordFault Bytes := do
  let header ← RecordHeader.ofPayload r.payload
  .ok (header.toBytes ++ r.payload)

/-- What the payload holds after the record is not looked at. -/
def ofBytes (input : Bytes) : Except RecordFault SaveRecord := do
  let (header, payload) ← RecordHeader.split input
  header.check payload
  match readPayload payload with
  | .ok (r, _) => .ok r
  | .error cause => .error (.payload cause)

/-- A record belongs to one script only. -/
def checkScript (r : SaveRecord) (id : ScriptId) : Except RecordFault Unit :=
  if r.scriptId = id then .ok () else .error .scriptMismatch

end SaveRecord

end Narrative

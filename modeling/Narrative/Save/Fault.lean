import Narrative.Folder
import Narrative.Text

namespace Narrative

/-- Why the payload of a record cannot be read. -/
inductive PayloadFault
  | cutShort
  | endlessNumber
  | badBool
  | badText
  | badOption
  | unfit
  deriving DecidableEq, Repr

def PayloadFault.message : PayloadFault → String
  | cutShort => "Hit the end of buffer, expected more data"
  | endlessNumber =>
    "Found a varint that didn't terminate. Is the usize too big for this platform?"
  | badBool => "Found a bool that wasn't 0 or 1"
  | badText => "Tried to parse invalid utf-8"
  | badOption => "Found an Option discriminant that wasn't 0 or 1"
  | unfit => "Serde Deserialization Error"

inductive RecordFault
  | tooSmall
  | tooLarge
  | invalidMagic
  | incompatibleVersion (found expected : Nat)
  | checksumMismatch
  | lengthMismatch
  | scriptMismatch
  | payload (cause : PayloadFault)
  deriving DecidableEq, Repr

namespace RecordFault

open Text.Decimal (natText)

def message : RecordFault → String
  | tooSmall => "slot file is shorter than its header"
  | tooLarge => "save payload exceeds the slot format's size field"
  | invalidMagic => "not a story save (bad magic)"
  | incompatibleVersion found expected =>
    "slot format " ++ natText found ++ " is not supported (expected " ++ natText expected ++ ")"
  | checksumMismatch => "slot payload fails its checksum"
  | lengthMismatch => "slot payload length differs from its header"
  | scriptMismatch => "save was written for a different script"
  | payload cause => "save payload could not be encoded or decoded: " ++ cause.message

end RecordFault

inductive StoreFault
  | io (cause : FileFault)
  | save (cause : RecordFault)
  /-- Neither a slot's file nor its backup could be read; `none` if there is no backup. -/
  | recoveryFailed (primary : RecordFault) (backup : Option RecordFault)
  deriving DecidableEq, Repr

def StoreFault.message : StoreFault → String
  | io cause => "save store io error: " ++ cause.message
  | save cause => "save store format error: " ++ cause.message
  | recoveryFailed primary backup =>
    "save store recovery failed (primary: " ++ primary.message ++ ", backup: " ++
      (backup.elim "missing" RecordFault.message) ++ ")"

end Narrative

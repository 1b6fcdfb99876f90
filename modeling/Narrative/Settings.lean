import Narrative.Folder
import Narrative.Json.Fault

namespace Narrative

/-- Bounds that a script keeps to. -/
structure Limits where
  scenes : Nat := 4096
  instructions : Nat := 200000
  textLength : Nat := 4096
  nestingDepth : Nat := 32
  scriptBytes : Nat := 8 * 1024 * 1024
  deriving DecidableEq, Repr

/-- Bounds that hold for each branch of a scan on its own. -/
structure ScanLimits where
  steps : Nat := 512
  depth : Nat := 16
  deriving DecidableEq, Repr

structure Settings where
  undoLimit : Nat := 64
  scan : ScanLimits := {}
  limits : Limits := {}
  deriving DecidableEq, Repr

/-- What can be wrong with a file of settings. -/
inductive SettingsFault
  | notFound (name : String)
  /-- The text is not TOML. -/
  | malformed
  | unfit (mismatch : Mismatch)
  /-- A number is beyond the integers that can be written. -/
  | unwritable
  | io (fault : FileFault)
  deriving DecidableEq, Repr

namespace SettingsFault

def message : SettingsFault → String
  | notFound name => "config file not found at " ++ name
  | malformed => "failed to parse config: TOML parse error"
  | unfit mismatch => "failed to parse config: " ++ mismatch.message
  | unwritable => "failed to write config: out-of-range value for u64 type"
  | io fault => "io error: " ++ fault.message

def code : SettingsFault → String
  | notFound _ => "config::not_found"
  | malformed => "config::parse_error"
  | unfit _ => "config::parse_error"
  | unwritable => "config::write_error"
  | io _ => "config::io_error"

def help? : SettingsFault → Option String
  | notFound _ => some "run `storypath config --init <file>` to write the defaults"
  | _ => none

end SettingsFault

end Narrative

namespace Narrative.CommandLine

/-- What a value has to be. -/
inductive Kind
  /-- A name of a file or a directory, which is not empty. -/
  | name
  | text
  /-- A natural number of 64 bits. -/
  | size
  /-- Such numbers with commas between them. They may be given several times. -/
  | sizes
  deriving DecidableEq, Repr

structure Parameter where
  name : String
  kind : Kind
  help : String := ""

inductive Action
  | take (kind : Kind)
  /-- It may be given several times. -/
  | count
  | help
  | version
  deriving DecidableEq, Repr

structure Switch where
  name : String
  short : Option Char := none
  action : Action
  required : Bool := false
  help : String := ""
  /-- The value if none is given, as far as help tells it. -/
  usual : Option String := none

/-- All parameters of a command have to be given. -/
structure Usage where
  name : String
  about : String
  parameters : List Parameter := []
  switches : List Switch := []

namespace Usage

def programName : String := "storypath"

def versionLine : String := "story_path_cli 0.1.0"

def config : Switch where
  name := "config"
  action := .take .name
  help := "Engine configuration (TOML). Defaults apply when omitted"

def verbose : Switch where
  name := "verbose"
  short := some 'v'
  action := .count
  help := "Log more (-v info, -vv debug, -vvv trace). RUST_LOG overrides"

def help : Switch where
  name := "help"
  short := some 'h'
  action := .help
  help := "Print help"

def version : Switch where
  name := "version"
  short := some 'V'
  action := .version
  help := "Print version"

def script : Parameter := ⟨"script", .name, ""⟩

def output : Switch where
  name := "output"
  short := some 'o'
  action := .take .name

def validate : Usage where
  name := "validate"
  about := "Validate a script file or a directory of script parts"
  parameters := [script]
  switches := [config, verbose, help]

def trace : Usage where
  name := "trace"
  about := "Play a script headlessly and write the trace as YAML"
  parameters := [script]
  switches := [
    config,
    { name := "steps", action := .take .size, usual := some "100" },
    { name := "choices", action := .take .sizes,
      help := "Branch indices to pick at successive choices" },
    verbose,
    output,
    help]

def restore : Usage where
  name := "restore"
  about := "Show the replay plan a save (JSON or .vnps slot file) restores to"
  parameters := [⟨"save", .name, ""⟩]
  switches := [config, { name := "script", action := .take .name, required := true }, verbose, help]

def prefetch : Usage where
  name := "prefetch"
  about := "List the assets worth prefetching from a path"
  parameters := [script]
  switches := [
    config,
    { name := "path", action := .take .text, required := true,
      help := "Path in wire form, e.g. '[[\"jump\",\"start\"],[null,2]]'" },
    verbose,
    help]

def slots : Usage where
  name := "slots"
  about := "List the slots of a save directory"
  parameters := [⟨"dir", .name, ""⟩]
  switches := [config, verbose, help]

def schema : Usage where
  name := "schema"
  about := "Print the JSON schema of the script format"
  switches := [config, output, verbose, help]

def settings : Usage where
  name := "config"
  about := "Print the effective configuration, or write the defaults with --init"
  switches := [config, { name := "init", action := .take .name }, verbose, help]

def commands : List Usage := [validate, trace, restore, prefetch, slots, schema, settings]

/-- The program itself, before a command. -/
def program : Usage where
  name := ""
  about := "Story path engine CLI"
  switches := [config, verbose, help, version]

/-- The command that tells about the others. -/
def helper : Usage where
  name := "help"
  about := "Print this message or the help of the given subcommand(s)"

def command? (name : String) : Option Usage := commands.find? (·.name = name)

end Usage

end Narrative.CommandLine

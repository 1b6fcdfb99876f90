import Narrative.CommandLine.Usage

namespace Narrative.CommandLine

open Usage

/-- A name in angle brackets and capital letters stands for a value. -/
def valueName (name : String) : String := "<" ++ String.ofList (name.toList.map Char.toUpper) ++ ">"

namespace Switch

/-- The name of a switch and of its value. -/
def spelling (s : Switch) : String :=
  match s.action with
  | .take _ => "--" ++ s.name ++ " " ++ valueName s.name
  | .count => "--" ++ s.name ++ "..."
  | _ => "--" ++ s.name

def label (s : Switch) : String :=
  match s.short with
  | some c => String.ofList ['-', c, ',', ' '] ++ s.spelling
  | none => "    " ++ s.spelling

def remark (s : Switch) : String :=
  match s.usual with
  | none => s.help
  | some value =>
    (if s.help.isEmpty then "" else s.help ++ " ") ++ "[default: " ++ value ++ "]"

end Switch

/-- Lines of labels and remarks. The remarks start two columns after the longest label. -/
def columns (rows : List (String × String)) : String :=
  let width := (rows.map fun r => r.1.length).foldl max 0
  String.join (rows.map fun r =>
    "  " ++ r.1 ++ String.ofList (List.replicate (width - r.1.length + 2) ' ') ++ r.2 ++ "\n")

/-- Rows under a heading, with an empty line before it. -/
def block (heading : String) (rows : List (String × String)) : String :=
  if rows.isEmpty then "" else "\n" ++ heading ++ ":\n" ++ columns rows

namespace Usage

/-- How a command is called. -/
def synopsis (u : Usage) : String :=
  let required := u.switches.filter Switch.required
  String.intercalate " " ([programName, u.name, "[OPTIONS]"] ++ required.map Switch.spelling ++
    u.parameters.map fun p => valueName p.name)

def parameterRows (u : Usage) : List (String × String) :=
  u.parameters.map fun p => (valueName p.name, p.help)

def switchRows (u : Usage) : List (String × String) :=
  u.switches.map fun s => (s.label, s.remark)

def page (about synopsis rest : String) : String :=
  about ++ "\n\nUsage: " ++ synopsis ++ "\n" ++ rest

def helpText (u : Usage) : String :=
  page u.about u.synopsis (block "Arguments" u.parameterRows ++ block "Options" u.switchRows)

def programHelp : String :=
  page program.about (programName ++ " [OPTIONS] <COMMAND>")
    (block "Commands" ((commands ++ [helper]).map fun u => (u.name, u.about)) ++
      block "Options" program.switchRows)

def helperHelp : String :=
  page helper.about (programName ++ " " ++ helper.name ++ " [COMMAND]...")
    (block "Arguments" [("[COMMAND]...", "Print help for the subcommand(s)")])

end Usage

end Narrative.CommandLine

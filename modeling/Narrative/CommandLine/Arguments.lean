import Narrative.CommandLine.Help
import Narrative.Text

namespace Narrative.CommandLine

inductive Command
  | validate (script : String)
  | trace (script : String) (steps : Nat) (choices : List UInt64) (output : Option String)
  | restore (save script : String)
  | prefetch (script path : String)
  | slots (directory : String)
  | schema (output : Option String)
  /-- Prints the settings, or writes the usual ones into a file. -/
  | settings (target : Option String)
  deriving DecidableEq, Repr

structure Invocation where
  /-- A file of settings. -/
  config : Option String
  command : Command
  deriving DecidableEq, Repr

/-- Why there is no command to run. -/
inductive Halt
  | misuse
  /-- Something has been asked of the program itself. -/
  | answer (text : String)
  deriving DecidableEq, Repr

def size? (s : String) : Option Nat :=
  let ds := match s.toList with
    | '+' :: r => r
    | r => r
  let n := ds.foldl (fun n c => 10 * n + (Text.Decimal.value? c).getD 0) 0
  if ! ds.isEmpty && ds.all Text.Decimal.isDigit && n < UInt64.size then some n else none

def sizes? (s : String) : Option (List Nat) := (s.splitOn ",").mapM size?

def Kind.fits : Kind → String → Bool
  | name, s => ! s.isEmpty
  | text, _ => true
  | size, s => (size? s).isSome
  | sizes, s => (sizes? s).isSome

/-- Values by the names of their parameters and switches, the latest first. -/
abbrev Given := List (String × String)

namespace Given

def first? (name : String) (g : Given) : Option String := (g.find? (·.1 = name)).map Prod.snd

def all (name : String) (g : Given) : List String :=
  (g.reverse.filter (·.1 = name)).map Prod.snd

/-- Takes a value that fits. Only lists may be given in parts. -/
def take (name : String) (kind : Kind) (value : String) (g : Given) : Except Halt Given :=
  if kind.fits value ∧ (kind = .sizes ∨ g.first? name = none) then .ok ((name, value) :: g)
  else .error .misuse

end Given

/-- What an argument looks like before it is known which are expected. -/
inductive Token
  | word (text : String)
  /-- Two dashes, a name, and a value after an equals sign. -/
  | long (name : String) (value : Option String)
  /-- Letters after a dash. -/
  | letters (cs : List Char)
  /-- Two dashes alone: only words follow. -/
  | terminator
  deriving DecidableEq, Repr

def Token.ofText (s : String) : Token :=
  match s.toList with
  | ['-', '-'] => terminator
  | '-' :: '-' :: r =>
    match r.dropWhile (· ≠ '=') with
    | [] => long (String.ofList r) none
    | _ :: value => long (String.ofList (r.takeWhile (· ≠ '='))) (some (String.ofList value))
  | ['-'] => word s
  | '-' :: r => letters r
  | _ => word s

/-- A switch that still waits for its value is the next thing to be served. -/
abbrev Progress := Given × Option (String × Kind)

/-- Acts on a switch that has no value of its own. -/
def act (help : String) (g : Given) (s : Switch) : Except Halt Progress :=
  match s.action with
  | .take kind => .ok (g, some (s.name, kind))
  | .count => .ok ((s.name, "") :: g, none)
  | .help => .error (.answer help)
  | .version => .error (.answer (Usage.versionLine ++ "\n"))

def readLong (u : Usage) (help : String) (g : Given) (name : String) (value : Option String) :
    Except Halt Progress :=
  match u.switches.find? (·.name = name), value with
  | none, _ => .error .misuse
  | some s, none => act help g s
  | some s, some value =>
    match s.action with
    | .take kind => do .ok (← g.take s.name kind value, none)
    | _ => .error .misuse

/-- A letter may be followed by others or, if it takes a value, by that. -/
def readLetters (u : Usage) (help : String) : Given → List Char → Except Halt Progress
  | g, [] => .ok (g, none)
  | g, c :: r =>
    match u.switches.find? (·.short = some c) with
    | none => .error .misuse
    | some s =>
      match s.action, r with
      | .take kind, '=' :: value => do .ok (← g.take s.name kind (String.ofList value), none)
      | .take kind, v :: value => do .ok (← g.take s.name kind (String.ofList (v :: value)), none)
      | _, r => do
        let (g, waiting) ← act help g s
        match waiting with
        | some w => .ok (g, some w)
        | none => readLetters u help g r

/-- What is left to be given. -/
structure Reading where
  given : Given
  waiting : Option (String × Kind)
  parameters : List Parameter
  /-- Only words are expected. -/
  wordsOnly : Bool

def Reading.takeWord (r : Reading) (word : String) : Except Halt Reading :=
  match r.waiting, r.parameters with
  | some (name, kind), _ => do .ok { r with given := ← r.given.take name kind word, waiting := none }
  | none, p :: more => do .ok { r with given := ← r.given.take p.name p.kind word, parameters := more }
  | none, [] => .error .misuse

/-- Takes one argument of a command. What waits for a value gets a word and nothing else. -/
def Reading.step (u : Usage) (r : Reading) (s : String) : Except Halt Reading :=
  if r.wordsOnly then r.takeWord s
  else
    match Token.ofText s, r.waiting with
    | .word w, _ => r.takeWord w
    | _, some _ => .error .misuse
    | .terminator, none => .ok { r with wordsOnly := true }
    | .long name value, none => do
      let (g, waiting) ← readLong u u.helpText r.given name value
      .ok { r with given := g, waiting := waiting }
    | .letters cs, none => do
      let (g, waiting) ← readLetters u u.helpText r.given cs
      .ok { r with given := g, waiting := waiting }

/-- All that is given to a command. Nothing may wait or be missing at the end. -/
def readCommand (u : Usage) (args : List String) : Except Halt Given := do
  let r ← args.foldlM (Reading.step u) ⟨[], none, u.parameters, false⟩
  let missing := u.switches.any fun s => s.required && (r.given.first? s.name).isNone
  if r.waiting.isSome || ! r.parameters.isEmpty || missing then .error .misuse else .ok r.given

/-- The switches before the command, the command, and its arguments. -/
def readProgram : Given → Option (String × Kind) → List String →
    Except Halt (Given × String × List String)
  | _, _, [] => .error .misuse
  | g, waiting, s :: rest =>
    match Token.ofText s, waiting with
    | .word w, some (name, kind) => do readProgram (← g.take name kind w) none rest
    | .word w, none => .ok (g, w, rest)
    | _, some _ => .error .misuse
    | .terminator, none => .error .misuse
    | .long name value, none => do
      let (g, waiting) ← readLong Usage.program Usage.programHelp g name value
      readProgram g waiting rest
    | .letters cs, none => do
      let (g, waiting) ← readLetters Usage.program Usage.programHelp g cs
      readProgram g waiting rest

/-- The help that the help command is asked for. -/
def helpOn : List String → Halt
  | [] => .answer Usage.programHelp
  | [name] =>
    if name = Usage.helper.name then .answer Usage.helperHelp
    else match Usage.command? name with
      | some u => .answer u.helpText
      | none => .misuse
  | _ => .misuse

/-- The command that what is given makes, for a command by its name. -/
def commandOf (name : String) (g : Given) : Option Command :=
  match name with
  | "validate" => do some (.validate (← g.first? "script"))
  | "trace" => do
    let steps ← match g.first? "steps" with
      | some s => size? s
      | none => some 100
    let choices ← (g.all "choices").mapM sizes?
    some (.trace (← g.first? "script") steps (choices.flatten.map UInt64.ofNat) (g.first? "output"))
  | "restore" => do some (.restore (← g.first? "save") (← g.first? "script"))
  | "prefetch" => do some (.prefetch (← g.first? "script") (← g.first? "path"))
  | "slots" => do some (.slots (← g.first? "dir"))
  | "schema" => some (.schema (g.first? "output"))
  | "config" => some (.settings (g.first? "init"))
  | _ => none

/-- What the arguments ask for. A shared switch that is given twice counts as given to the command. -/
def Invocation.ofArguments (args : List String) : Except Halt Invocation := do
  let (shared, name, rest) ← readProgram [] none args
  if name = Usage.helper.name then .error (helpOn rest)
  else match Usage.command? name with
    | none => .error .misuse
    | some u => do
      let g ← readCommand u rest
      match commandOf name g with
      | some command => .ok ⟨Given.first? "config" (g ++ shared), command⟩
      | none => .error .misuse

end Narrative.CommandLine

import Narrative.Compaction
import Narrative.Instruction.Document
import Narrative.State

namespace Narrative

structure Stage where
  background : Option String
  characters : NameSet
  music : NameSet
  sounds : NameSet
  deriving DecidableEq, Repr

namespace Stage

def empty : Stage := ⟨none, .empty, .empty, .empty⟩

def apply (s : Stage) : Instruction → Stage
  | .showBackground b => { s with background := some b }
  | .showCharacter c _ _ => { s with characters := s.characters.insert c }
  | .hideCharacter c _ => { s with characters := s.characters.erase c }
  | .playMusic source => { s with music := s.music.insert source }
  | .pauseMusic source | .stopMusic source => { s with music := s.music.erase source }
  | .playSound source _ => { s with sounds := s.sounds.insert source }
  | .pauseSound source | .stopSound source => { s with sounds := s.sounds.erase source }
  | .clear c => { s with
      characters := s.characters.filter c.keepCharacters.contains
      music := s.music.filter c.keepAudio.contains
      sounds := s.sounds.filter c.keepAudio.contains }
  | _ => s

/-- Removes all that is not to be kept; the background stays. -/
def retain (keep : KeepSets) (s : Stage) : Stage := { s with
  characters := s.characters.filter keep.characters.contains
  music := s.music.filter keep.music.contains
  sounds := s.sounds.filter keep.sounds.contains }

end Stage

/-- What a player sees of an instruction, in words if it has no screen of its own. -/
inductive View
  | dialogue (speaker text : String)
  | text (text : String)
  | input (question : String)
  | choice (prompt : String) (options : List String)
  | stage (description : String)
  | system (message : String)
  deriving DecidableEq, Repr

namespace View

def ofInstruction (s : PlayerState) : Instruction → View
  | .dialogue d => dialogue (d.character.getD "") d.text
  | .text t => text t
  | .input question _ => input question
  | .choice c => choice (c.prompt.getD "") ((c.shown s).map fun b => b.1.label)
  | .showBackground b => stage ("background " ++ b)
  | .showCharacter c (some emotion) _ => stage ("show " ++ c ++ " (" ++ emotion ++ ")")
  | .showCharacter c none _ => stage ("show " ++ c)
  | .hideCharacter c _ => stage ("hide " ++ c)
  | .playMusic source => stage ("music " ++ source)
  | .setFlag key value => system ("set_flag " ++ key ++ " = " ++ (if value then "true" else "false"))
  | .setVar key value => system ("set_var " ++ key ++ " = " ++ Text.Decimal.intText value.toInt)
  | .custom a => system ("custom " ++ a.handler ++ "(" ++ String.intercalate ", " a.args ++ ")")
  | i => system i.name

def toJson : View → Json
  | dialogue speaker line =>
    .obj [("kind", .str "Dialogue"), ("speaker", .str speaker), ("text", .str line)]
  | text line => .obj [("kind", .str "Text"), ("text", .str line)]
  | input question => .obj [("kind", .str "Input"), ("question", .str question)]
  | choice prompt options =>
    .obj [("kind", .str "Choice"), ("prompt", .str prompt), ("options", .names options)]
  | stage words => .obj [("kind", .str "Stage"), ("description", .str words)]
  | system words => .obj [("kind", .str "System"), ("message", .str words)]

end View

/-- Applies an instruction that changes the state; all others leave it as it is. -/
def PlayerState.apply (s : PlayerState) : Instruction → PlayerState
  | .setFlag key value => s.set key (.bool value)
  | .setVar key value => s.set key (.int value)
  | _ => s

def Instruction.changesState : Instruction → Bool
  | setFlag .. | setVar .. => true
  | _ => false

/-- One step of a trace: what was shown, and the state after it. -/
structure TraceStep where
  step : Nat
  view : View
  state : StateDigest
  deriving DecidableEq, Repr

def TraceStep.toJson (t : TraceStep) : Json := .obj [
  ("step", .int t.step), ("view", t.view.toJson), ("state", t.state.toJson)]

end Narrative

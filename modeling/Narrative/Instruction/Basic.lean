import Narrative.Predicate.Basic

namespace Narrative

structure Dialogue where
  character : Option String
  text : String
  emotion : Option String
  deriving DecidableEq, Repr

/-- Clears the stage of all but the characters and audio sources listed. -/
structure Clear where
  keepCharacters : List String
  keepAudio : List String
  deriving DecidableEq, Repr

/-- An action of the host, named by its handler. -/
structure CustomAction where
  handler : String
  args : List String
  id : Option String
  /-- Of several calls only the last matters. -/
  latestOnly : Bool
  skipOnRestore : Bool
  requiresUserAction : Bool
  deriving DecidableEq, Repr

/-- Two calls are the same if their ids agree or, where one has none, their handlers and arguments. -/
def CustomAction.sameCall (a b : CustomAction) : Bool :=
  match a.id, b.id with
  | some i, some j => i = j
  | _, _ => a.handler = b.handler && a.args = b.args

/-- A way to go on that a choice offers. -/
structure Branch (ι : Type) where
  label : String
  actions : List ι
  /-- The branch can be taken while this holds. -/
  active : Option Predicate
  /-- The branch is shown while this holds. -/
  visible : Option Predicate
  onSelect : Option String
  illustration : Option String

structure Choice (ι : Type) where
  prompt : Option String
  branches : List (Branch ι)

/-- A branching that the player state decides. -/
structure Condition (ι : Type) where
  selector : Selector
  variants : List (String × List ι)

inductive Instruction where
  | dialogue (line : Dialogue)
  | text (text : String)
  | input (question target : String)
  | choice (choice : Choice Instruction)
  | vibrate (pattern : List UInt64)
  | condition (condition : Condition Instruction)
  /-- Runs a scene and comes back. -/
  | block (scene : String)
  /-- Leaves the innermost branch or block. -/
  | exit
  | jump (scene : String)
  | finish
  | showBackground (background : String)
  | showCharacter (character : String) (emotion style : Option String)
  | hideCharacter (character : String) (duration : Option UInt64)
  | animateCharacter (character : String) (classes : List String) (timeout : UInt64)
  | playMusic (source : String)
  | pauseMusic (source : String)
  | stopMusic (source : String)
  | playSound (source : String) (looped : Bool)
  | pauseSound (source : String)
  | stopSound (source : String)
  | voice (source : String)
  | stopVoice
  | preload (source : String)
  | wait (time : UInt64)
  | clear (clear : Clear)
  | setFlag (key : String) (value : Bool)
  | setVar (key : String) (value : Int64)
  | custom (action : CustomAction)

namespace Branch

variable {ι : Type}

def isActive (s : PlayerState) (b : Branch ι) : Bool := b.active.all (Predicate.holds s)

def isVisible (s : PlayerState) (b : Branch ι) : Bool := b.visible.all (Predicate.holds s)

end Branch

namespace Choice

variable {ι : Type}

/-- The branches shown, with their numbers. -/
def shown (s : PlayerState) (c : Choice ι) : List (Branch ι × Nat) :=
  c.branches.zipIdx.filter fun b => b.1.isVisible s

/-- Whether the player may take a branch now. -/
def offers (s : PlayerState) (c : Choice ι) (index : Nat) : Bool :=
  match c.branches[index]? with
  | some b => b.isVisible s && b.isActive s
  | none => false

end Choice

namespace Condition

variable {ι : Type}

def variant? (key : String) (c : Condition ι) : Option (List ι) := Keyed.lookup key c.variants

end Condition

namespace Instruction

/-- The tag of an instruction in a script. -/
def name : Instruction → String
  | dialogue _ => "dialogue"
  | text _ => "text"
  | input .. => "input"
  | choice _ => "choice"
  | vibrate _ => "vibrate"
  | condition _ => "condition"
  | block _ => "block"
  | exit => "exit"
  | jump _ => "jump"
  | finish => "end"
  | showBackground _ => "show_background"
  | showCharacter .. => "show_character"
  | hideCharacter .. => "hide_character"
  | animateCharacter .. => "animate_character"
  | playMusic _ => "play_music"
  | pauseMusic _ => "pause_music"
  | stopMusic _ => "stop_music"
  | playSound .. => "play_sound"
  | pauseSound _ => "pause_sound"
  | stopSound _ => "stop_sound"
  | voice _ => "voice"
  | stopVoice => "stop_voice"
  | preload _ => "preload"
  | wait _ => "wait"
  | clear _ => "clear"
  | setFlag .. => "set_flag"
  | setVar .. => "set_var"
  | custom _ => "custom"

/-- Kinds that a restore never runs again silently. -/
def isSkippedOnRestore : Instruction → Bool
  | dialogue _ | choice _ | input .. | vibrate _ | text _ => true
  | _ => false

def requiresUserAction : Instruction → Bool
  | custom a => a.requiresUserAction
  | _ => false

/-- Left out of a replay unless the story rests on it. -/
def isInteractive (i : Instruction) : Bool := i.isSkippedOnRestore || i.requiresUserAction

/-- Play stops here for the player. Vibration is left out of replays but stops nothing. -/
def isBlocking : Instruction → Bool
  | dialogue _ | choice _ | input .. | text _ => true
  | i => i.requiresUserAction

/-- Moves the path and shows nothing. -/
def isControl : Instruction → Bool
  | condition _ | block _ | exit | jump _ | finish => true
  | _ => false

/-- The instruction lists inside an instruction, each with its label. -/
def nested : Instruction → List (String × List Instruction)
  | choice c => c.branches.map fun b => (b.label, b.actions)
  | condition c => c.variants
  | _ => []

end Instruction

/-- Something the renderer has to load. -/
inductive Asset
  | image (path : String)
  | character (name : String) (emotion : Option String)
  | audio (path : String)
  deriving DecidableEq, Repr

/-- What an instruction needs loaded before it runs. A line of dialogue needs a portrait only if it
names both a character and an emotion. -/
def Instruction.assets : Instruction → List Asset
  | showBackground b => [.image b]
  | showCharacter c emotion _ => [.character c emotion]
  | dialogue ⟨some c, _, some emotion⟩ => [.character c (some emotion)]
  | playMusic s | playSound s _ | voice s => [.audio s]
  | preload s => [.image s]
  | choice c => c.branches.filterMap fun b => b.illustration.map .image
  | _ => []

end Narrative

import Narrative.History
import Narrative.Instruction.Document

namespace Narrative

/-- The characters, music and sounds that are on stage after a replay. -/
structure KeepSets where
  characters : NameSet
  music : NameSet
  sounds : NameSet
  deriving DecidableEq, Repr

def KeepSets.empty : KeepSets := ⟨.empty, .empty, .empty⟩

/-- Whether a custom action is left out of a replay, given what comes after it. -/
abbrev RestorePolicy := CustomAction → List Instruction → Bool

namespace RestorePolicy

/-- Leaves out the actions that are marked so. -/
def marked : RestorePolicy := fun a _ => a.skipOnRestore

end RestorePolicy

namespace Instruction

/-- What an instruction makes of a stage, one thing at a time. -/
inductive Effect
  | character (name : String)
  | music (source : String)
  | sound (source : String)
  | voice
  | background
  | preload (source : String)
  | animation (character : String)
  deriving DecidableEq, Repr

/-- The thing an instruction sets, so that the last one to set it wins. -/
def effect? : Instruction → Option Effect
  | showCharacter c _ _ | hideCharacter c _ => some (.character c)
  | playMusic s | pauseMusic s | stopMusic s => some (.music s)
  | playSound s _ | pauseSound s | stopSound s => some (.sound s)
  | voice _ | stopVoice => some .voice
  | showBackground _ => some .background
  | preload s => some (.preload s)
  | animateCharacter c _ _ => some (.animation c)
  | _ => none

/-- Whether clearing the stage puts an end to an effect. -/
def Effect.endedBy (c : Clear) : Effect → Bool
  | character name => ! c.keepCharacters.contains name
  | music source | sound source => ! c.keepAudio.contains source
  | _ => false

/-- Whether an instruction overrides an earlier one with this effect. Showing or hiding a character
also ends its animation. -/
def overrides (later : Instruction) (e : Effect) : Bool :=
  match later, e with
  | clear c, e => e.endedBy c
  | showCharacter c _ _, .animation name | hideCharacter c _, .animation name => c = name
  | i, e => i.effect? = some e

def isCallOf (a : CustomAction) : Instruction → Bool
  | custom b => a.sameCall b
  | _ => false

end Instruction

/-- Whether an instruction has nothing left to do after those that follow it. -/
def superseded (policy : RestorePolicy) (i : Instruction) (later : List Instruction) : Bool :=
  match i with
  | .custom a => (a.latestOnly && later.any (Instruction.isCallOf a)) || policy a later
  | i =>
    match i.effect? with
    | some e => later.any fun next => next.overrides e
    | none => false

namespace Compaction

variable {π : Type}

/-- The entries of a history that a replay runs. -/
def queue (policy : RestorePolicy) : List (Entry π) → List (Entry π)
  | [] => []
  | e :: rest =>
    if (e.interactive && ! e.preserved)
        || superseded policy e.instruction (rest.map Entry.instruction) then
      queue policy rest
    else e :: queue policy rest

/-- What a queue of instructions puts on stage. -/
def keepSets (queue : List Instruction) : KeepSets where
  characters := NameSet.ofList (queue.filterMap fun | .showCharacter c _ _ => some c | _ => none)
  music := NameSet.ofList (queue.filterMap fun | .playMusic s => some s | _ => none)
  sounds := NameSet.ofList (queue.filterMap fun | .playSound s _ => some s | _ => none)

end Compaction

/-- What to run to bring the stage back, and what to leave on it before. -/
structure RestorePlan where
  queue : List Instruction
  keep : KeepSets

namespace RestorePlan

def empty : RestorePlan := ⟨[], .empty⟩

def ofHistory {π : Type} (policy : RestorePolicy) (h : List (Entry π)) : RestorePlan :=
  let queue := (Compaction.queue policy h).map Entry.instruction
  ⟨queue, Compaction.keepSets queue⟩

def ofPath (policy : RestorePolicy) (s : Script) (p : Path) : Except PathFault RestorePlan := do
  .ok (ofHistory policy (← History.ofPath s p).silent)

end RestorePlan

def KeepSets.toJson (k : KeepSets) : Json := .obj [
  ("characters", .names k.characters.names), ("music", .names k.music.names),
  ("sounds", .names k.sounds.names)]

def RestorePlan.toJson (p : RestorePlan) : Json := .obj [
  ("queue", .arr (p.queue.map Instruction.toJson)), ("keep", p.keep.toJson)]

end Narrative

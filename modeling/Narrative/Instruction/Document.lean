import Narrative.Instruction.Basic
import Narrative.Predicate.Document

namespace Narrative

open Datum (ofText? ofTexts ofWord ofInt64 orNull)

def Dialogue.parts (d : Dialogue) : List Datum :=
  [ofText? d.character, .text d.text, ofText? d.emotion]

def Dialogue.ofParts? : List Datum → Option Dialogue
  | [character, .text text, emotion] => do
    some ⟨← orNull Datum.text? character, text, ← orNull Datum.text? emotion⟩
  | _ => none

def Clear.parts (c : Clear) : List Datum := [ofTexts c.keepCharacters, ofTexts c.keepAudio]

def Clear.ofParts? : List Datum → Option Clear
  | [characters, audio] => do some ⟨← characters.texts?, ← audio.texts?⟩
  | _ => none

namespace CustomAction

def parts (a : CustomAction) : List Datum :=
  [.text a.handler, ofTexts a.args, ofText? a.id, .bool a.latestOnly, .bool a.skipOnRestore,
    .bool a.requiresUserAction]

def ofParts? : List Datum → Option CustomAction
  | [.text handler, args, id, .bool latestOnly, .bool skipOnRestore, .bool requiresUserAction] => do
    some ⟨handler, ← args.texts?, ← orNull Datum.text? id, latestOnly, skipOnRestore,
      requiresUserAction⟩
  | _ => none

def ofDatum? : Datum → Option CustomAction
  | .record ps => ofParts? ps
  | _ => none

def ofText (text : String) : Except Fault CustomAction :=
  Schema.ofText (.named .custom) ofDatum? text

end CustomAction

namespace Instruction

mutual

def parts : Instruction → List Datum
  | dialogue d => d.parts
  | text t => [.text t]
  | input question target => [.text question, .text target]
  | choice ⟨prompt, branches⟩ => [ofText? prompt, .list (branchesToData branches)]
  | vibrate pattern => [.list (pattern.map ofWord)]
  | condition ⟨selector, variants⟩ => [selector.toDatum, .dict (variantsToData variants)]
  | block scene | jump scene => [.text scene]
  | exit | finish | stopVoice => []
  | showBackground b => [.text b]
  | showCharacter c emotion style => [.text c, ofText? emotion, ofText? style]
  | hideCharacter c duration => [.text c, match duration with | none => .null | some d => ofWord d]
  | animateCharacter c classes timeout => [.text c, ofTexts classes, ofWord timeout]
  | playMusic s | pauseMusic s | stopMusic s | pauseSound s | stopSound s | voice s | preload s =>
    [.text s]
  | playSound s looped => [.text s, .bool looped]
  | wait time => [ofWord time]
  | clear c => c.parts
  | setFlag key value => [.text key, .bool value]
  | setVar key value => [.text key, ofInt64 value]
  | custom a => a.parts

def toData : List Instruction → List Datum
  | [] => []
  | i :: rest => .case (some i.name) (parts i) :: toData rest

def branchToDatum : Branch Instruction → Datum
  | ⟨label, actions, active, visible, onSelect, illustration⟩ =>
    .record [.text label, .list (toData actions), Predicate.optional active,
      Predicate.optional visible, ofText? onSelect, ofText? illustration]

def branchesToData : List (Branch Instruction) → List Datum
  | [] => []
  | b :: rest => branchToDatum b :: branchesToData rest

def variantsToData : List (String × List Instruction) → List (String × Datum)
  | [] => []
  | (key, actions) :: rest => (key, .list (toData actions)) :: variantsToData rest

end

def toDatum (i : Instruction) : Datum := .case (some i.name) i.parts

mutual

def ofDatum? : Datum → Option Instruction
  | .case (some tag) parts =>
    match tag, parts with
    | "choice", [prompt, .list branches] => do
      some (choice ⟨← orNull Datum.text? prompt, ← branchesOf? branches⟩)
    | "condition", [selector, .dict variants] => do
      some (condition ⟨← Selector.ofDatum? selector, ← variantsOf? variants⟩)
    | "dialogue", ps => do some (dialogue (← Dialogue.ofParts? ps))
    | "text", [.text t] => some (text t)
    | "input", [.text question, .text target] => some (input question target)
    | "vibrate", [.list pattern] => do some (vibrate (← pattern.mapM Datum.word?))
    | "block", [.text scene] => some (block scene)
    | "exit", [] => some exit
    | "jump", [.text scene] => some (jump scene)
    | "end", [] => some finish
    | "show_background", [.text b] => some (showBackground b)
    | "show_character", [.text c, emotion, style] => do
      some (showCharacter c (← orNull Datum.text? emotion) (← orNull Datum.text? style))
    | "hide_character", [.text c, duration] => do
      some (hideCharacter c (← orNull Datum.word? duration))
    | "animate_character", [.text c, classes, timeout] => do
      some (animateCharacter c (← classes.texts?) (← timeout.word?))
    | "play_music", [.text s] => some (playMusic s)
    | "pause_music", [.text s] => some (pauseMusic s)
    | "stop_music", [.text s] => some (stopMusic s)
    | "play_sound", [.text s, .bool looped] => some (playSound s looped)
    | "pause_sound", [.text s] => some (pauseSound s)
    | "stop_sound", [.text s] => some (stopSound s)
    | "voice", [.text s] => some (voice s)
    | "stop_voice", [] => some stopVoice
    | "preload", [.text s] => some (preload s)
    | "wait", [time] => do some (wait (← time.word?))
    | "clear", ps => do some (clear (← Clear.ofParts? ps))
    | "set_flag", [.text key, .bool value] => some (setFlag key value)
    | "set_var", [.text key, value] => do some (setVar key (← value.int64?))
    | "custom", ps => do some (custom (← CustomAction.ofParts? ps))
    | _, _ => none
  | _ => none

def ofData? : List Datum → Option (List Instruction)
  | [] => some []
  | d :: rest => do some ((← ofDatum? d) :: (← ofData? rest))

def branchOf? : Datum → Option (Branch Instruction)
  | .record [.text label, .list actions, active, visible, onSelect, illustration] => do
    some ⟨label, ← ofData? actions, ← orNull Predicate.ofDatum? active,
      ← orNull Predicate.ofDatum? visible, ← orNull Datum.text? onSelect,
      ← orNull Datum.text? illustration⟩
  | _ => none

def branchesOf? : List Datum → Option (List (Branch Instruction))
  | [] => some []
  | d :: rest => do some ((← branchOf? d) :: (← branchesOf? rest))

def variantsOf? : List (String × Datum) → Option (List (String × List Instruction))
  | [] => some []
  | (key, .list actions) :: rest => do some ((key, ← ofData? actions) :: (← variantsOf? rest))
  | _ => none

end

def ofText (text : String) : Except Fault Instruction :=
  Schema.ofText (.named .instruction) ofDatum? text

def toJson (i : Instruction) : Json := Format.toJson Schema.book (.named .instruction) i.toDatum

/-- A list of instructions without groups. -/
def listOfText (text : String) : Except Fault (List Instruction) :=
  Schema.ofText (.list (.named .instruction))
    (fun | .list ds => ofData? ds | _ => none) text

end Instruction

namespace Choice

/-- A choice on its own, without the tag of an instruction. -/
def ofText (text : String) : Except Fault (Choice Instruction) :=
  Schema.ofText (.named .choice)
    (fun
      | .record [prompt, .list branches] => do
        some ⟨← orNull Datum.text? prompt, ← Instruction.branchesOf? branches⟩
      | _ => none) text

def toJson (c : Choice Instruction) : Json :=
  Format.toJson Schema.book (.named .choice)
    (.record [ofText? c.prompt, .list (Instruction.branchesToData c.branches)])

end Choice

def Asset.toJson : Asset → Json
  | image path => .obj [("kind", .str "image"), ("path", .str path)]
  | character name emotion =>
    .obj [("kind", .str "character"), ("name", .str name), ("emotion", .ofOption .str emotion)]
  | audio path => .obj [("kind", .str "audio"), ("path", .str path)]

end Narrative

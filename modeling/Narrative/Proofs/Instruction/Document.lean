import Narrative.Instruction.Document
import Narrative.Proofs.Predicate.Document

namespace Narrative

open Datum (ofWord ofInt64 ofText? orNull)
open Schema (fits_tagged fits_word fits_int64 fits_texts allows_text? book)

theorem Dialogue.ofParts?_parts (d : Dialogue) : ofParts? d.parts = some d := by
  simp [parts, ofParts?]

theorem Clear.ofParts?_parts (c : Clear) : ofParts? c.parts = some c := by
  simp [parts, ofParts?]

theorem CustomAction.ofParts?_parts (a : CustomAction) : ofParts? a.parts = some a := by
  simp [parts, ofParts?]

namespace Instruction

mutual

/-- The variants of a condition are a map, with its keys in order; so at every depth. -/
def InOrder : Instruction → Prop
  | choice ⟨_, branches⟩ => BranchesInOrder branches
  | condition ⟨_, variants⟩ => Keyed.Ordered variants ∧ ListsInOrder variants
  | _ => True

def AllInOrder : List Instruction → Prop
  | [] => True
  | i :: rest => InOrder i ∧ AllInOrder rest

def BranchInOrder : Branch Instruction → Prop
  | ⟨_, actions, _, _, _, _⟩ => AllInOrder actions

def BranchesInOrder : List (Branch Instruction) → Prop
  | [] => True
  | b :: rest => BranchInOrder b ∧ BranchesInOrder rest

def ListsInOrder : List (String × List Instruction) → Prop
  | [] => True
  | (_, body) :: rest => AllInOrder body ∧ ListsInOrder rest

end

theorem variantsToData_eq (variants : List (String × List Instruction)) :
    variantsToData variants = variants.map fun p => (p.1, .list (toData p.2)) := by
  induction variants with
  | nil => rfl
  | cons p rest ih => rw [variantsToData, ih, List.map_cons]

theorem ordered_variantsToData {variants : List (String × List Instruction)}
    (h : Keyed.Ordered variants) : Keyed.Ordered (variantsToData variants) := by
  rw [variantsToData_eq]
  exact List.pairwise_map.mpr h

mutual

theorem ofDatum?_toDatum : ∀ i : Instruction, ofDatum? (.case (some i.name) i.parts) = some i
  | dialogue d => by
    change (do some (dialogue (← Dialogue.ofParts? d.parts))) = _
    rw [d.ofParts?_parts]
    rfl
  | text t => rfl
  | input question target => rfl
  | choice ⟨prompt, branches⟩ => by
    change (do some (choice ⟨← orNull Datum.text? (ofText? prompt),
      ← branchesOf? (branchesToData branches)⟩)) = _
    rw [Datum.orNull_ofText?, branchesOf?_branchesToData branches]
    rfl
  | vibrate pattern => by
    have hread : (pattern.map ofWord).mapM Datum.word? = some pattern :=
      mapM_map_eq_some fun n _ => Datum.word?_ofWord n
    change (do some (vibrate (← (pattern.map ofWord).mapM Datum.word?))) = _
    rw [hread]
    rfl
  | condition ⟨selector, variants⟩ => by
    change (do some (condition ⟨← Selector.ofDatum? selector.toDatum,
      ← variantsOf? (variantsToData variants)⟩)) = _
    rw [selector.ofDatum?_toDatum, variantsOf?_variantsToData variants]
    rfl
  | block scene => rfl
  | exit => rfl
  | jump scene => rfl
  | finish => rfl
  | showBackground b => rfl
  | showCharacter c emotion style => by
    change (do some (showCharacter c (← orNull Datum.text? (ofText? emotion))
      (← orNull Datum.text? (ofText? style)))) = _
    rw [Datum.orNull_ofText?, Datum.orNull_ofText?]
    rfl
  | hideCharacter c none => rfl
  | hideCharacter c (some duration) => by
    change (do some (hideCharacter c (← (ofWord duration).word?.map some))) = _
    rw [Datum.word?_ofWord]
    rfl
  | animateCharacter c classes timeout => by
    change (do some (animateCharacter c (← (Datum.ofTexts classes).texts?)
      (← (ofWord timeout).word?))) = _
    rw [Datum.texts?_ofTexts, Datum.word?_ofWord]
    rfl
  | playMusic s => rfl
  | pauseMusic s => rfl
  | stopMusic s => rfl
  | playSound s looped => rfl
  | pauseSound s => rfl
  | stopSound s => rfl
  | voice s => rfl
  | stopVoice => rfl
  | preload s => rfl
  | wait time => by
    change (do some (wait (← (ofWord time).word?))) = _
    rw [Datum.word?_ofWord]
    rfl
  | clear c => by
    change (do some (clear (← Clear.ofParts? c.parts))) = _
    rw [c.ofParts?_parts]
    rfl
  | setFlag key value => rfl
  | setVar key value => by
    change (do some (setVar key (← (ofInt64 value).int64?))) = _
    rw [Datum.int64?_ofInt64]
    rfl
  | custom a => by
    change (do some (custom (← CustomAction.ofParts? a.parts))) = _
    rw [a.ofParts?_parts]
    rfl

theorem ofData?_toData : ∀ body : List Instruction, ofData? (toData body) = some body
  | [] => rfl
  | i :: rest => by simp [toData, ofData?, ofDatum?_toDatum i, ofData?_toData rest]

theorem branchOf?_branchToDatum : ∀ b : Branch Instruction, branchOf? (branchToDatum b) = some b
  | ⟨label, actions, active, visible, onSelect, illustration⟩ => by
    simp [branchToDatum, branchOf?, ofData?_toData actions, Predicate.orNull_optional]

theorem branchesOf?_branchesToData :
    ∀ branches : List (Branch Instruction), branchesOf? (branchesToData branches) = some branches
  | [] => rfl
  | b :: rest => by
    simp [branchesToData, branchesOf?, branchOf?_branchToDatum b, branchesOf?_branchesToData rest]

theorem variantsOf?_variantsToData :
    ∀ variants : List (String × List Instruction), variantsOf? (variantsToData variants) = some variants
  | [] => rfl
  | (key, body) :: rest => by
    simp [variantsToData, variantsOf?, ofData?_toData body, variantsOf?_variantsToData rest]

end

theorem fits_alone {i : Instruction} {tag : String} {body : Option (Record Schema)}
    (htag : i.name = tag) (hcase : Schema.instructionCases.find? (·.1 = tag) = some (tag, body))
    (hparts : List.Forall₂ (Field.Allows (Fits book)) (Shape.bodyFields body) i.parts) :
    Fits book (.named .instruction) (.case (some i.name) i.parts) := by
  subst htag
  exact fits_tagged rfl hcase hparts

/-- The one field of an instruction that names something. -/
theorem fits_name {field : String} (s : String) :
    List.Forall₂ (Field.Allows (Fits book)) [.required field .text] [.text s] :=
  .cons (.value (.text s)) .nil

mutual

theorem fits : ∀ i : Instruction, i.InOrder →
    Fits book (.named .instruction) (.case (some i.name) i.parts)
  | dialogue d, _ => fits_alone rfl rfl (.cons (allows_text? "character" d.character)
    (.cons (.value (.text d.text)) (.cons (allows_text? "emotion" d.emotion) .nil)))
  | text t, _ => fits_alone rfl rfl (fits_name t)
  | input question target, _ => fits_alone rfl rfl
    (.cons (.value (.text question)) (.cons (.value (.text target)) .nil))
  | choice ⟨prompt, branches⟩, h => fits_alone rfl rfl (.cons (allows_text? "prompt" prompt)
    (.cons (.value (.list (fits_branches branches h))) .nil))
  | vibrate _, _ => fits_alone rfl rfl
    (.cons (.value (.list (List.forall_mem_map.mpr fun n _ => fits_word (.inl rfl) n))) .nil)
  | condition ⟨selector, variants⟩, h => fits_alone rfl rfl (.cons (.value selector.fits)
    (.cons (.value (.dict (ordered_variantsToData h.1) (fits_variants variants h.2))) .nil))
  | block scene, _ => fits_alone rfl rfl (fits_name scene)
  | exit, _ => fits_alone rfl rfl .nil
  | jump scene, _ => fits_alone rfl rfl (fits_name scene)
  | finish, _ => fits_alone rfl rfl .nil
  | showBackground b, _ => fits_alone rfl rfl (fits_name b)
  | showCharacter c emotion style, _ => fits_alone rfl rfl (.cons (.value (.text c))
    (.cons (allows_text? "emotion" emotion) (.cons (allows_text? "style" style) .nil)))
  | hideCharacter c none, _ => fits_alone rfl rfl (.cons (.value (.text c)) (.cons .null .nil))
  | hideCharacter c (some duration), _ => fits_alone rfl rfl (.cons (.value (.text c))
    (.cons (.value (fits_word (.inl rfl) duration)) .nil))
  | animateCharacter c classes timeout, _ => fits_alone rfl rfl (.cons (.value (.text c))
    (.cons (.value (fits_texts classes)) (.cons (.value (fits_word (.inl rfl) timeout)) .nil)))
  | playMusic s, _ => fits_alone rfl rfl (fits_name s)
  | pauseMusic s, _ => fits_alone rfl rfl (fits_name s)
  | stopMusic s, _ => fits_alone rfl rfl (fits_name s)
  | playSound s looped, _ => fits_alone rfl rfl
    (.cons (.value (.text s)) (.cons (.value (.bool looped)) .nil))
  | pauseSound s, _ => fits_alone rfl rfl (fits_name s)
  | stopSound s, _ => fits_alone rfl rfl (fits_name s)
  | voice s, _ => fits_alone rfl rfl (fits_name s)
  | stopVoice, _ => fits_alone rfl rfl .nil
  | preload s, _ => fits_alone rfl rfl (fits_name s)
  | wait time, _ => fits_alone rfl rfl (.cons (.value (fits_word (.inl rfl) time)) .nil)
  | clear c, _ => fits_alone rfl rfl
    (.cons (.value (fits_texts c.keepCharacters)) (.cons (.value (fits_texts c.keepAudio)) .nil))
  | setFlag key value, _ => fits_alone rfl rfl
    (.cons (.value (.text key)) (.cons (.value (.bool value)) .nil))
  | setVar key value, _ => fits_alone rfl rfl
    (.cons (.value (.text key)) (.cons (.value (fits_int64 value)) .nil))
  | custom a, _ => fits_alone rfl rfl (.cons (.value (.text a.handler))
    (.cons (.value (fits_texts a.args)) (.cons (allows_text? "id" a.id)
      (.cons (.value (.bool a.latestOnly)) (.cons (.value (.bool a.skipOnRestore))
        (.cons (.value (.bool a.requiresUserAction)) .nil))))))

theorem fits_list : ∀ body : List Instruction, AllInOrder body →
    ∀ d ∈ toData body, Fits book (.named .instruction) d
  | [], _ => nofun
  | i :: rest, h => by
    rw [toData, List.forall_mem_cons]
    exact ⟨fits i h.1, fits_list rest h.2⟩

theorem fits_branch : ∀ b : Branch Instruction, BranchInOrder b →
    Fits book (.named .branch) (branchToDatum b)
  | ⟨label, actions, active, visible, onSelect, illustration⟩, h => by
    rw [branchToDatum]
    exact .record rfl (.cons (.value (.text label))
      (.cons (.value (.grouped trivial (fits_list actions h)))
        (.cons (Predicate.allows_optional "active" active)
          (.cons (Predicate.allows_optional "visible" visible)
            (.cons (allows_text? "on_select" onSelect)
              (.cons (allows_text? "illustration" illustration) .nil))))))

theorem fits_branches : ∀ branches : List (Branch Instruction), BranchesInOrder branches →
    ∀ d ∈ branchesToData branches, Fits book (.named .branch) d
  | [], _ => nofun
  | b :: rest, h => by
    rw [branchesToData, List.forall_mem_cons]
    exact ⟨fits_branch b h.1, fits_branches rest h.2⟩

theorem fits_variants : ∀ variants : List (String × List Instruction), ListsInOrder variants →
    ∀ e ∈ variantsToData variants, Fits book Schema.instructions e.2
  | [], _ => nofun
  | (key, body) :: rest, h => by
    rw [variantsToData, List.forall_mem_cons]
    exact ⟨.grouped trivial (fits_list body h.1), fits_variants rest h.2⟩

end

end Instruction

end Narrative

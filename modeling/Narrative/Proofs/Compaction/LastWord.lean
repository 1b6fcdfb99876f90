import Narrative.Proofs.Compaction

namespace Narrative

open Instruction (Effect)

variable {π : Type}

namespace Instruction

/-- Who or what an instruction acts on. -/
inductive ActsOn : Instruction → Effect → Prop
  | showCharacter {name : String} {emotion style : Option String} :
    ActsOn (.showCharacter name emotion style) (.character name)
  | hideCharacter {name : String} {duration : Option UInt64} :
    ActsOn (.hideCharacter name duration) (.character name)
  | animateCharacter {name : String} {classes : List String} {timeout : UInt64} :
    ActsOn (.animateCharacter name classes timeout) (.animation name)
  | playMusic {source : String} : ActsOn (.playMusic source) (.music source)
  | pauseMusic {source : String} : ActsOn (.pauseMusic source) (.music source)
  | stopMusic {source : String} : ActsOn (.stopMusic source) (.music source)
  | playSound {source : String} {looped : Bool} : ActsOn (.playSound source looped) (.sound source)
  | pauseSound {source : String} : ActsOn (.pauseSound source) (.sound source)
  | stopSound {source : String} : ActsOn (.stopSound source) (.sound source)
  | voice {source : String} : ActsOn (.voice source) .voice
  | stopVoice : ActsOn .stopVoice .voice
  | showBackground {name : String} : ActsOn (.showBackground name) .background
  | preload {source : String} : ActsOn (.preload source) (.preload source)

/-- What else an instruction puts an end to: clearing the stage to what it does not keep, and showing or
hiding a character to how it moves. -/
inductive Ends : Instruction → Effect → Prop
  | clearCharacter {c : Clear} {name : String} (h : name ∉ c.keepCharacters) :
    Ends (.clear c) (.character name)
  | clearMusic {c : Clear} {source : String} (h : source ∉ c.keepAudio) :
    Ends (.clear c) (.music source)
  | clearSound {c : Clear} {source : String} (h : source ∉ c.keepAudio) :
    Ends (.clear c) (.sound source)
  | showCharacter {name : String} {emotion style : Option String} :
    Ends (.showCharacter name emotion style) (.animation name)
  | hideCharacter {name : String} {duration : Option UInt64} :
    Ends (.hideCharacter name duration) (.animation name)

theorem actsOn_iff {i : Instruction} {e : Effect} : i.ActsOn e ↔ i.effect? = some e := by
  constructor
  · intro h
    cases h <;> rfl
  · intro h
    cases i <;> cases h <;> constructor

instance (i : Instruction) (e : Effect) : Decidable (i.ActsOn e) :=
  decidable_of_iff _ actsOn_iff.symm

theorem overrides_iff {i : Instruction} {e : Effect} :
    i.overrides e = true ↔ i.ActsOn e ∨ i.Ends e := by
  constructor
  · intro h
    by_cases hacts : i.ActsOn e
    · exact .inl hacts
    · refine .inr ?_
      rw [actsOn_iff] at hacts
      cases i <;> cases e <;> simp_all [overrides, effect?, Effect.endedBy] <;>
        constructor <;> assumption
  · rintro (h | h)
    · exact overrides_of_effect? (actsOn_iff.mp h)
    · cases h <;> simp_all [overrides, Effect.endedBy]

end Instruction

namespace Compaction

variable {policy : RestorePolicy} {h before rest after : List (Entry π)} {x : Entry π} {e : Effect}

/-- The entries of a history that act on a thing. -/
def actingOn (e : Effect) (h : List (Entry π)) : List (Entry π) :=
  h.filter fun x => x.instruction.ActsOn e

theorem actingOn_eq_nil (hnone : ∀ x ∈ h, ¬ x.instruction.ActsOn e) : actingOn e h = [] :=
  List.filter_eq_nil_iff.mpr fun x hx => by simpa using hnone x hx

theorem actingOn_queue_eq_nil (policy : RestorePolicy) (hnone : ∀ x ∈ h, ¬ x.instruction.ActsOn e) :
    actingOn e (queue policy h) = [] :=
  actingOn_eq_nil fun x hx => hnone x ((queue_sublist policy h).subset hx)

/-- What acts on a thing is kept just if nothing overrides it later. -/
theorem queue_cons_of_actsOn (hx : x.interactive = x.instruction.isInteractive)
    (hacts : x.instruction.ActsOn e) :
    queue policy (x :: rest) =
      if ∃ y ∈ rest, y.instruction.overrides e = true then queue policy rest
      else x :: queue policy rest := by
  have heffect := Instruction.actsOn_iff.mp hacts
  have hsilent : x.interactive = false := by
    rw [hx, Bool.eq_false_iff]
    intro hi
    cases (Instruction.overrides_of_isInteractive hi e).symm.trans
      (Instruction.overrides_of_effect? heffect)
  have hany : (rest.map Entry.instruction).any (fun i => i.overrides e) = true ↔
      ∃ y ∈ rest, y.instruction.overrides e = true := by simp
  rw [queue, hsilent, Bool.false_and, Bool.false_or, superseded_of_effect? heffect]
  exact if_congr hany rfl rfl

/-- What comes before the last entry that acts on a thing is dropped if it acts on it too. -/
theorem actingOn_queue_append (hm : History.Marked (before ++ rest))
    (hacts : ∃ y ∈ rest, y.instruction.ActsOn e) :
    actingOn e (queue policy (before ++ rest)) = actingOn e (queue policy rest) := by
  induction before with
  | nil => rfl
  | cons x before ih =>
    have hmore := ih fun y hy => hm y (List.mem_cons_of_mem _ hy)
    rw [List.cons_append]
    by_cases hx : x.instruction.ActsOn e
    · obtain ⟨y, hy, hyacts⟩ := hacts
      have hlater : ∃ y ∈ before ++ rest, y.instruction.overrides e = true :=
        ⟨y, List.mem_append_right _ hy, Instruction.overrides_iff.mpr (.inl hyacts)⟩
      rw [queue_cons_of_actsOn (hm x List.mem_cons_self) hx, if_pos hlater, hmore]
    · rw [queue, ← hmore]
      split
      · rfl
      · exact List.filter_cons_of_neg (by simpa using hx)

/-- The last entry that acts on a thing is the only one kept, and is dropped just if a later one puts an
end to what it does. -/
theorem actingOn_queue_last (hm : History.Marked (before ++ x :: after))
    (hacts : x.instruction.ActsOn e) (hlast : ∀ y ∈ after, ¬ y.instruction.ActsOn e) :
    ((∃ y ∈ after, y.instruction.Ends e) → actingOn e (queue policy (before ++ x :: after)) = []) ∧
    ((∀ y ∈ after, ¬ y.instruction.Ends e) →
      actingOn e (queue policy (before ++ x :: after)) = [x]) := by
  have hx := hm x (List.mem_append_right _ List.mem_cons_self)
  have hnone := actingOn_queue_eq_nil policy hlast
  rw [actingOn_queue_append hm ⟨x, List.mem_cons_self, hacts⟩, queue_cons_of_actsOn hx hacts]
  constructor
  · rintro ⟨y, hy, hends⟩
    rw [if_pos ⟨y, hy, Instruction.overrides_iff.mpr (.inr hends)⟩, hnone]
  · intro hkept
    have hover : ¬ ∃ y ∈ after, y.instruction.overrides e = true := by
      rintro ⟨y, hy, hover⟩
      exact (Instruction.overrides_iff.mp hover).elim (hlast y hy) (hkept y hy)
    rw [if_neg hover]
    exact (List.filter_cons_of_pos (by simpa using hacts)).trans (congrArg (x :: ·) hnone)

/-- A custom action of which only the latest call matters is not called again after one that is kept. -/
theorem pairwise_queue_custom (policy : RestorePolicy) (h : List (Entry π)) :
    (queue policy h).Pairwise fun x y => ∀ a b, x.instruction = .custom a →
      y.instruction = .custom b → a.latestOnly = true → a.sameCall b = false := by
  induction h with
  | nil => exact .nil
  | cons x rest ih =>
    rw [queue]
    split
    · exact ih
    · rename_i hkeep
      refine ih.cons fun y hy a b ha hb hlatest => ?_
      have hlater := (queue_sublist policy rest).subset hy
      simp only [ha, superseded, hlatest, Bool.true_and, Bool.or_eq_true, not_or,
        List.any_eq_true, not_exists, not_and, Bool.not_eq_true] at hkeep
      have hcall := hkeep.2.1 y.instruction (List.mem_map_of_mem hlater)
      rw [hb] at hcall
      exact hcall

/-- The queue is part of the history, in its order. On each thing it has the last entry that acts on it
and no other, and not even this one if a later entry puts an end to what it does. Behind a custom action
of which only the latest call matters there is no other call of it. -/
theorem queue_has_last_words (policy : RestorePolicy) {h : List (Entry π)} (hm : History.Marked h) :
    (queue policy h).Sublist h ∧
    (∀ e : Effect,
      ((∀ x ∈ h, ¬ x.instruction.ActsOn e) → actingOn e (queue policy h) = []) ∧
      ∀ before x after, h = before ++ x :: after → x.instruction.ActsOn e →
        (∀ y ∈ after, ¬ y.instruction.ActsOn e) →
        ((∃ y ∈ after, y.instruction.Ends e) → actingOn e (queue policy h) = []) ∧
        ((∀ y ∈ after, ¬ y.instruction.Ends e) → actingOn e (queue policy h) = [x])) ∧
    (queue policy h).Pairwise fun x y => ∀ a b, x.instruction = .custom a →
      y.instruction = .custom b → a.latestOnly = true → a.sameCall b = false := by
  refine ⟨queue_sublist policy h, fun e => ⟨actingOn_queue_eq_nil policy, ?_⟩,
    pairwise_queue_custom policy h⟩
  rintro before x after rfl hacts hlast
  exact actingOn_queue_last hm hacts hlast

/-- Clearing the stage takes the music, and leaves the character moving as she was last told to. -/
theorem queue_has_last_words_after_clear :
    let h : List (Entry Nat) :=
      [.showCharacter "ava" none none, .animateCharacter "ava" ["shake"] 300, .playMusic "theme",
        .animateCharacter "ava" ["hop"] 300, .clear ⟨["ava"], []⟩].zipIdx.map
        fun i => ⟨i.2, i.1, i.1.isInteractive, false⟩
    History.Marked h ∧
    actingOn (.animation "ava") (queue .marked h) =
      [⟨3, .animateCharacter "ava" ["hop"] 300, false, false⟩] ∧
    actingOn (.music "theme") (queue .marked h) = [] := by
  intro h
  have hm : History.Marked h := by
    intro x hx
    obtain ⟨i, -, rfl⟩ := List.mem_map.mp hx
    rfl
  have hquiet : ∀ x ∈ h.drop 4, ¬ x.instruction.Ends (.animation "ava") := by
    intro x hx
    obtain rfl := List.mem_singleton.mp hx
    rintro ⟨⟩
  have hcleared : ∃ x ∈ h.drop 3, x.instruction.Ends (.music "theme") :=
    ⟨_, List.mem_cons_of_mem _ List.mem_cons_self, .clearMusic (by simp)⟩
  obtain ⟨-, hlast, -⟩ := queue_has_last_words .marked hm
  have hava := (hlast (.animation "ava")).2 (h.take 3) _ _ rfl .animateCharacter (by decide)
  have htheme := (hlast (.music "theme")).2 (h.take 2) _ _ rfl .playMusic (by decide)
  exact ⟨hm, hava.2 hquiet, htheme.1 hcleared⟩

end Compaction

end Narrative

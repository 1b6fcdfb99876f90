import Narrative.Proofs.Effects

namespace Narrative

open Instruction (last? Effect)

variable {π : Type}

/-- The entries of a history are marked interactive by the kind of their instructions. -/
def History.Marked (h : List (Entry π)) : Prop :=
  ∀ e ∈ h, e.interactive = e.instruction.isInteractive

namespace History

theorem marked_entries (g : Segment) (isLast : Bool) : Marked (g.entries isLast) := by
  intro e he
  obtain ⟨s, _, rfl⟩ := List.mem_map.mp he
  rfl

theorem marked_ofSegments (gs : List Segment) : Marked (ofSegments gs) := by
  induction gs with
  | nil =>
    intro e he
    cases he
  | cons g rest ih =>
    cases rest with
    | nil => exact marked_entries g true
    | cons g' rest =>
      intro e he
      rcases List.mem_append.mp he with he | he
      · exact marked_entries g false e he
      · exact ih e he

theorem marked_ofPath {s : Script} {p : Path} {h : History} (hp : ofPath s p = .ok h) :
    Marked h := by
  rw [ofPath] at hp
  cases hg : segments s .start 0 p with
  | error fault => rw [hg] at hp; cases hp
  | ok gs =>
    rw [hg] at hp
    cases hp
    exact marked_ofSegments gs

theorem marked_silent {h : History} (hm : Marked h) : Marked h.silent := by
  intro e he
  exact hm e (List.mem_filter.mp he).1

end History

namespace Instruction

/-- What waits for the player has no part in the stage. -/
theorem overrides_of_isInteractive {i : Instruction} (hi : i.isInteractive) (e : Effect) :
    i.overrides e = false := by
  cases i <;> simp_all [isInteractive, isSkippedOnRestore, requiresUserAction, overrides, effect?]

end Instruction

theorem superseded_of_effect? {policy : RestorePolicy} {i : Instruction} {e : Effect}
    (h : i.effect? = some e) (later : List Instruction) :
    superseded policy i later = later.any fun next => next.overrides e := by
  cases i <;> simp_all [superseded, Instruction.effect?]

/-- An instruction is dropped only in favour of a later one with the last word on its effect. -/
theorem last?_isSome_of_superseded {policy : RestorePolicy} {i : Instruction} {e : Effect}
    {later : List Instruction} (he : e.isStaged) (hi : i.overrides e = true)
    (hs : superseded policy i later = true) : (last? e later).isSome := by
  rcases Instruction.effect?_of_overrides he hi with ⟨c, rfl⟩ | h
  · cases hs
  · rw [superseded_of_effect? h] at hs
    rw [Instruction.last?_isSome]
    exact hs

/-- Whether keep sets name an effect. -/
def KeepSets.names (k : KeepSets) : Effect → Bool
  | .character c => k.characters.contains c
  | .music m => k.music.contains m
  | .sound n => k.sounds.contains n
  | _ => false

theorem KeepSets.ext_names {k k' : KeepSets} (h : ∀ e, k.names e = k'.names e) : k = k' := by
  have hc : k.characters = k'.characters := NameSet.ext_contains fun x => h (.character x)
  have hm : k.music = k'.music := NameSet.ext_contains fun x => h (.music x)
  have hs : k.sounds = k'.sounds := NameSet.ext_contains fun x => h (.sound x)
  cases k
  cases k'
  simp_all

/-- Keep sets that name all there is on a stage. -/
def Stage.keepSets (s : Stage) : KeepSets := ⟨s.characters, s.music, s.sounds⟩

namespace Compaction

theorem queue_sublist (policy : RestorePolicy) (h : List (Entry π)) : (queue policy h).Sublist h := by
  induction h with
  | nil => exact .slnil
  | cons e rest ih =>
    rw [queue]
    split
    · exact ih.cons e
    · exact ih.cons_cons e

theorem last?_queue (policy : RestorePolicy) {h : List (Entry π)} (hm : History.Marked h)
    {e : Effect} (he : e.isStaged) :
    last? e ((queue policy h).map Entry.instruction) = last? e (h.map Entry.instruction) := by
  induction h with
  | nil => rfl
  | cons x rest ih =>
    have hrest : History.Marked rest := fun y hy => hm y (List.mem_cons_of_mem _ hy)
    have hx : x.interactive = x.instruction.isInteractive := hm x List.mem_cons_self
    rw [queue, List.map_cons, last?]
    split
    · rename_i hdrop
      rw [ih hrest]
      cases ho : x.instruction.overrides e with
      | false => simp
      | true =>
        -- What is dropped and still has an effect gives way to a later instruction.
        have hnot : x.interactive = false := by
          rw [hx, Bool.eq_false_iff]
          intro hi
          rw [Instruction.overrides_of_isInteractive hi] at ho
          cases ho
        rw [hnot, Bool.false_and, Bool.false_or] at hdrop
        have hlater := last?_isSome_of_superseded he ho hdrop
        obtain ⟨j, hj⟩ := Option.isSome_iff_exists.mp hlater
        rw [hj]
        rfl
    · rw [List.map_cons, last?, ih hrest]

theorem last?_of_mem_queue {policy : RestorePolicy} {h : List (Entry π)} {x : Entry π}
    {e : Effect} (hx : x ∈ queue policy h) (hf : x.instruction.effect? = some e) :
    last? e (h.map Entry.instruction) = some x.instruction := by
  induction h with
  | nil => cases hx
  | cons y rest ih =>
    rw [queue] at hx
    rw [List.map_cons, last?]
    split at hx
    · rw [ih hx]
      rfl
    · rename_i hkeep
      rcases List.mem_cons.mp hx with rfl | hx
      · have hs : superseded policy x.instruction (rest.map Entry.instruction) = false := by
          simp_all
        rw [superseded_of_effect? hf, ← Instruction.last?_isSome, Option.isSome_eq_false_iff,
          Option.isNone_iff_eq_none] at hs
        rw [hs, Instruction.overrides_of_effect? hf]
        rfl
      · rw [ih hx]
        rfl

/-- Compaction keeps what brings a thing on stage just if the thing is there in the end. -/
theorem shows_iff_mem_queue (policy : RestorePolicy) {h : List (Entry π)}
    (hm : History.Marked h) {e : Effect} (he : e.isStaged) :
    ((h.map Entry.instruction).foldl Stage.apply .empty).shows e = true ↔
      ∃ i ∈ (queue policy h).map Entry.instruction, i.effect? = some e ∧ i.brings = true := by
  rw [Stage.shows_foldl _ _ he, Stage.shows_empty]
  constructor
  · intro hb
    cases hl : last? e (h.map Entry.instruction) with
    | none => rw [hl] at hb; cases hb
    | some i =>
      rw [hl] at hb
      rw [← last?_queue policy hm he] at hl
      obtain ⟨hmem, ho⟩ := Instruction.overrides_of_last? hl
      refine ⟨i, hmem, ?_, hb⟩
      rcases Instruction.effect?_of_overrides he ho with ⟨c, rfl⟩ | hf
      · cases hb
      · exact hf
  · rintro ⟨i, hi, hf, hb⟩
    obtain ⟨x, hx, rfl⟩ := List.mem_map.mp hi
    rw [last?_of_mem_queue hx hf]
    exact hb

theorem contains_ofList_filterMap {f : Instruction → Option String} {l : List Instruction}
    {name : String} {e : Effect}
    (hf : ∀ i, f i = some name ↔ i.effect? = some e ∧ i.brings = true) :
    (NameSet.ofList (l.filterMap f)).contains name = true ↔
      ∃ i ∈ l, i.effect? = some e ∧ i.brings = true := by
  simp only [NameSet.contains_ofList, List.contains_iff_mem, List.mem_filterMap, hf]

/-- The keep sets of a queue name what its instructions bring on stage. -/
theorem names_keepSets (l : List Instruction) {e : Effect} (he : e.isStaged) :
    (keepSets l).names e = true ↔ ∃ i ∈ l, i.effect? = some e ∧ i.brings = true := by
  cases e with
  | background =>
    constructor
    · intro h
      cases h
    · rintro ⟨i, _, hf, hb⟩
      cases i <;> simp_all [Instruction.effect?, Instruction.brings]
  | voice | preload _ | animation _ => cases he
  | _ =>
    exact contains_ofList_filterMap fun i => by
      cases i <;> simp [Instruction.effect?, Instruction.brings]

theorem foldl_queue (policy : RestorePolicy) {h : List (Entry π)} (hm : History.Marked h)
    (s : Stage) :
    ((queue policy h).map Entry.instruction).foldl Stage.apply s =
      (h.map Entry.instruction).foldl Stage.apply s :=
  Stage.foldl_apply_congr (fun _ he => last?_queue policy hm he) s

theorem keepSets_queue (policy : RestorePolicy) {h : List (Entry π)} (hm : History.Marked h) :
    keepSets ((queue policy h).map Entry.instruction) =
      ((h.map Entry.instruction).foldl Stage.apply .empty).keepSets := by
  have hnames : ∀ e : Effect, e.isStaged →
      (keepSets ((queue policy h).map Entry.instruction)).names e =
        ((h.map Entry.instruction).foldl Stage.apply .empty).shows e := by
    intro e he
    exact Bool.eq_iff_iff.mpr ((names_keepSets _ he).trans (shows_iff_mem_queue policy hm he).symm)
  apply KeepSets.ext_names
  intro e
  cases he : e.isStaged with
  | true => exact hnames e he
  | false => cases e <;> first | rfl | cases he

end Compaction

namespace RestorePlan

/-- A replay on an empty stage rebuilds what the whole history builds there. The keep sets name what
is then on stage, which is all that was last brought there and not taken off since. -/
theorem rebuilds_stage :
    (∀ (s : Script) (p : Path) (h : History), History.ofPath s p = .ok h →
      History.Marked h ∧ History.Marked h.silent) ∧
    ∀ {π : Type} (policy : RestorePolicy) (h : List (Entry π)), History.Marked h →
      let plan := ofHistory policy h
      let final := (h.map Entry.instruction).foldl Stage.apply .empty
      plan.queue.foldl Stage.apply .empty = final ∧
      plan.keep = final.keepSets ∧
      ∀ e : Effect, e.isStaged → (plan.keep.names e = true ↔
        ∃ i, last? e (h.map Entry.instruction) = some i ∧ i.brings = true) := by
  constructor
  · intro s p h hp
    have hm := History.marked_ofPath hp
    exact ⟨hm, History.marked_silent hm⟩
  · intro π policy h hm plan final
    refine ⟨Compaction.foldl_queue policy hm .empty, Compaction.keepSets_queue policy hm, ?_⟩
    intro e he
    have hqueue := Compaction.names_keepSets plan.queue he
    have hshows := Compaction.shows_iff_mem_queue policy hm he
    rw [Stage.shows_foldl _ _ he, Stage.shows_empty] at hshows
    refine hqueue.trans (hshows.symm.trans ?_)
    cases last? e (h.map Entry.instruction) <;> simp

theorem rebuilds_stage_after_clear :
    let h : List (Entry Unit) :=
      [.showCharacter "ava" none none, .showCharacter "ben" none none, .playMusic "theme",
        .text "A", .clear ⟨["ava"], []⟩, .playSound "rain" true, .hideCharacter "ben" none].map
        fun i => ⟨(), i, i.isInteractive, false⟩
    History.Marked h ∧
    (ofHistory .marked h).queue.foldl Stage.apply .empty =
      ⟨none, .ofList ["ava"], .empty, .ofList ["rain"]⟩ ∧
    (ofHistory .marked h).keep = ⟨.ofList ["ava"], .empty, .ofList ["rain"]⟩ := by
  intro h
  have hm : History.Marked h := by
    intro e he
    obtain ⟨i, _, rfl⟩ := List.mem_map.mp he
    rfl
  have hall := rebuilds_stage.2 .marked h hm
  exact ⟨hm, hall.1.trans (by decide), hall.2.1.trans (by decide)⟩

end RestorePlan

end Narrative

import Narrative.Proofs.Compaction
import Narrative.Proofs.Script.Sound

namespace Narrative

variable {π α β : Type}

theorem filterMap_unless (make : α → β) (out : β → Bool) (as : List α) :
    as.filterMap (fun a => if out (make a) then none else some (make a)) =
      (as.map make).filter fun b => !out b := by
  induction as with
  | nil => rfl
  | cons a as ih =>
    rw [List.filterMap_cons, List.map_cons, List.filter_cons, ih]
    cases out (make a) <;> rfl

namespace Segment

/-- To pass over instructions on the way is to leave them out afterwards. -/
theorem recorded_eq (filtered : Bool) (g : Segment) (isLast : Bool) :
    g.recorded filtered isLast =
      if filtered then (g.entries isLast).silent else g.entries isLast := by
  let make (x : Spot) : Entry Place :=
    ⟨x.place, x.instruction, x.instruction.isInteractive,
      x.instruction.isInteractive && isLast && (x.place.index : Int) = g.last.toInt⟩
  let out (e : Entry Place) : Bool := filtered && e.interactive && !e.preserved
  have hpass : g.recorded filtered isLast = (g.entries isLast).filter fun e => !out e :=
    filterMap_unless make out g.spots
  rw [hpass]
  cases filtered with
  | true => simp [out, History.silent]
  | false => simp [out]

end Segment

namespace History

theorem flatMap_recorded (filtered : Bool) (gs : List Segment) (k : Nat) :
    ((gs.zipIdx k).flatMap fun (g, n) => g.recorded filtered (n + 1 = k + gs.length)) =
      if filtered then silent (ofSegments gs) else ofSegments gs := by
  induction gs using ofSegments.induct generalizing k with
  | case1 => cases filtered <;> rfl
  | case2 g => simp [ofSegments, Segment.recorded_eq]
  | case3 g rest hrest ih =>
    have hlength : rest.length ≠ 0 := fun hnone => hrest (List.length_eq_zero_iff.mp hnone)
    have hfirst : ¬ k + 1 = k + 1 + rest.length := by omega
    have hshift (n : Nat) : n + 1 = k + (g :: rest).length ↔ n + 1 = k + 1 + rest.length := by
      rw [List.length_cons]
      omega
    simp only [List.zipIdx_cons, List.flatMap_cons, hfirst, hshift, ih (k + 1), decide_false]
    rw [ofSegments, Segment.recorded_eq]
    · cases filtered with
      | true => exact (List.filter_append _ _).symm
      | false => rfl
    · exact hrest

/-- One pass makes the history of a path, whole or filtered, and fails where its path fails. -/
theorem reconstruct_eq (s : Script) (filtered : Bool) (p : Path) :
    reconstruct s filtered p =
      (ofPath s p).map fun h => if filtered then h.silent else h := by
  rw [reconstruct, ofPath]
  cases segments s .start 0 p with
  | error fault => rfl
  | ok gs =>
    have hpass := flatMap_recorded filtered gs 0
    rw [Nat.zero_add] at hpass
    exact congrArg Except.ok hpass

/-- Filtering takes out the later entry, which is another call of the earlier one, and only the latest call
of that matters. -/
def losesCall (e later : Entry π) : Bool :=
  match e.instruction with
  | .custom a =>
    a.latestOnly && Instruction.isCallOf a later.instruction && later.interactive && !later.preserved
  | _ => false

def LosesNoCall (h : List (Entry π)) : Prop := h.Pairwise fun e later => losesCall e later = false

instance (h : List (Entry π)) : Decidable (LosesNoCall h) :=
  inferInstanceAs (Decidable (h.Pairwise _))

variable {h rest : History} {e : Entry Place}

theorem silent_cons_of_out (hout : (e.interactive && !e.preserved) = true) :
    silent (e :: rest) = rest.silent := by
  apply List.filter_cons_of_neg
  simpa using hout

theorem silent_cons_of_in (hin : (e.interactive && !e.preserved) = false) :
    silent (e :: rest) = e :: rest.silent := by
  apply List.filter_cons_of_pos
  rw [Bool.and_eq_false_iff] at hin
  simpa using hin

/-- A test that nothing taken out passes comes to the same on what is left. -/
theorem any_silent {test : Instruction → Bool}
    (hout : ∀ e ∈ h, (e.interactive && !e.preserved) = true → test e.instruction = false) :
    (h.silent.map Entry.instruction).any test = (h.map Entry.instruction).any test := by
  induction h with
  | nil => rfl
  | cons e rest ih =>
    obtain ⟨he, hrest⟩ := List.forall_mem_cons.mp hout
    have hsame := ih hrest
    rw [List.map_cons, List.any_cons]
    cases hgone : e.interactive && !e.preserved with
    | true => rw [silent_cons_of_out hgone, hsame, he hgone, Bool.false_or]
    | false => rw [silent_cons_of_in hgone, List.map_cons, List.any_cons, hsame]

/-- What is taken out overrides nothing, unless it is a later call. -/
theorem superseded_silent (hm : Marked rest) (hcalls : LosesNoCall (e :: rest)) :
    superseded .marked e.instruction (rest.silent.map Entry.instruction) =
      superseded .marked e.instruction (rest.map Entry.instruction) := by
  cases heffect : e.instruction.effect? with
  | some x =>
    rw [superseded_of_effect? heffect, superseded_of_effect? heffect]
    apply any_silent
    intro later hlater hout
    -- What is taken out waits for the player, and so it has no part in any effect.
    apply Instruction.overrides_of_isInteractive
    rw [← hm later hlater]
    rw [Bool.and_eq_true] at hout
    exact hout.1
  | none =>
    cases hi : e.instruction with
    | custom a =>
      have hany (hlatest : a.latestOnly = true) :
          (rest.silent.map Entry.instruction).any (Instruction.isCallOf a) =
            (rest.map Entry.instruction).any (Instruction.isCallOf a) := by
        apply any_silent
        intro later hlater hout
        have hspared : losesCall e later = false := List.rel_of_pairwise_cons hcalls hlater
        rw [losesCall, hi] at hspared
        dsimp only at hspared
        rw [hlatest, Bool.true_and, Bool.and_assoc, hout, Bool.and_true] at hspared
        exact hspared
      rw [superseded, superseded]
      cases hlatest : a.latestOnly with
      | false => rfl
      | true =>
        rw [hany hlatest]
        rfl
    | _ =>
      rw [hi] at heffect
      first | rfl | cases heffect

theorem queue_silent (hm : Marked h) (hcalls : LosesNoCall h) :
    Compaction.queue .marked h.silent = Compaction.queue .marked h := by
  induction h with
  | nil => rfl
  | cons e rest ih =>
    have hmrest : Marked rest := fun x hx => hm x (List.mem_cons_of_mem e hx)
    have hrest := ih hmrest (List.Pairwise.of_cons hcalls)
    cases hout : e.interactive && !e.preserved with
    | true =>
      rw [silent_cons_of_out hout, Compaction.queue, hout, Bool.true_or, if_pos rfl]
      exact hrest
    | false =>
      have hsuperseded := superseded_silent hmrest hcalls
      rw [silent_cons_of_in hout, Compaction.queue, Compaction.queue, hsuperseded, hrest]

end History

namespace Compaction

open History (reconstruct LosesNoCall)

/-- A filtered history is had just where the whole one is had, and fails in the same way. It has of the
whole one, in order, what is not interactive or what the story rests on. Compacting either gives the same
queue, and with it the same keep sets, unless the filter takes out a call of an action of which only the
latest call matters. -/
theorem filtered_compaction (s : Script) (p : Path) :
    (∀ policy, RestorePlan.ofPath policy s p =
      (reconstruct s true p).map (RestorePlan.ofHistory policy)) ∧
    (∀ fault, reconstruct s true p = .error fault ↔ reconstruct s false p = .error fault) ∧
    ∀ whole, reconstruct s false p = .ok whole →
      ∃ h, reconstruct s true p = .ok h ∧
        h = whole.filter (fun e => !e.interactive || e.preserved) ∧
        (LosesNoCall whole → queue .marked h = queue .marked whole ∧
          RestorePlan.ofHistory .marked h = RestorePlan.ofHistory .marked whole) := by
  cases hpath : History.ofPath s p with
  | error fault =>
    have herror (filtered : Bool) : reconstruct s filtered p = .error fault := by
      rw [History.reconstruct_eq, hpath]
      rfl
    refine ⟨fun policy => ?_, fun _ => ?_, fun whole hwhole => ?_⟩
    · rw [RestorePlan.ofPath, hpath, herror]
      rfl
    · rw [herror, herror]
    · rw [herror] at hwhole
      cases hwhole
  | ok whole =>
    have hfiltered : reconstruct s true p = .ok whole.silent := by
      rw [History.reconstruct_eq, hpath]
      rfl
    have hwhole : reconstruct s false p = .ok whole := by
      rw [History.reconstruct_eq, hpath]
      rfl
    refine ⟨fun policy => ?_, fun fault => ?_, fun found hfound => ?_⟩
    · rw [RestorePlan.ofPath, hpath, hfiltered]
      rfl
    · rw [hfiltered, hwhole]
      constructor <;> (intro h; cases h)
    · cases hwhole.symm.trans hfound
      refine ⟨whole.silent, hfiltered, rfl, fun hcalls => ?_⟩
      have hqueue := History.queue_silent (History.marked_ofPath hpath) hcalls
      refine ⟨hqueue, ?_⟩
      rw [RestorePlan.ofHistory, RestorePlan.ofHistory, hqueue]

/-- A call that the filter takes out leaves the earlier call of the same action, which it would have
replaced. -/
example :
    let shake (waits : Bool) : Instruction := .custom ⟨"shake", [], none, true, false, waits⟩
    let h : History := [shake false, shake true, .showBackground "hall.png"].map
      fun i => ⟨⟨⟨"start", []⟩, 0⟩, i, i.isInteractive, false⟩
    (queue .marked h).length = 1 ∧ (queue .marked h.silent).length = 2 := by
  decide

/-- The room shakes, a riddle is asked, and the room shakes again. -/
def riddle : Draft := .ofScenes [
  ("start", [.custom ⟨"shake", [], none, true, false, false⟩, .dialogue ⟨none, "Well?", none⟩,
    .custom ⟨"ask", [], none, true, false, true⟩, .custom ⟨"shake", [], none, true, false, false⟩,
    .showCharacter "ava" none none, .text "Well done.", .finish])]

/-- At the last line the riddle is over, and the second time that the room shakes is the one that counts. -/
theorem filtered_compaction_riddle :
    let script : Script := ⟨riddle.scenes, riddle.ordered⟩
    let path : Path := [.jump "start", .index 5]
    ∃ whole h, reconstruct script false path = .ok whole ∧ LosesNoCall whole ∧
      reconstruct script true path = .ok h ∧
      (whole.map fun e => (e.origin.index, e.preserved)) =
        [(0, false), (1, false), (2, false), (3, false), (4, false), (5, true)] ∧
      (h.map fun e => e.origin.index) = [0, 3, 4, 5] ∧
      queue .marked h = queue .marked whole ∧
      RestorePlan.ofHistory .marked h = RestorePlan.ofHistory .marked whole ∧
      ((queue .marked h).map fun e => e.origin.index) = [3, 4, 5] := by
  intro script path
  obtain ⟨-, -, hall⟩ := filtered_compaction script path
  obtain ⟨whole, hwhole⟩ : ∃ whole, reconstruct script false path = .ok whole := ⟨_, rfl⟩
  obtain ⟨h, hfiltered, hfilter, hsame⟩ := hall whole hwhole
  have hcalls : LosesNoCall whole := by
    cases hwhole
    decide
  obtain ⟨hqueue, hplan⟩ := hsame hcalls
  refine ⟨whole, h, hwhole, hcalls, hfiltered, ?_, ?_, hqueue, hplan, ?_⟩
  · cases hwhole
    decide
  · cases hfiltered
    decide
  · cases hfiltered
    decide

end Compaction

end Narrative

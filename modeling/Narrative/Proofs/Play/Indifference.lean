import Narrative.Proofs.Path.Place
import Narrative.Proofs.Play.Twin
import Narrative.Proofs.Predicate.Keys

namespace Narrative

namespace Script

variable {s : Script}

/-- A selector of the script asks about the key, or a predicate of a branch does, however deep. -/
def Tests (s : Script) (key : String) : Prop := ∃ body, s.Contains body ∧ ∃ i ∈ body, key ∈ i.keys

/-- The script tests what the instruction that a path leads to asks about. -/
theorem tests_of_resolve {p : Path} {x : Spot} (h : Path.resolve s p = .ok (some x)) {key : String}
    (hkey : key ∈ x.instruction.keys) : s.Tests key := by
  obtain ⟨body, hbody, hi⟩ := Option.bind_eq_some_iff.mp (Path.listAt?_of_resolve h)
  exact ⟨body, contains_of_listAt? hbody, x.instruction, List.mem_of_getElem? hi, hkey⟩

end Script

/-- Two sessions that the script cannot tell apart: they are at the same place, neither or both have
been asked to stop, neither or both are being restored, and their states read the same under every key
that the script tests. -/
structure Session.Lookalike (s t : Session) : Prop where
  script : s.script = t.script
  path : s.path = t.path
  cancelled : s.cancelled = t.cancelled
  restoring : s.restoring = t.restoring
  agree : s.state.Agree s.script.Tests t.state

/-- Two answers that are the same failure, or sessions that the script cannot tell apart. -/
inductive Session.Likewise : Except Failure Session → Except Failure Session → Prop
  | ok {s t : Session} (h : s.Lookalike t) : Likewise (.ok s) (.ok t)
  | error (failure : Failure) : Likewise (.error failure) (.error failure)

namespace Session.Lookalike

variable {s s' t t' : Session}

theorem of_twin (hs : s'.Twin s) (h : s.Lookalike t) (ht : t.Twin t') : s'.Lookalike t' where
  script := hs.script.trans (h.script.trans ht.script)
  path := hs.path.trans (h.path.trans ht.path)
  cancelled := hs.cancelled.trans (h.cancelled.trans ht.cancelled)
  restoring := hs.restoring.trans (h.restoring.trans ht.restoring)
  agree := by
    rw [hs.script, hs.state, ← ht.state]
    exact h.agree

theorem position (h : s.Lookalike t) : s.position = t.position := by
  simp [Session.position, h.script, h.path]

theorem current? (h : s.Lookalike t) : s.current? = t.current? := by
  simp [Session.current?, h.position]

theorem isAtEntry (h : s.Lookalike t) : s.isAtEntry = t.isAtEntry := by
  simp [Session.isAtEntry, h.path]

theorem moveTo (h : s.Lookalike t) (p : Path) : (s.moveTo p).Lookalike (t.moveTo p) where
  script := h.script
  path := by simp [Session.moveTo, h.script]
  cancelled := h.cancelled
  restoring := h.restoring
  agree := h.agree

theorem advance (h : s.Lookalike t) : s.advance.Lookalike t.advance := by
  have hmoved : (s.moveTo (Path.advance s.path)).Lookalike (t.moveTo (Path.advance t.path)) := by
    rw [h.path]
    exact h.moveTo _
  exact .of_twin (.advance_moveTo s) hmoved (Twin.advance_moveTo t).symm

theorem tests {i : Instruction} (hcurrent : s.current? = some i) {key : String}
    (hkey : key ∈ i.keys) : s.script.Tests key := by
  obtain ⟨place, hposition⟩ := position_of_current? hcurrent
  exact Script.tests_of_resolve hposition hkey

theorem enterCondition (h : s.Lookalike t) :
    Likewise (s.enterCondition.map Prod.fst) (t.enterCondition.map Prod.fst) := by
  rw [Session.enterCondition, Session.enterCondition, ← h.current?]
  cases hcurrent : s.current? with
  | none => exact .error _
  | some i =>
    cases i with
    | condition c =>
      have hselect : c.selector.select s.state = c.selector.select t.state :=
        c.selector.select_congr h.agree fun key hkey => tests hcurrent hkey
      dsimp only
      rw [hselect, h.path]
      cases c.variant? (c.selector.select t.state) with
      | none => exact .ok h.advance
      | some body => exact .ok (h.moveTo _)
    | _ => exact .error _

theorem enterBlock (h : s.Lookalike t) : Likewise s.enterBlock t.enterBlock := by
  rw [Session.enterBlock, Session.enterBlock, h.current?, h.path]
  split
  · exact .ok (h.moveTo _)
  · exact .error _

theorem jump (h : s.Lookalike t) (name : String) : Likewise (s.jump name) (t.jump name) := by
  rw [Session.jump, Session.jump, ← h.script, h.path]
  split
  · exact .ok ⟨rfl, rfl, h.cancelled, h.restoring, h.agree⟩
  · exact .error _

theorem exitBranch (h : s.Lookalike t) :
    (s.exitBranch.getD s.advance).Lookalike (t.exitBranch.getD t.advance) := by
  rw [Session.exitBranch, Session.exitBranch, h.script, h.path]
  cases Path.leave t.script t.path with
  | none => exact h.advance
  | some p => exact h.moveTo p

theorem steer (h : s.Lookalike t) (i : Instruction) :
    Likewise (Performance.steer s i) (Performance.steer t i) := by
  cases i with
  | condition c =>
    have hentered := h.enterCondition
    rw [Performance.steer, Performance.steer]
    cases hs : s.enterCondition <;> cases ht : t.enterCondition <;> rw [hs, ht] at hentered <;>
      exact hentered
  | block name => exact h.enterBlock
  | jump name => exact h.jump name
  | exit => exact .ok h.exitBranch
  | _ => exact .ok h

/-- A branch is there to be taken in both sessions or in neither. -/
theorem choose (h : s.Lookalike t) (branch : UInt64) :
    Likewise (s.choose branch) (t.choose branch) := by
  rw [Session.choose, Session.choose, ← h.current?]
  cases hcurrent : s.current? with
  | none => exact .error _
  | some i =>
    cases i with
    | choice c =>
      have hoffers : c.offers s.state branch.toNat = c.offers t.state branch.toNat :=
        Choice.offers_congr h.agree (fun key hkey => tests hcurrent hkey) branch.toNat
      dsimp only
      rw [hoffers]
      split
      · have hrecorded : s.record.Lookalike t.record :=
          ⟨h.script, h.path, h.cancelled, h.restoring, h.agree⟩
        rw [h.path]
        exact .ok (hrecorded.moveTo _)
      · exact .error _
    | _ => exact .error _

end Session.Lookalike

/-- Two performances without a screen that have shown the same so far, with sessions that the script
cannot tell apart. -/
structure Performance.Lookalike (p q : Performance Headless) : Prop where
  session : p.session.Lookalike q.session
  views : p.executor.trace.map TraceStep.view = q.executor.trace.map TraceStep.view
  stage : p.executor.stage = q.executor.stage

/-- Two turns that stop for the same reason or both go on, and nobody can tell them apart. -/
inductive Beat.Lookalike : Beat Headless → Beat Headless → Prop
  | stop {p q : Performance Headless} (outcome : Except Failure PlayOutcome) (h : p.Lookalike q) :
    Lookalike (.stop outcome p) (.stop outcome q)
  | on {p q : Performance Headless} (h : p.Lookalike q) : Lookalike (.on p) (.on q)

/-- What the player is told of a call. -/
inductive Answer
  | played (outcome : Except Failure PlayOutcome)
  | chosen (result : Except Failure Unit)

namespace Performance

variable {p q : Performance Headless}

def answer (p : Performance Headless) : Call → Answer
  | .play limit => .played (play Headless.executor limit p).1
  | .choose branch => .chosen ((p.session.choose branch).map fun _ => ())

/-- The answers to calls made one after the other. -/
def answers : List Call → Performance Headless → List Answer
  | [], _ => []
  | c :: rest, p => p.answer c :: answers rest (p.call c)

namespace Lookalike

/-- An instruction does the same to both states, if not to what else they hold, and shows the same. -/
theorem perform (h : p.Lookalike q) {i : Instruction}
    (hi : ∀ key ∈ i.keys, p.session.script.Tests key) :
    (p.perform Headless.executor i).Lookalike (q.perform Headless.executor i) := by
  have hstates : (if p.session.restoring then p.session.state else p.session.state.apply i).Agree
      p.session.script.Tests
      (if q.session.restoring then q.session.state else q.session.state.apply i) := by
    rw [h.session.restoring]
    split
    · exact h.session.agree
    · exact h.session.agree.apply i
  have hview := View.ofInstruction_congr hstates hi
  refine ⟨⟨h.session.script, h.session.path, ?_, h.session.restoring, hstates⟩, ?_, ?_⟩
  · change (p.session.cancelled || false) = (q.session.cancelled || false)
    rw [h.session.cancelled]
  · change (p.executor.trace ++ [_]).map TraceStep.view = (q.executor.trace ++ [_]).map TraceStep.view
    rw [List.map_append, List.map_append, h.views]
    exact congrArg (_ ++ [·]) hview
  · change p.executor.stage.apply i = q.executor.stage.apply i
    rw [h.stage]

/-- An instruction that goes on by itself has its turn. -/
theorem turn (h : p.Lookalike q) {i : Instruction}
    (hi : ∀ key ∈ i.keys, p.session.script.Tests key) :
    ((p.remember i).perform Headless.executor i).Lookalike
      ((q.remember i).perform Headless.executor i) := by
  obtain ⟨shown, hp⟩ := p.remember_eq i
  obtain ⟨shown', hq⟩ := q.remember_eq i
  have hremembered : (p.remember i).Lookalike (q.remember i) := by
    rw [hp, hq]
    exact ⟨⟨h.session.script, h.session.path, h.session.cancelled, h.session.restoring,
      h.session.agree⟩, h.views, h.stage⟩
  refine hremembered.perform ?_
  rw [hp]
  exact hi

theorem go (h : p.Lookalike q) {s t : Session} (hst : s.Lookalike t) :
    Performance.Lookalike { p with session := s } { q with session := t } :=
  ⟨hst, h.views, h.stage⟩

theorem beat (h : p.Lookalike q) :
    (beat Headless.executor p).Lookalike (Performance.beat Headless.executor q) := by
  rw [Performance.beat, Performance.beat, ← h.session.cancelled, ← h.session.position,
    ← h.session.isAtEntry]
  split
  · exact .stop _ h
  · split
    · exact .stop _ h
    · split
      · exact .on (h.go h.session.advance)
      · exact .stop _ h
    · rename_i spot hspot
      have htests : ∀ key ∈ spot.instruction.keys, p.session.script.Tests key :=
        fun key hkey => Script.tests_of_resolve hspot hkey
      cases hi : spot.instruction with
      | finish => exact .stop _ h
      | choice c =>
        rw [hi] at htests
        exact .stop _ (h.perform htests)
      | condition c | block name | jump name | exit =>
        have hsteered := h.session.steer spot.instruction
        rw [hi] at hsteered
        dsimp only
        generalize steer p.session _ = a at hsteered
        generalize steer q.session _ = b at hsteered
        cases hsteered with
        | ok hsteered => exact .on (h.go hsteered)
        | error failure => exact .stop _ h
      | _ =>
        rw [hi] at htests
        have hturn := h.turn htests
        exact .on (hturn.go hturn.session.advance)

/-- Play goes the same way for any number of turns, and shows the same. -/
theorem play (h : p.Lookalike q) (n : Nat) :
    (play Headless.executor n p).1 = (Performance.play Headless.executor n q).1 ∧
      (Performance.play Headless.executor n p).2.Lookalike
        (Performance.play Headless.executor n q).2 := by
  induction n generalizing p q with
  | zero => exact ⟨rfl, h⟩
  | succ n ih =>
    have hbeats := h.beat
    rw [play_succ, play_succ]
    cases hp : Performance.beat Headless.executor p <;>
      cases hq : Performance.beat Headless.executor q <;>
        rw [hp, hq] at hbeats <;> cases hbeats
    case stop.stop.stop outcome p' q' hlike => exact ⟨rfl, hlike⟩
    case on.on.on p' q' hlike => exact ih hlike

theorem call (h : p.Lookalike q) (c : Call) :
    p.answer c = q.answer c ∧ (p.call c).Lookalike (q.call c) := by
  cases c with
  | play limit =>
    obtain ⟨houtcome, hlike⟩ := h.play limit
    exact ⟨congrArg Answer.played houtcome, hlike⟩
  | choose branch =>
    have hchosen := h.session.choose branch
    rw [answer, answer, Performance.call, Performance.call]
    cases hp : p.session.choose branch <;> cases hq : q.session.choose branch <;>
      rw [hp, hq] at hchosen <;> cases hchosen
    case error.error.error failure => exact ⟨rfl, h⟩
    case ok.ok.ok s t hlike => exact ⟨rfl, h.go hlike⟩

theorem run (h : p.Lookalike q) (calls : List Call) :
    answers calls p = answers calls q ∧
      (calls.foldl Performance.call p).Lookalike (calls.foldl Performance.call q) := by
  induction calls generalizing p q with
  | nil => exact ⟨rfl, h⟩
  | cons c rest ih =>
    obtain ⟨hanswer, hlike⟩ := h.call c
    obtain ⟨hrest, hend⟩ := ih hlike
    refine ⟨?_, hend⟩
    rw [answers, answers, hanswer, hrest]

end Lookalike

/-- What the script never tests has no part in the story: all calls are answered alike, and afterwards
the sessions still are where they cannot be told apart, with the same shown and the same on stage. -/
theorem answers_of_lookalike {s t : Session} (h : s.Lookalike t) (calls : List Call) :
    let p := calls.foldl call ⟨s, .fresh⟩
    let q := calls.foldl call ⟨t, .fresh⟩
    answers calls ⟨s, .fresh⟩ = answers calls ⟨t, .fresh⟩ ∧
      p.session.Lookalike q.session ∧
      p.executor.trace.map TraceStep.view = q.executor.trace.map TraceStep.view ∧
      p.executor.stage = q.executor.stage := by
  intro p q
  have hfresh : Performance.Lookalike ⟨s, .fresh⟩ ⟨t, .fresh⟩ := ⟨h, rfl, rfl⟩
  obtain ⟨hanswers, hend⟩ := hfresh.run calls
  exact ⟨hanswers, hend.session, hend.views, hend.stage⟩

/-- A greeting that asks whether the player has been met, and gold that nobody asks about. -/
def greeting : Draft := .ofScenes [
  ("start", [.condition ⟨.flag "met", [("false", [.text "Welcome."]), ("true", [.text "Again."])]⟩,
    .setVar "gold" 5, .finish])]

theorem greeting_compiles : greeting.compile {} = .ok ⟨greeting.scenes, greeting.ordered⟩ := by
  rfl

theorem greeting_tests {key : String}
    (h : Script.Tests ⟨greeting.scenes, greeting.ordered⟩ key) : key = "met" := by
  obtain ⟨body, hbody, i, hi, hkey⟩ := h
  have hlists : body = [.text "Welcome."] ∨ body = [.text "Again."] ∨
      body = [.condition ⟨.flag "met", [("false", [.text "Welcome."]), ("true", [.text "Again."])]⟩,
        .setVar "gold" 5, .finish] := by
    clear hi
    induction hbody with
    | scene hscene =>
      cases List.mem_singleton.mp (Keyed.mem_of_lookup hscene)
      exact .inr (.inr rfl)
    | nested _ hi hnested ih =>
      rcases ih with rfl | rfl | rfl
      · cases List.mem_singleton.mp hi
        cases hnested
      · cases List.mem_singleton.mp hi
        cases hnested
      · simp only [List.mem_cons, List.not_mem_nil, or_false] at hi
        rcases hi with rfl | rfl | rfl
        · simp only [Instruction.nested, List.mem_cons, Prod.mk.injEq, List.not_mem_nil, or_false]
            at hnested
          exact hnested.imp And.right fun h => .inl h.2
        · cases hnested
        · cases hnested
  rcases hlists with rfl | rfl | rfl
  · cases List.mem_singleton.mp hi
    cases hkey
  · cases List.mem_singleton.mp hi
    cases hkey
  · simp only [List.mem_cons, List.not_mem_nil, or_false] at hi
    rcases hi with rfl | rfl | rfl
    · exact List.mem_singleton.mp hkey
    · cases hkey
    · cases hkey

/-- Two players that have been met, one of whom has a name and, where the gold will be, a text. -/
theorem answers_of_lookalike_greeting :
    let script : Script := ⟨greeting.scenes, greeting.ordered⟩
    let s := { Session.start "poor" script {} with state := .ofPairs [("met", .bool true)] }
    let t := { Session.start "rich" script {} with
      state := .ofPairs [("gold", .text "much"), ("met", .bool true), ("name", .text "Ada")] }
    let calls : List Call := [.play 2, .choose 0, .play 10]
    greeting.compile {} = .ok script ∧ s.Lookalike t ∧
      answers calls ⟨s, .fresh⟩ = answers calls ⟨t, .fresh⟩ ∧
      (calls.foldl call ⟨t, .fresh⟩).executor.trace.map TraceStep.view =
        [.text "Again.", .system "set_var gold = 5"] := by
  intro script s t calls
  have hagree : s.state.Agree script.Tests t.state := by
    constructor
    · intro key hkey
      rw [greeting_tests hkey]
      rfl
    · intro key hkey
      rw [greeting_tests hkey]
      rfl
  have hlike : s.Lookalike t := ⟨rfl, rfl, rfl, rfl, hagree⟩
  obtain ⟨hanswers, -, hviews, -⟩ := answers_of_lookalike hlike calls
  have hpoor : (calls.foldl call ⟨s, .fresh⟩).executor.trace.map TraceStep.view =
      [.text "Again.", .system "set_var gold = 5"] := by
    decide +kernel
  exact ⟨greeting_compiles, hlike, hanswers, hviews.symm.trans hpoor⟩

end Performance

end Narrative

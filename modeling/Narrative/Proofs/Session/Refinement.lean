import Narrative.Proofs.Session.Standing

namespace Narrative

/-- What of the spots passed a move leaves on the path. -/
def Move.kept (log : List Spot) : Move → List Spot
  | .jump _ => []
  | _ => log

/-- A session whose path is in step with a stack. -/
structure Session.Follows (s : Session) (k : Stack) (log : List Spot) : Prop where
  stands : k.Stands s.script s.path log
  settled : k.Settled

namespace Session.Follows

variable {s : Session} {k k' : Stack} {log : List Spot} {p : Path}

theorem position (h : s.Follows k log) (ha : s.script.Addressable) :
    s.position = .ok k.top.spot? := h.stands.position ha

theorem current? (h : s.Follows k log) (ha : s.script.Addressable) :
    s.current? = k.top.spot?.map Spot.instruction := by
  rw [Session.current?, h.position ha]

theorem start {name : String} {script : Script} {settings : Settings} {passage : Passage}
    (h : script.passage? Path.startScene = some passage) :
    (Session.start name script settings).Follows (.opened passage) [] :=
  ⟨Stack.Stands.opened h, fun hbelow => absurd rfl hbelow⟩

theorem moveTo (ha : s.script.Addressable)
    (h : k.Stands s.script p (log ++ k.top.spot?.toList)) :
    (s.moveTo p).Follows k.settle (log ++ k.settle.top.spot?.toList) :=
  ⟨h.settle ha, k.settled_settle⟩

theorem advance (h : s.Follows k log) (ha : s.script.Addressable) :
    s.advance.Follows k.advance.settle (log ++ k.advance.settle.top.spot?.toList) := by
  rw [Session.advance]
  split
  · exact moveTo (s := s.record) ha (h.stands.advance ha h.settled)
  · exact moveTo ha (h.stands.advance ha h.settled)

theorem enter (h : s.Follows k log) (hs : s.script.Sound) (ha : s.script.Addressable) {x : Spot}
    (hx : k.top.spot? = some x) {item : PathItem} {kind : BranchKind} {inner : Passage}
    (hopens : x.Opens s.script item kind inner) :
    (s.moveTo (s.path ++ [item, .index 0])).Follows (k.push inner).settle
      (log ++ (k.push inner).settle.top.spot?.toList) :=
  moveTo ha (h.stands.push hs ha hx hopens)

/-- A session and a stack refuse a move together, or make it together. The log is extended by the spot
the move comes to rest at. -/
abbrev Together (s : Session) (k : Stack) (log : List Spot) (m : Move) : Prop :=
  Option.Rel (fun s' k' => s'.Follows k' (m.kept log ++ k'.top.spot?.toList)) (s.make? m)
    (k.make? s.script s.state m)

theorem choose (h : s.Follows k log) (hs : s.script.Sound) (ha : s.script.Addressable)
    (branch : UInt64) : Together s k log (.choose branch) := by
  have hcurrent := h.current? ha
  rw [Together, make?, Session.choose, hcurrent, Stack.make?]
  cases hspot : k.top.spot? with
  | none => exact .none
  | some x =>
    obtain ⟨place, i⟩ := x
    cases i with
    | choice c =>
      dsimp only [Option.map_some]
      by_cases hoffers : c.offers s.state branch.toNat = true
      · rw [if_pos hoffers, if_pos hoffers]
        cases hbranch : c.branches[branch.toNat]? with
        | none =>
          rw [Choice.offers, hbranch] at hoffers
          cases hoffers
        | some b =>
          have hrecorded : s.record.Follows k log := ⟨h.stands, h.settled⟩
          exact .some (hrecorded.enter hs ha hspot (.choice hbranch))
      · rw [if_neg hoffers, if_neg hoffers]
        exact .none
    | _ => exact .none

theorem enterCondition (h : s.Follows k log) (hs : s.script.Sound) (ha : s.script.Addressable) :
    Together s k log .enterCondition := by
  have hcurrent := h.current? ha
  rw [Together, make?, Session.enterCondition, hcurrent, Stack.make?]
  cases hspot : k.top.spot? with
  | none => exact .none
  | some x =>
    obtain ⟨place, i⟩ := x
    cases i with
    | condition c =>
      dsimp only [Option.map_some]
      cases hvariant : c.variant? (c.selector.select s.state) with
      | none => exact .some (h.advance ha)
      | some body => exact .some (h.enter hs ha hspot (.condition hvariant))
    | _ => exact .none

theorem enterBlock (h : s.Follows k log) (hs : s.script.Sound) (ha : s.script.Addressable) :
    Together s k log .enterBlock := by
  have hcurrent := h.current? ha
  rw [Together, make?, Session.enterBlock, hcurrent, Stack.make?]
  cases hspot : k.top.spot? with
  | none => exact .none
  | some x =>
    obtain ⟨place, i⟩ := x
    cases i with
    | block name =>
      dsimp only [Option.map_some]
      cases hname : s.script.passage? name with
      | none =>
        -- The check has made sure that the scene is there.
        have hmem := Passage.mem_of_at? hspot
        obtain ⟨body, hscene, -⟩ := hs.targets _ h.stands.held _ hmem
        rw [Script.passage?, hscene] at hname
        cases hname
      | some inner => exact .some (h.enter hs ha hspot (.block hname))
    | _ => exact .none

theorem exitBranch (h : s.Follows k log) (ha : s.script.Addressable) :
    Together s k log .exitBranch := by
  rw [Together, make?, Session.exitBranch, Stack.make?]
  cases hleave : k.leave? with
  | none =>
    have hbelow : k.below = [] := by
      rw [Stack.leave?] at hleave
      split at hleave
      · assumption
      · cases hleave
    rw [h.stands.leave_root ha hbelow]
    exact .none
  | some k' =>
    obtain ⟨p', hpath, hstands⟩ := h.stands.leave ha hleave
    rw [hpath]
    exact .some (moveTo ha hstands)

theorem jump (s : Session) (k : Stack) (log : List Spot) (name : String) :
    Together s k log (.jump name) := by
  rw [Together, make?, Session.jump, Stack.make?, Script.passage?]
  cases hscene : s.script.scene? name with
  | none => exact .none
  | some body =>
    have hname : s.script.passage? name = some ⟨⟨name, []⟩, body⟩ := by
      rw [Script.passage?, hscene]
      rfl
    exact .some ⟨Stack.Stands.opened hname, fun hbelow => absurd rfl hbelow⟩

theorem make (h : s.Follows k log) (hs : s.script.Sound) (ha : s.script.Addressable) (m : Move) :
    Together s k log m := by
  cases m with
  | advance => exact .some (h.advance ha)
  | choose branch => exact h.choose hs ha branch
  | enterCondition => exact h.enterCondition hs ha
  | enterBlock => exact h.enterBlock hs ha
  | exitBranch => exact h.exitBranch ha
  | jump name => exact jump s k log name

/-- A move that was made has kept the session in step. -/
theorem made (h : s.Follows k log) (hs : s.script.Sound) (ha : s.script.Addressable) {m : Move}
    {s' : Session} (hmake : s.make? m = some s') :
    ∃ k' : Stack, s'.Follows k' (m.kept log ++ k'.top.spot?.toList) := by
  rcases Outcome.rel_cases (h.make hs ha m) with ⟨hnone, -⟩ | ⟨s', k', hsome, -, hfollows⟩
  · cases hmake.symm.trans hnone
  · cases hmake.symm.trans hsome
    exact ⟨k', hfollows⟩

end Session.Follows

namespace Session

variable {s s' : Session}

theorem make?_of_choose {branch : UInt64} (h : s.choose branch = .ok s') :
    s.make? (.choose branch) = some s' := by
  rw [make?, h]
  rfl

theorem current?_of_choose {branch : UInt64} (h : s.choose branch = .ok s') :
    ∃ c, s.current? = some (.choice c) := by
  rw [choose] at h
  split at h
  · rename_i c hcurrent
    exact ⟨c, hcurrent⟩
  · cases h

/-- A position is remembered before a move away from where play stops. -/
def records (s : Session) : Move → Bool
  | .advance => s.current?.any Instruction.isBlocking
  | .choose _ => true
  | _ => false

/-- A move changes the path, and the positions to go back to if it remembers one. -/
theorem make?_eq {m : Move} (h : s.make? m = some s') :
    s' = { s with
      path := s'.path
      undo := if s.records m then s.record.undo else s.undo } := by
  have hadvance : s.advance = { s with
      path := s.advance.path
      undo := if s.records .advance then s.record.undo else s.undo } := by
    rw [advance, records]
    split <;> rfl
  cases m with
  | advance =>
    cases h
    exact hadvance
  | choose branch =>
    rw [make?, choose] at h
    split at h
    · split at h
      · cases h
        rfl
      · cases h
    · cases h
  | enterCondition =>
    rw [make?, enterCondition] at h
    split at h
    · rename_i c hcurrent
      dsimp only at h
      split at h
      · cases h
        rfl
      · cases h
        have hpassed : s.records .advance = false := by
          rw [records, hcurrent]
          rfl
        rw [hpassed] at hadvance
        exact hadvance
    · cases h
  | enterBlock =>
    rw [make?, enterBlock] at h
    split at h
    · cases h
      rfl
    · cases h
  | exitBranch =>
    rw [make?, exitBranch] at h
    obtain ⟨p, hp, rfl⟩ := Option.map_eq_some_iff.mp h
    rfl
  | jump name =>
    rw [make?, jump] at h
    split at h
    · cases h
      rfl
    · cases h

/-- Apart from the path a move changes only what can be gone back to. -/
theorem make?_frame {m : Move} (h : s.make? m = some s') :
    s'.script = s.script ∧ s'.state = s.state ∧ s'.cancelled = s.cancelled ∧
      (s'.undo = if s.records m then s.record.undo else s.undo) ∧
      s'.restoring = s.restoring ∧ s'.settings = s.settings := by
  rw [make?_eq h]
  exact ⟨rfl, rfl, rfl, rfl, rfl, rfl⟩

/-- What can be observed of a session is what a stack says. -/
structure Agrees (s : Session) (r : Reading) : Prop where
  position : s.position = .ok r.stack.top.spot?
  openBranches : Path.openBranches s.path = r.stack.below.length
  state : s.state = r.state
  accepts : ∀ m, (s.make? m).isSome = (r.stack.make? s.script r.state m).isSome

/-- One event keeps a session and a stack in step. -/
theorem Follows.step {k : Stack} {log : List Spot} (h : s.Follows k log) (hs : s.script.Sound)
    (ha : s.script.Addressable) (e : Event) :
    ∃ log', (s.step e).Follows (Reading.step s.script ⟨k, s.state⟩ e).stack log' ∧
      (s.step e).state = (Reading.step s.script ⟨k, s.state⟩ e).state ∧
      (s.step e).script = s.script := by
  cases e with
  | alter state => exact ⟨log, ⟨h.stands, h.settled⟩, rfl, rfl⟩
  | move m =>
    rw [Session.step, Reading.step]
    dsimp only
    rcases Outcome.rel_cases (h.make hs ha m) with ⟨hmake, hk⟩ | ⟨s', k', hmake, hk, hfollows⟩
    · rw [hmake, hk]
      exact ⟨log, h, rfl, rfl⟩
    · rw [hmake, hk]
      obtain ⟨hscript, hstate, -⟩ := make?_frame hmake
      exact ⟨_, hfollows, hstate, hscript⟩

theorem Follows.run {k : Stack} {log : List Spot} (h : s.Follows k log) (hs : s.script.Sound)
    (ha : s.script.Addressable) (events : List Event) :
    ∃ log', (events.foldl Session.step s).Follows
        (events.foldl (Reading.step s.script) ⟨k, s.state⟩).stack log' ∧
      (events.foldl Session.step s).state =
        (events.foldl (Reading.step s.script) ⟨k, s.state⟩).state ∧
      (events.foldl Session.step s).script = s.script := by
  induction events generalizing s k log with
  | nil => exact ⟨log, h, rfl, rfl⟩
  | cons e rest ih =>
    obtain ⟨log', hstep, hstate, hscript⟩ := h.step hs ha e
    have hrest := ih hstep (hscript ▸ hs) (hscript ▸ ha)
    rw [hscript, hstate] at hrest
    exact hrest

theorem Follows.agrees {k : Stack} {log : List Spot} (h : s.Follows k log) (hs : s.script.Sound)
    (ha : s.script.Addressable) : s.Agrees ⟨k, s.state⟩ where
  position := h.position ha
  openBranches := h.stands.openBranches
  state := rfl
  accepts m := by
    rcases Outcome.rel_cases (h.make hs ha m) with ⟨hmake, hk⟩ | ⟨s', k', hmake, hk, -⟩
    · rw [hmake, hk]
      rfl
    · rw [hmake, hk]
      rfl

/-- Whatever the moves, and however the player state changes in between, the path of a session stands
where the top of the stack is. -/
theorem agrees_with_stack {d : Draft} {limits : Limits} {script : Script}
    (hscript : d.compile limits = .ok script) (haddressable : script.Addressable) (name : String)
    (settings : Settings) :
    ∃ opening, script.passage? Path.startScene = some opening ∧
      ∀ events : List Event, (events.foldl step (start name script settings)).Agrees
        (events.foldl (Reading.step script) ⟨.opened opening, .empty⟩) := by
  have hsound := Draft.compile_sound hscript
  obtain ⟨opening, hopening⟩ := hsound.opening
  refine ⟨opening, hopening, fun events => ?_⟩
  have hstart : (start name script settings).Follows (.opened opening) [] := .start hopening
  obtain ⟨log, hfollows, hstate, hsame⟩ := hstart.run hsound haddressable events
  have hagrees := hfollows.agrees (hsame ▸ hsound) (hsame ▸ haddressable)
  rw [hstate] at hagrees
  exact hagrees

theorem agrees_with_stack_sample :
    let script : Script := ⟨Draft.sample.scenes, Draft.sample.ordered⟩
    Draft.sample.compile {} = .ok script ∧ script.Addressable ∧
      ∃ opening, script.passage? Path.startScene = some opening ∧
        ∀ events : List Event, (events.foldl Session.step (start "sample" script {})).Agrees
          (events.foldl (Reading.step script) ⟨.opened opening, .empty⟩) := by
  intro script
  have haddressable := Draft.compile_addressable Draft.sample_compiles (by decide)
  exact ⟨Draft.sample_compiles, haddressable,
    agrees_with_stack Draft.sample_compiles haddressable "sample" {}⟩

end Session

end Narrative

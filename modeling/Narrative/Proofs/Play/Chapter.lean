import Narrative.Proofs.Play.Beat
import Narrative.Proofs.Play.Replay

namespace Narrative

/-- What has run since the last jump, on which stage it began, and how many jumps were before. -/
structure Chapter where
  opening : Stage
  ran : List Instruction
  jumps : Nat

/-- A performance without a screen, with notes on its chapter. -/
structure Telling where
  performance : Performance Headless
  chapter : Chapter

/-- The notes after the instruction at hand has had its turn. -/
def Chapter.after (c : Chapter) (p : Performance Headless) : Chapter :=
  match p.session.current? with
  | some (.jump _) => ⟨p.executor.stage, [], c.jumps + 1⟩
  | some i => if i.isControl then c else { c with ran := c.ran ++ [i] }
  | none => c

theorem Chapter.after_of_ne_jump {c : Chapter} {p : Performance Headless} {i : Instruction}
    (hcurrent : p.session.current? = some i) (hjump : ∀ name, i ≠ .jump name) :
    c.after p = if i.isControl then c else { c with ran := c.ran ++ [i] } := by
  rw [after, hcurrent]
  split
  · rename_i name heq
    exact absurd (Option.some.inj heq) (hjump name)
  · rename_i heq
    cases heq
    rfl
  · rename_i heq
    cases heq

namespace Telling

def start (name : String) (script : Script) (settings : Settings) : Telling :=
  ⟨⟨Session.start name script settings, .fresh⟩, ⟨.empty, [], 0⟩⟩

/-- Play with notes. A turn that fails or is cancelled is not noted. -/
def play : Nat → Telling → Except Failure PlayOutcome × Telling
  | 0, t => (.ok .stepLimit, t)
  | n + 1, t =>
    match Performance.beat Headless.executor t.performance with
    | .stop (.ok .awaitingChoice) p => (.ok .awaitingChoice, ⟨p, t.chapter.after t.performance⟩)
    | .stop outcome p => (outcome, ⟨p, t.chapter⟩)
    | .on p => play n ⟨p, t.chapter.after t.performance⟩

def call (t : Telling) : Call → Telling
  | .play limit => (t.play limit).2
  | .choose branch => { t with performance := t.performance.call (.choose branch) }

/-- Taking notes changes nothing of the play. -/
theorem play_performance (n : Nat) (t : Telling) :
    Performance.play Headless.executor n t.performance =
      ((t.play n).1, (t.play n).2.performance) := by
  induction n generalizing t with
  | zero => rfl
  | succ n ih =>
    rw [Performance.play_succ, play]
    cases hbeat : Performance.beat Headless.executor t.performance with
    | on p => exact ih ⟨p, t.chapter.after t.performance⟩
    | stop outcome p =>
      dsimp only
      split <;> simp_all

theorem call_performance (t : Telling) (c : Call) :
    t.performance.call c = (t.call c).performance := by
  cases c with
  | choose branch => rfl
  | play limit => rw [Performance.call, play_performance, call]

theorem run_performance (calls : List Call) (t : Telling) :
    calls.foldl Performance.call t.performance = (calls.foldl call t).performance := by
  induction calls generalizing t with
  | nil => rfl
  | cons c rest ih => rw [List.foldl_cons, List.foldl_cons, call_performance, ih]

/-- The notes tell the stage, and what has run since the last jump does to any stage what the spots
passed since then do. -/
structure Faithful (script : Script) (t : Telling) : Prop where
  same : t.performance.session.script = script
  free : t.performance.session.cancelled = false
  stage : t.performance.executor.stage = t.chapter.ran.foldl Stage.apply t.chapter.opening
  opening : t.chapter.jumps = 0 → t.chapter.opening = .empty
  passed : ∃ k passed, t.performance.session.Follows k (passed ++ k.top.spot?.toList) ∧
    ∀ s : Stage, t.chapter.ran.foldl Stage.apply s =
      (passed.map Spot.instruction).foldl Stage.apply s

variable {script : Script} {t : Telling}

theorem Faithful.start {name : String} {settings : Settings} (hs : script.Sound) :
    Faithful script (.start name script settings) := by
  obtain ⟨opening, hopening⟩ := hs.opening
  exact ⟨rfl, rfl, rfl, fun _ => rfl, _, [], .start hopening, fun _ => rfl⟩

/-- After a move nothing is passed yet but what the move leaves on the path. -/
theorem Faithful.of_make {p : Performance Headless} {c : Chapter} {k : Stack} {log : List Spot}
    {m : Move} {s : Session} (hs : script.Sound) (ha : script.Addressable)
    (hsame : p.session.script = script) (hfree : p.session.cancelled = false)
    (hfollows : p.session.Follows k log) (hmake : p.session.make? m = some s)
    (hstage : p.executor.stage = c.ran.foldl Stage.apply c.opening)
    (hopening : c.jumps = 0 → c.opening = .empty)
    (hran : ∀ s : Stage, c.ran.foldl Stage.apply s =
      ((m.kept log).map Spot.instruction).foldl Stage.apply s) :
    Faithful script ⟨{ p with session := s }, c⟩ := by
  obtain ⟨hscript, -, hcancelled, -⟩ := Session.make?_frame hmake
  obtain ⟨k', hfollows'⟩ := hfollows.made (hsame ▸ hs) (hsame ▸ ha) hmake
  exact ⟨hscript.trans hsame, hcancelled.trans hfree, hstage, hopening, k', m.kept log,
    hfollows', hran⟩

/-- An instruction that has its turn changes the stage and the player state, and not the path. -/
theorem performed (p : Performance Headless) (i : Instruction) :
    ((p.remember i).perform Headless.executor i).session.script = p.session.script ∧
    ((p.remember i).perform Headless.executor i).session.path = p.session.path ∧
    ((p.remember i).perform Headless.executor i).session.cancelled = p.session.cancelled ∧
    ((p.remember i).perform Headless.executor i).executor.stage = p.executor.stage.apply i := by
  obtain ⟨snapshots, hremember⟩ := p.remember_eq i
  rw [hremember]
  exact ⟨rfl, rfl, Bool.or_false _, rfl⟩

theorem Faithful.on (h : Faithful script t) (hs : script.Sound) (ha : script.Addressable)
    {p : Performance Headless}
    (hbeat : Performance.beat Headless.executor t.performance = .on p) :
    Faithful script ⟨p, t.chapter.after t.performance⟩ := by
  obtain ⟨hsame, hfree, hstage, hopening, k, passed, hfollows, hpassed⟩ := h
  have hcurrent := hfollows.current? (hsame ▸ ha)
  have hbeats := Performance.beats (x := Headless.executor) hfollows (hsame ▸ hs) (hsame ▸ ha) hfree
  rw [hbeat] at hbeats
  cases hbeats with
  | entry hspot =>
    rw [hspot] at hcurrent
    rw [Chapter.after, hcurrent]
    refine .of_make (m := .advance) hs ha hsame hfree hfollows rfl hstage hopening fun s => ?_
    change _ = ((passed ++ k.top.spot?.toList).map Spot.instruction).foldl Stage.apply s
    rw [hspot, Option.toList_none, List.append_nil]
    exact hpassed s
  | jump hspot hname hmake =>
    rw [hspot, Option.map_some, hname] at hcurrent
    rw [Chapter.after, hcurrent]
    refine .of_make hs ha hsame hfree hfollows hmake rfl ?_ fun s => rfl
    intro hzero
    cases hzero
  | @turn spot m s hspot hcontrol hjump hmake hkept =>
    rw [hspot] at hcurrent
    rw [Chapter.after_of_ne_jump hcurrent hjump, if_pos hcontrol]
    refine .of_make hs ha hsame hfree hfollows hmake hstage hopening fun s => ?_
    rw [hpassed, hkept, hspot, Option.toList_some, List.map_append, List.foldl_append]
    exact (Stage.apply_of_isControl hcontrol _).symm
  | @perform spot hspot hcontrol =>
    have hjump : ∀ name, spot.instruction ≠ .jump name := by
      intro name heq
      rw [heq] at hcontrol
      cases hcontrol
    rw [hspot] at hcurrent
    rw [Chapter.after_of_ne_jump hcurrent hjump, hcontrol, if_neg Bool.false_ne_true]
    obtain ⟨hscript, hpath, hcancelled, hperformed⟩ := performed t.performance spot.instruction
    have hfollows' : ((t.performance.remember spot.instruction).perform Headless.executor
        spot.instruction).session.Follows k (passed ++ k.top.spot?.toList) := by
      refine ⟨?_, hfollows.settled⟩
      rw [hscript, hpath]
      exact hfollows.stands
    refine .of_make (m := .advance) hs ha (hscript.trans hsame) (hcancelled.trans hfree)
      hfollows' rfl ?_ hopening fun s => ?_
    · rw [hperformed, hstage, List.foldl_append]
      rfl
    · change _ = ((passed ++ k.top.spot?.toList).map Spot.instruction).foldl Stage.apply s
      rw [hspot, Option.toList_some, List.map_append, List.foldl_append, List.foldl_append,
        hpassed]
      rfl

theorem Faithful.stop (h : Faithful script t) (hs : script.Sound) (ha : script.Addressable)
    {p : Performance Headless} {outcome : Except Failure PlayOutcome}
    (hbeat : Performance.beat Headless.executor t.performance = .stop outcome p) :
    (outcome = .ok .ended ∧ p = t.performance) ∨
      (outcome = .ok .awaitingChoice ∧ (∃ c, p.session.current? = some (.choice c)) ∧
        Faithful script ⟨p, t.chapter.after t.performance⟩) := by
  obtain ⟨hsame, hfree, hstage, hopening, k, passed, hfollows, hpassed⟩ := h
  have hcurrent := hfollows.current? (hsame ▸ ha)
  have hbeats := Performance.beats (x := Headless.executor) hfollows (hsame ▸ hs) (hsame ▸ ha) hfree
  rw [hbeat] at hbeats
  cases hbeats with
  | ended => exact .inl ⟨rfl, rfl⟩
  | @choice place c hspot =>
    have hchoice : t.performance.session.current? = some (.choice c) := by
      rw [hcurrent, hspot]
      rfl
    have hcontrol : (Instruction.choice c).isControl = false := rfl
    obtain ⟨hscript, hpath, hcancelled, hperformed⟩ := performed t.performance (.choice c)
    refine .inr ⟨rfl, ⟨c, hchoice⟩, ?_⟩
    rw [Chapter.after_of_ne_jump hchoice (by simp), hcontrol, if_neg Bool.false_ne_true]
    refine ⟨hscript.trans hsame, hcancelled.trans hfree, ?_, hopening, k, passed,
      ⟨hfollows.stands, hfollows.settled⟩, fun s => ?_⟩
    · dsimp only
      rw [List.foldl_append, ← hstage]
      exact hperformed
    · rw [List.foldl_append, hpassed]
      rfl

/-- However long play goes on, it does not fail, and it waits only where a choice is shown. -/
theorem Faithful.play (h : Faithful script t) (hs : script.Sound) (ha : script.Addressable)
    (n : Nat) :
    Faithful script (t.play n).2 ∧ ((t.play n).1 = .ok .awaitingChoice →
      ∃ c, (t.play n).2.performance.session.current? = some (.choice c)) := by
  induction n generalizing t with
  | zero =>
    refine ⟨h, fun hawaiting => ?_⟩
    cases hawaiting
  | succ n ih =>
    rw [Telling.play]
    cases hbeat : Performance.beat Headless.executor t.performance with
    | on p => exact ih (h.on hs ha hbeat)
    | stop outcome p =>
      rcases h.stop hs ha hbeat with ⟨rfl, rfl⟩ | ⟨rfl, hchoice, hfaithful⟩
      · refine ⟨h, fun hawaiting => ?_⟩
        cases hawaiting
      · exact ⟨hfaithful, fun _ => hchoice⟩

/-- A choice that is left behind has had no part in the stage. -/
theorem foldl_choice {spot : Option Spot} {c : Choice Instruction}
    (hspot : spot.map Spot.instruction = some (.choice c)) (passed : List Spot) (s : Stage) :
    ((passed ++ spot.toList).map Spot.instruction).foldl Stage.apply s =
      (passed.map Spot.instruction).foldl Stage.apply s := by
  obtain ⟨x, rfl, hx⟩ := Option.map_eq_some_iff.mp hspot
  rw [Option.toList_some, List.map_append, List.foldl_append, List.map_singleton, hx]
  rfl

theorem Faithful.call (h : Faithful script t) (hs : script.Sound) (ha : script.Addressable)
    (c : Call) : Faithful script (t.call c) := by
  cases c with
  | play limit => exact (h.play hs ha limit).1
  | choose branch =>
    rw [Telling.call, Performance.call]
    cases hchoose : t.performance.session.choose branch with
    | error failure => exact h
    | ok s =>
      have hmake := Session.make?_of_choose hchoose
      obtain ⟨hsame, hfree, hstage, hopening, k, passed, hfollows, hpassed⟩ := h
      have hchoice : ∃ c, k.top.spot?.map Spot.instruction = some (.choice c) := by
        rw [← hfollows.current? (hsame ▸ ha)]
        rw [Session.choose] at hchoose
        split at hchoose
        · rename_i c hcurrent
          exact ⟨c, hcurrent⟩
        · cases hchoose
      obtain ⟨c, hc⟩ := hchoice
      refine .of_make hs ha hsame hfree hfollows hmake hstage hopening fun s => ?_
      change _ = ((passed ++ k.top.spot?.toList).map Spot.instruction).foldl Stage.apply s
      rw [foldl_choice hc, hpassed]

theorem Faithful.run (h : Faithful script t) (hs : script.Sound) (ha : script.Addressable)
    (calls : List Call) : Faithful script (calls.foldl Telling.call t) := by
  induction calls generalizing t with
  | nil => exact h
  | cons c rest ih => exact ih (h.call hs ha c)

/-- Where a choice is shown, the history of the path does to an empty stage what has run since the last
jump does to it. -/
theorem Faithful.history (h : Faithful script t) (ha : script.Addressable)
    (hchoice : ∃ c, t.performance.session.current? = some (.choice c)) :
    ∃ entries, History.ofPath script t.performance.session.path = .ok entries ∧
      (entries.map Entry.instruction).foldl Stage.apply .empty =
        t.chapter.ran.foldl Stage.apply .empty := by
  obtain ⟨rfl, hfree, hstage, hopening, k, passed, hfollows, hpassed⟩ := h
  obtain ⟨c, hc⟩ := hchoice
  rw [hfollows.current? ha] at hc
  obtain ⟨entries, hentries, hspots⟩ := hfollows.stands.ofPath
  refine ⟨entries, hentries, ?_⟩
  have hmap : entries.map Entry.instruction = (entries.map Entry.spot).map Spot.instruction := by
    rw [List.map_map]
    rfl
  rw [hmap, hspots, foldl_choice hc, hpassed]

theorem Faithful.rebuild? (h : Faithful script t) (ha : script.Addressable)
    (hchoice : ∃ c, t.performance.session.current? = some (.choice c)) {s : Session}
    (hscript : s.script = script) (hfree : s.cancelled = false) (time : UInt64)
    (kind : SaveKind) :
    s.rebuild? (t.performance.session.save time kind).toCheckpoint =
      some (.completed, t.chapter.ran.foldl Stage.apply .empty) := by
  obtain ⟨entries, hentries, hhistory⟩ := h.history ha hchoice
  rw [← hscript] at hentries
  rw [← hhistory]
  exact Performance.rebuild?_of_ofPath hentries hfree

/-- The live stage owes nothing to what was there before the last jump just if all that has gone. -/
theorem Faithful.stage_eq_iff (h : Faithful script t) :
    t.performance.executor.stage = t.chapter.ran.foldl Stage.apply .empty ↔
      t.chapter.opening.GoneAfter t.chapter.ran := by
  rw [h.stage]
  exact Stage.foldl_apply_eq_empty _ _

end Telling

namespace Performance

/-- Restoring where a choice is shown brings back what has run since the last jump, on an empty stage.
That is the live stage just if all that was on stage at that jump has gone since, and always before
the first jump. -/
theorem rebuild?_of_awaitingChoice {d : Draft} {limits : Limits} {script : Script}
    (hscript : d.compile limits = .ok script) (haddressable : script.Addressable)
    {name : String} {settings : Settings} {calls : List Call} {limit : Nat}
    {live : Performance Headless}
    (hlive : play Headless.executor limit
      (calls.foldl call ⟨Session.start name script settings, .fresh⟩) =
        (.ok .awaitingChoice, live)) (other : String) (time : UInt64) (kind : SaveKind) :
    let rebuilt := (Session.start other script settings).rebuild?
      (live.session.save time kind).toCheckpoint
    ∃ chapter,
      (calls.foldl Telling.call (.start name script settings)).play limit =
        (.ok .awaitingChoice, ⟨live, chapter⟩) ∧
      rebuilt = some (.completed, chapter.ran.foldl Stage.apply .empty) ∧
      (rebuilt = some (.completed, live.executor.stage) ↔
        chapter.opening.GoneAfter chapter.ran) ∧
      (chapter.jumps = 0 → rebuilt = some (.completed, live.executor.stage)) := by
  intro rebuilt
  have hsound := Draft.compile_sound hscript
  obtain ⟨told, htold⟩ : ∃ t, t = calls.foldl Telling.call (.start name script settings) :=
    ⟨_, rfl⟩
  have hbegun : Telling.Faithful script told := by
    rw [htold]
    exact (Telling.Faithful.start hsound).run hsound haddressable calls
  have hplay : play Headless.executor limit told.performance = (.ok .awaitingChoice, live) := by
    rw [htold, ← Telling.run_performance]
    exact hlive
  rw [Telling.play_performance] at hplay
  obtain ⟨houtcome, hperformance⟩ := Prod.mk.inj hplay
  obtain ⟨hended, hchoice⟩ := hbegun.play hsound haddressable limit
  have hrebuilt : rebuilt =
      some (.completed, (told.play limit).2.chapter.ran.foldl Stage.apply .empty) := by
    have hrebuild := hended.rebuild? haddressable (hchoice houtcome)
      (s := Session.start other script settings) rfl rfl time kind
    rw [hperformance] at hrebuild
    exact hrebuild
  have hgone : rebuilt = some (.completed, live.executor.stage) ↔
      (told.play limit).2.chapter.opening.GoneAfter (told.play limit).2.chapter.ran := by
    rw [hrebuilt, ← hended.stage_eq_iff, hperformance]
    constructor
    · intro h
      exact (Prod.mk.inj (Option.some.inj h)).2.symm
    · intro h
      rw [h]
  refine ⟨(told.play limit).2.chapter, ?_, hrebuilt, hgone, ?_⟩
  · rw [← htold, ← hperformance, ← houtcome]
  · intro hjumps
    rw [hgone, hended.opening hjumps]
    exact Stage.goneAfter_empty _

theorem rebuild?_of_awaitingChoice_sample :
    ∃ live,
      play Headless.executor 10 ([.play 10, .choose 1].foldl call
        ⟨Session.start "live" ⟨Draft.sample.scenes, Draft.sample.ordered⟩ {}, .fresh⟩) =
          (.ok .awaitingChoice, live) ∧
      (Session.start "restored" ⟨Draft.sample.scenes, Draft.sample.ordered⟩ {}).rebuild?
        (live.session.save 0 .manual).toCheckpoint =
          some (.completed, ⟨none, .ofList ["ava"], .empty, .empty⟩) := by
  have haddressable := Draft.compile_addressable Draft.sample_compiles (by decide)
  obtain ⟨live, hlive⟩ : ∃ live, play Headless.executor 10 ([.play 10, .choose 1].foldl call
      ⟨Session.start "live" ⟨Draft.sample.scenes, Draft.sample.ordered⟩ {}, .fresh⟩) =
        (.ok .awaitingChoice, live) := ⟨_, Prod.ext rfl rfl⟩
  obtain ⟨chapter, htold, hrebuilt, -⟩ :=
    rebuild?_of_awaitingChoice Draft.sample_compiles haddressable hlive "restored" 0 .manual
  have hstage : (([.play 10, .choose 1].foldl Telling.call
      (.start "live" ⟨Draft.sample.scenes, Draft.sample.ordered⟩ {})).play
        10).2.chapter.ran.foldl Stage.apply .empty = ⟨none, .ofList ["ava"], .empty, .empty⟩ := by
    decide +kernel
  rw [htold] at hstage
  exact ⟨live, hlive, hrebuilt.trans (by rw [hstage])⟩

/-- A character comes on stage, and the scene after that is jumped to. -/
def parting : Draft := .ofScenes [
  ("next", [.choice ⟨none, [⟨"Stay", [.finish], none, none, none, none⟩]⟩]),
  ("start", [.showCharacter "ava" none none, .jump "next"])]

/-- A jump begins a new path, so nothing tells a restore what was on stage before it. -/
theorem stage_forgotten_by_jump :
    ∃ live,
      parting.compile {} = .ok ⟨parting.scenes, parting.ordered⟩ ∧
      play Headless.executor 10
        ⟨Session.start "live" ⟨parting.scenes, parting.ordered⟩ {}, .fresh⟩ =
          (.ok .awaitingChoice, live) ∧
      live.executor.stage = ⟨none, .ofList ["ava"], .empty, .empty⟩ ∧
      (Session.start "restored" ⟨parting.scenes, parting.ordered⟩ {}).rebuild?
        (live.session.save 0 .manual).toCheckpoint = some (.completed, .empty) := by
  refine ⟨_, ?_, Prod.ext ?_ rfl, ?_, ?_⟩
  · rfl
  · rfl
  · decide +kernel
  · decide +kernel

end Performance

end Narrative

import Narrative.Proofs.Play.Notes
import Narrative.Session

namespace Narrative

def Instruction.dialogue? : Instruction → Option Dialogue
  | .dialogue d => some d
  | _ => none

def Spot.dialogue? (x : Spot) : Option Dialogue := x.instruction.dialogue?

/-- A line of dialogue that has been shown, and the state it was shown in. -/
structure ShownLine where
  dialogue : Dialogue
  state : PlayerState

def ShownLine.told (l : ShownLine) : OverviewLine := ⟨l.dialogue, some l.state⟩

/-- A performance with notes on the lines shown, those since the last jump and those before it. -/
structure Recital (σ : Type) where
  performance : Performance σ
  earlier : List ShownLine
  shown : List ShownLine

namespace Session

theorem getElem?_pairLines (lines : List Dialogue) (states : List PlayerState) (n : Nat) :
    (pairLines lines states)[n]? = lines[n]?.map fun d =>
      ⟨d, if n < lines.length - states.length then none
        else states[n - (lines.length - states.length) + (states.length - lines.length)]?⟩ := by
  rw [pairLines, List.getElem?_map, List.getElem?_zipIdx, Option.map_map]
  simp [Function.comp_def]

/-- As many of the latest states as there are lines go with the lines. -/
theorem pairLines_append {lines : List Dialogue} {states : List PlayerState}
    (before : List PlayerState) (h : lines.length = states.length) :
    pairLines lines (before ++ states) = List.zipWith OverviewLine.mk lines (states.map some) := by
  refine List.ext_getElem? fun n => ?_
  have hmissing : lines.length - (before ++ states).length = 0 := by simp [h]
  have hsurplus : (before ++ states).length - lines.length = before.length := by simp [h]
  rw [getElem?_pairLines, hmissing, hsurplus, List.getElem?_zipWith]
  cases hd : lines[n]? with
  | none => rfl
  | some d =>
    have hn : n < states.length := h ▸ (List.getElem?_eq_some_iff.mp hd).1
    simp [List.getElem?_append_right, hn]

/-- With a state too few, the oldest line goes without. -/
theorem pairLines_short {lines : List Dialogue} {states : List PlayerState}
    (h : lines.length = states.length + 1) :
    pairLines lines states = List.zipWith OverviewLine.mk lines (none :: states.map some) := by
  refine List.ext_getElem? fun n => ?_
  have hmissing : lines.length - states.length = 1 := by simp [h]
  have hsurplus : states.length - lines.length = 0 := by simp [h]
  rw [getElem?_pairLines, hmissing, hsurplus, List.getElem?_zipWith]
  cases hd : lines[n]? with
  | none => rfl
  | some d =>
    have hn : n < states.length + 1 := h ▸ (List.getElem?_eq_some_iff.mp hd).1
    cases n with
    | zero => simp
    | succ n => simp [Nat.lt_of_succ_lt_succ hn]

theorem dialogues_append (passed : List Spot) (at? : Option Spot) :
    (passed ++ at?.toList).filterMap Spot.dialogue? =
      passed.filterMap Spot.dialogue? ++ (at?.bind Spot.dialogue?).toList := by
  cases at? with
  | none => simp
  | some x => cases hx : x.dialogue? <;> simp [hx]

/-- Where the path has run through these spots, the overview has the dialogues among them. -/
theorem overview_of_stands {s : Session} {k : Stack} {log : List Spot} (h : s.Follows k log) :
    s.overview = pairLines (log.filterMap Spot.dialogue?) s.snapshots := by
  obtain ⟨entries, hentries, hspots⟩ := h.stands.ofPath
  rw [overview, hentries, ← hspots, List.filterMap_map]
  rfl

end Session

namespace Recital

variable {σ : Type} {x : Executor σ}

def start (name : String) (script : Script) (settings : Settings) (e : σ) : Recital σ :=
  ⟨⟨Session.start name script settings, e⟩, [], []⟩

/-- The notes after the instruction at hand has had its turn. A jump begins a new path, and what was shown
before is on it no longer. -/
def after (t : Recital σ) (p : Performance σ) : Recital σ :=
  match t.performance.session.current? with
  | some (.jump _) => ⟨p, t.earlier ++ t.shown, []⟩
  | some (.dialogue d) => ⟨p, t.earlier, t.shown ++ [⟨d, t.performance.session.state⟩]⟩
  | _ => ⟨p, t.earlier, t.shown⟩

/-- Play with notes. A turn that stops play shows no line. -/
def play (x : Executor σ) : Nat → Recital σ → Except Failure PlayOutcome × Recital σ
  | 0, t => (.ok .stepLimit, t)
  | n + 1, t =>
    match Performance.beat x t.performance with
    | .stop outcome p => (outcome, { t with performance := p })
    | .on p => play x n (t.after p)

def serve (x : Executor σ) (t : Recital σ) : Call → Recital σ
  | .play limit => (t.play x limit).2
  | .choose branch => { t with performance := t.performance.serve x (.choose branch) }

theorem after_performance (t : Recital σ) (p : Performance σ) : (t.after p).performance = p := by
  rw [after]
  split <;> rfl

/-- Taking notes changes nothing of the play. -/
theorem play_performance (n : Nat) (t : Recital σ) :
    Performance.play x n t.performance = ((t.play x n).1, (t.play x n).2.performance) := by
  induction n generalizing t with
  | zero => rfl
  | succ n ih =>
    rw [Performance.play_succ, play]
    cases Performance.beat x t.performance with
    | stop outcome p => rfl
    | on p =>
      have hrest := ih (t.after p)
      rw [after_performance] at hrest
      exact hrest

theorem serve_performance (t : Recital σ) (c : Call) :
    t.performance.serve x c = (t.serve x c).performance := by
  cases c with
  | choose branch => rfl
  | play limit => rw [Performance.serve, play_performance, serve]

theorem run_performance (calls : List Call) (t : Recital σ) :
    calls.foldl (Performance.serve x) t.performance = (calls.foldl (serve x) t).performance := by
  induction calls generalizing t with
  | nil => rfl
  | cons c rest ih => rw [List.foldl_cons, List.foldl_cons, serve_performance, ih]

theorem run_start (x : Executor σ) (calls : List Call) (name : String) (script : Script)
    (settings : Settings) (e : σ) :
    calls.foldl (Performance.serve x) ⟨Session.start name script settings, e⟩ =
      (calls.foldl (serve x) (.start name script settings e)).performance :=
  run_performance calls (.start name script settings e)

/-- The lines noted are the dialogues that the path has passed, and their states are those remembered.
A line at hand is on the path and has not been passed: it is still to be shown. -/
structure Faithful (script : Script) (t : Recital σ) : Prop where
  same : t.performance.session.script = script
  live : t.performance.session.preview = false
  snapshots : t.performance.session.snapshots = (t.earlier ++ t.shown).map ShownLine.state
  passed : ∃ k passed, t.performance.session.Follows k (passed ++ k.top.spot?.toList) ∧
    passed.filterMap Spot.dialogue? = t.shown.map ShownLine.dialogue

variable {script : Script} {t : Recital σ}

theorem Faithful.start {name : String} {settings : Settings} {e : σ} (hs : script.Sound) :
    Faithful script (.start name script settings e) := by
  obtain ⟨opening, hopening⟩ := hs.opening
  exact ⟨rfl, rfl, rfl, _, [], .start hopening, rfl⟩

/-- After a move nothing is passed yet but what the move leaves on the path. -/
theorem Faithful.of_make {p : Performance σ} {earlier shown : List ShownLine} {k : Stack}
    {log : List Spot} {m : Move} {s : Session} (hs : script.Sound) (ha : script.Addressable)
    (hsame : p.session.script = script) (hlive : p.session.preview = false)
    (hsnapshots : p.session.snapshots = (earlier ++ shown).map ShownLine.state)
    (hfollows : p.session.Follows k log) (hmake : p.session.make? m = some s)
    (hlines : (m.kept log).filterMap Spot.dialogue? = shown.map ShownLine.dialogue) :
    Faithful script ⟨{ p with session := s }, earlier, shown⟩ := by
  have hframe := Session.make?_eq hmake
  obtain ⟨k', hfollows'⟩ := hfollows.made (hsame ▸ hs) (hsame ▸ ha) hmake
  refine ⟨?_, ?_, ?_, k', m.kept log, hfollows', hlines⟩
  · rw [hframe]
    exact hsame
  · rw [hframe]
    exact hlive
  · rw [hframe]
    exact hsnapshots

/-- An instruction that has its turn leaves the path alone. For a line of dialogue the state is remembered
that it is shown in. -/
theorem performed (x : Executor σ) {p : Performance σ} (hlive : p.session.preview = false)
    (i : Instruction) :
    ((p.remember i).perform x i).session.script = p.session.script ∧
    ((p.remember i).perform x i).session.path = p.session.path ∧
    ((p.remember i).perform x i).session.preview = p.session.preview ∧
    ((p.remember i).perform x i).session.snapshots =
      p.session.snapshots ++ i.dialogue?.toList.map fun _ => p.session.state := by
  have hrecorded : p.session.recordSnapshot =
      { p.session with snapshots := p.session.snapshots ++ [p.session.state] } := by
    rw [Session.recordSnapshot, if_neg (Bool.eq_false_iff.mp hlive)]
  cases i with
  | dialogue d =>
    rw [Performance.remember, hrecorded]
    exact ⟨rfl, rfl, rfl, rfl⟩
  | _ => exact ⟨rfl, rfl, rfl, (List.append_nil _).symm⟩

theorem after_of_ne_jump {i : Instruction} (hcurrent : t.performance.session.current? = some i)
    (hjump : ∀ name, i ≠ .jump name) (p : Performance σ) :
    t.after p = ⟨p, t.earlier, t.shown ++
      i.dialogue?.toList.map fun d => ⟨d, t.performance.session.state⟩⟩ := by
  rw [after, hcurrent]
  cases i with
  | jump name => exact absurd rfl (hjump name)
  | dialogue d => rfl
  | _ => simp [Instruction.dialogue?]

theorem dialogue?_of_isControl {i : Instruction} (h : i.isControl = true) : i.dialogue? = none := by
  cases i with
  | dialogue d => cases h
  | _ => rfl

theorem Faithful.on (h : Faithful script t) (hs : script.Sound) (ha : script.Addressable)
    {p : Performance σ} (hfree : t.performance.session.cancelled = false)
    (hbeat : Performance.beat x t.performance = .on p) : Faithful script (t.after p) := by
  obtain ⟨hsame, hlive, hsnapshots, k, passed, hfollows, hlines⟩ := h
  have hcurrent := hfollows.current? (hsame ▸ ha)
  have hbeats := Performance.beats (x := x) hfollows (hsame ▸ hs) (hsame ▸ ha) hfree
  rw [hbeat] at hbeats
  cases hbeats with
  | entry hspot =>
    rw [hspot] at hcurrent
    rw [after, hcurrent]
    refine .of_make (m := .advance) hs ha hsame hlive hsnapshots hfollows rfl ?_
    change (passed ++ k.top.spot?.toList).filterMap Spot.dialogue? = _
    rw [Session.dialogues_append, hspot, hlines]
    simp
  | jump hspot hname hmake =>
    rw [hspot, Option.map_some, hname] at hcurrent
    rw [after, hcurrent]
    refine .of_make hs ha hsame hlive ?_ hfollows hmake rfl
    rw [List.append_nil]
    exact hsnapshots
  | turn hspot hcontrol hjump hmake hkept =>
    have hsilent := dialogue?_of_isControl hcontrol
    rw [hspot] at hcurrent
    rw [after_of_ne_jump hcurrent hjump, hsilent]
    refine .of_make hs ha hsame hlive ?_ hfollows hmake ?_
    · simpa using hsnapshots
    · rw [hkept, Session.dialogues_append, hspot, hlines]
      simp [Spot.dialogue?, hsilent]
  | @perform spot hspot hcontrol =>
    have hjump : ∀ name, spot.instruction ≠ .jump name := by
      intro name heq
      rw [heq] at hcontrol
      cases hcontrol
    obtain ⟨hscript, hpath, hpreview, hremembered⟩ := performed x hlive spot.instruction
    have hfollows' : ((t.performance.remember spot.instruction).perform x
        spot.instruction).session.Follows k (passed ++ k.top.spot?.toList) := by
      refine ⟨?_, hfollows.settled⟩
      rw [hscript, hpath]
      exact hfollows.stands
    rw [hspot] at hcurrent
    rw [after_of_ne_jump hcurrent hjump]
    refine .of_make (m := .advance) hs ha (hscript.trans hsame) (hpreview.trans hlive) ?_
      hfollows' rfl ?_
    -- A line of dialogue is passed in the turn that shows it, so path and notes get it together.
    · rw [hremembered, hsnapshots]
      simp [Function.comp_def]
    · change (passed ++ k.top.spot?.toList).filterMap Spot.dialogue? = _
      rw [Session.dialogues_append, hspot, hlines]
      simp [Spot.dialogue?, Function.comp_def]

/-- A turn that stops play leaves everything to the notes as it was. -/
theorem Faithful.stop (h : Faithful script t) (hs : script.Sound) (ha : script.Addressable)
    {p : Performance σ} {outcome : Except Failure PlayOutcome}
    (hfree : t.performance.session.cancelled = false)
    (hbeat : Performance.beat x t.performance = .stop outcome p) :
    Faithful script { t with performance := p } := by
  obtain ⟨hsame, hlive, hsnapshots, k, passed, hfollows, hlines⟩ := h
  have hbeats := Performance.beats (x := x) hfollows (hsame ▸ hs) (hsame ▸ ha) hfree
  rw [hbeat] at hbeats
  cases hbeats with
  | ended => exact ⟨hsame, hlive, hsnapshots, k, passed, hfollows, hlines⟩
  | choice hspot =>
    exact ⟨hsame, hlive, hsnapshots, k, passed, ⟨hfollows.stands, hfollows.settled⟩, hlines⟩

theorem Faithful.play (h : Faithful script t) (hs : script.Sound) (ha : script.Addressable)
    (n : Nat) : Faithful script (t.play x n).2 := by
  induction n generalizing t with
  | zero => exact h
  | succ n ih =>
    rw [Recital.play]
    cases hcancelled : t.performance.session.cancelled with
    | true =>
      have hbeat : Performance.beat x t.performance = .stop (.ok .cancelled) t.performance := by
        rw [Performance.beat, if_pos hcancelled]
      rw [hbeat]
      exact h
    | false =>
      cases hbeat : Performance.beat x t.performance with
      | stop outcome p => exact h.stop hs ha hcancelled hbeat
      | on p => exact ih (h.on hs ha hcancelled hbeat)

theorem Faithful.serve (h : Faithful script t) (hs : script.Sound) (ha : script.Addressable)
    (c : Call) : Faithful script (t.serve x c) := by
  cases c with
  | play limit => exact h.play hs ha limit
  | choose branch =>
    rw [Recital.serve, Performance.serve]
    cases hchoose : t.performance.session.choose branch with
    | error failure => exact h
    | ok s =>
      obtain ⟨hsame, hlive, hsnapshots, k, passed, hfollows, hlines⟩ := h
      obtain ⟨c, hcurrent⟩ := Session.current?_of_choose hchoose
      rw [hfollows.current? (hsame ▸ ha)] at hcurrent
      obtain ⟨spot, hspot, hinstruction⟩ := Option.map_eq_some_iff.mp hcurrent
      refine .of_make hs ha hsame hlive hsnapshots hfollows (Session.make?_of_choose hchoose) ?_
      change (passed ++ k.top.spot?.toList).filterMap Spot.dialogue? = _
      rw [Session.dialogues_append, hspot, hlines]
      simp [Spot.dialogue?, hinstruction, Instruction.dialogue?]

theorem Faithful.run (h : Faithful script t) (hs : script.Sound) (ha : script.Addressable)
    (calls : List Call) : Faithful script (calls.foldl (Recital.serve x) t) := by
  induction calls generalizing t with
  | nil => exact h
  | cons c rest ih => exact ih (h.serve hs ha c)

/-- The overview pairs the lines shown, and one at hand, with the states remembered. -/
theorem Faithful.overview (h : Faithful script t) (ha : script.Addressable) :
    t.performance.session.overview =
      Session.pairLines (t.shown.map ShownLine.dialogue ++
          (t.performance.session.current?.bind Instruction.dialogue?).toList)
        (t.earlier.map ShownLine.state ++ t.shown.map ShownLine.state) := by
  obtain ⟨hsame, hlive, hsnapshots, k, passed, hfollows, hlines⟩ := h
  have hhand : k.top.spot?.bind Spot.dialogue? =
      t.performance.session.current?.bind Instruction.dialogue? := by
    rw [hfollows.current? (hsame ▸ ha), Option.bind_map]
    rfl
  rw [Session.overview_of_stands hfollows, Session.dialogues_append, hlines, hhand, hsnapshots,
    List.map_append]

/-- The lines shown and one that is still to be shown, each with the state of the line before it. -/
def ahead (t : Recital σ) (d : Dialogue) : List OverviewLine :=
  List.zipWith OverviewLine.mk (t.shown.map ShownLine.dialogue ++ [d])
    (t.earlier.getLast?.map ShownLine.state :: t.shown.map fun l => some l.state)

theorem Faithful.overview_shown (h : Faithful script t) (ha : script.Addressable)
    (hcurrent : ∀ d, t.performance.session.current? ≠ some (.dialogue d)) :
    t.performance.session.overview = t.shown.map ShownLine.told := by
  have hhand : t.performance.session.current?.bind Instruction.dialogue? = none := by
    cases hi : t.performance.session.current? with
    | none => rfl
    | some i =>
      cases i with
      | dialogue d => exact absurd hi (hcurrent d)
      | _ => rfl
  rw [h.overview ha, hhand, Option.toList_none, List.append_nil,
    Session.pairLines_append _ (by simp), List.map_map, List.zipWith_map, List.zipWith_self]
  rfl

theorem Faithful.overview_ahead (h : Faithful script t) (ha : script.Addressable) {d : Dialogue}
    (hcurrent : t.performance.session.current? = some (.dialogue d)) :
    t.performance.session.overview = t.ahead d := by
  rw [h.overview ha, hcurrent]
  change Session.pairLines (t.shown.map ShownLine.dialogue ++ [d]) _ = _
  rw [ahead]
  -- The states are one too few for the lines, unless one is left over from before the jump.
  cases hearlier : t.earlier.getLast? with
  | none =>
    rw [List.getLast?_eq_none_iff.mp hearlier, List.map_nil, List.nil_append,
      Session.pairLines_short (by simp), List.map_map]
    rfl
  | some last =>
    obtain ⟨before, hbefore⟩ := List.getLast?_eq_some_iff.mp hearlier
    rw [hbefore, List.map_append, List.append_assoc, Session.pairLines_append _ (by simp)]
    simp [Function.comp_def]

/-- Wherever play rests, every state remembered is that of a line shown. Where it rests on no line, the
overview tells the lines shown since the last jump, in order, each in the state it was shown in. Where
it rests on a line still to be shown, that line is told as well, and every line with the state of the
line before. -/
theorem overview_of_play {d : Draft} {limits : Limits} (hscript : d.compile limits = .ok script)
    (haddressable : script.Addressable) (name : String) (settings : Settings) (x : Executor σ)
    (e : σ) (calls : List Call) :
    let t := calls.foldl (Recital.serve x) (.start name script settings e)
    let p := calls.foldl (Performance.serve x) ⟨Session.start name script settings, e⟩
    t.performance = p ∧
      p.session.snapshots = (t.earlier ++ t.shown).map ShownLine.state ∧
      ((∀ d, p.session.current? ≠ some (.dialogue d)) →
        p.session.overview = t.shown.map ShownLine.told) ∧
      ∀ d, p.session.current? = some (.dialogue d) → p.session.overview = t.ahead d := by
  intro t p
  have hsound := Draft.compile_sound hscript
  have hperformance : p = t.performance := run_start x calls name script settings e
  have hfaithful : Faithful script t :=
    (Faithful.start hsound).run hsound haddressable calls
  rw [hperformance]
  exact ⟨rfl, hfaithful.snapshots, hfaithful.overview_shown haddressable,
    fun d => hfaithful.overview_ahead haddressable⟩

/-- A greeting, some gold, and a farewell. -/
def farewell : Draft := .ofScenes [
  ("start", [.dialogue ⟨none, "Hello.", none⟩, .setVar "gold" 5, .dialogue ⟨none, "Bye.", none⟩,
    .finish])]

theorem farewell_compiles : farewell.compile {} = .ok ⟨farewell.scenes, farewell.ordered⟩ := by
  rfl

/-- Once all has been shown, each line is told in its own state. -/
theorem overview_of_play_farewell :
    let p := [.play 10].foldl (Performance.serve Headless.executor)
      ⟨Session.start "live" ⟨farewell.scenes, farewell.ordered⟩ {}, .fresh⟩
    p.session.overview = [⟨⟨none, "Hello.", none⟩, some .empty⟩,
      ⟨⟨none, "Bye.", none⟩, some (.ofPairs [("gold", .int 5)])⟩] := by
  intro p
  have haddressable := Draft.compile_addressable farewell_compiles (by decide)
  obtain ⟨-, -, hshown, -⟩ := overview_of_play farewell_compiles haddressable "live" {}
    Headless.executor .fresh [.play 10]
  have hrests : p.session.current?.all (fun i => i.dialogue?.isNone) = true := by decide +kernel
  have hlines : ([.play 10].foldl (serve Headless.executor) (.start "live"
      ⟨farewell.scenes, farewell.ordered⟩ {} .fresh)).shown.map ShownLine.told =
        [⟨⟨none, "Hello.", none⟩, some .empty⟩,
          ⟨⟨none, "Bye.", none⟩, some (.ofPairs [("gold", .int 5)])⟩] := by
    decide +kernel
  rw [← hlines]
  refine hshown fun d hcurrent => ?_
  change p.session.current? = some (.dialogue d) at hcurrent
  rw [hcurrent] at hrests
  cases hrests

/-- With the farewell at hand only the greeting has been shown. The overview tells both, the greeting
without a state and the farewell in the state that the greeting was shown in. -/
theorem overview_ahead_of_play :
    let script : Script := ⟨farewell.scenes, farewell.ordered⟩
    let t := [.play 3].foldl (serve Headless.executor) (.start "live" script {} .fresh)
    let p := [.play 3].foldl (Performance.serve Headless.executor)
      ⟨Session.start "live" script {}, .fresh⟩
    farewell.compile {} = .ok script ∧ p = t.performance ∧
      t.shown.map ShownLine.told = [⟨⟨none, "Hello.", none⟩, some .empty⟩] ∧
      p.session.overview = [⟨⟨none, "Hello.", none⟩, none⟩, ⟨⟨none, "Bye.", none⟩, some .empty⟩] := by
  intro script t p
  have hperformance : p = t.performance :=
    run_start Headless.executor [.play 3] "live" script {} .fresh
  refine ⟨farewell_compiles, hperformance, ?_, ?_⟩
  · decide +kernel
  · decide +kernel

end Recital

end Narrative

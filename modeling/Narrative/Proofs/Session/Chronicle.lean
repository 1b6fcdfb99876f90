import Narrative.Proofs.Session.Refinement
import Narrative.Session

namespace Narrative

/-- What is done to a session while it is read. -/
inductive Deed
  | event (e : Event)
  | undo

/-- A session with a log of the spots it has come to rest at since the last jump. For every position
to go back to there is a mark, the log as it was there. Marks of positions forgotten are kept. -/
structure Chronicle where
  session : Session
  log : List Spot
  marks : List (List Spot)

namespace Session

/-- The spot the path leads to; a path that leads nowhere has none. -/
def spot? (s : Session) : Option Spot :=
  match s.position with
  | .ok spot => spot
  | .error _ => none

variable {s : Session} {p : Path} {h : History}

theorem plan_of_ofPath (hp : History.ofPath s.script p = .ok h) :
    s.plan p = .ok (.ofHistory s.policy h.silent) := by
  rw [plan, RestorePlan.ofPath, hp]
  rfl

theorem adopt_of_ofPath {c : Checkpoint} (hc : History.ofPath s.script c.path = .ok h) :
    let plan := RestorePlan.ofHistory s.policy h.silent
    s.adopt c = .ok ({ s with toCheckpoint := c, keep := plan.keep }, plan) := by
  rw [adopt, plan_of_ofPath hc]
  rfl

end Session

namespace Chronicle

def start (name : String) (script : Script) (settings : Settings) : Chronicle :=
  ⟨Session.start name script settings, [], []⟩

def step (c : Chronicle) : Deed → Chronicle
  | .event (.alter state) => { c with session := { c.session with state := state } }
  | .event (.move m) =>
    match c.session.make? m with
    | some s =>
      ⟨s, m.kept c.log ++ s.spot?.toList,
        if c.session.records m then c.log :: c.marks else c.marks⟩
    | none => c
  | .undo =>
    match c.session.undo with
    | _ :: _ => ⟨c.session.goBack.1, c.marks.headD [], c.marks.tail⟩
    | [] => c

/-- Every position to go back to has its mark, and its path has run through the spots marked. -/
inductive Marked (s : Script) : List Checkpoint → List (List Spot) → Prop
  | nil {marks : List (List Spot)} : Marked s [] marks
  | cons {c : Checkpoint} {undo : List Checkpoint} {k : Stack} {log : List Spot}
    {marks : List (List Spot)} (stands : k.Stands s c.path log) (settled : k.Settled)
    (rest : Marked s undo marks) : Marked s (c :: undo) (log :: marks)

theorem Marked.take {s : Script} {undo : List Checkpoint} {marks : List (List Spot)}
    (h : Marked s undo marks) (n : Nat) : Marked s (undo.take n) marks := by
  induction h generalizing n with
  | nil =>
    rw [List.take_nil]
    exact .nil
  | cons stands settled _ ih =>
    cases n with
    | zero => exact .nil
    | succ n => exact .cons stands settled (ih n)

/-- The session is in step with a stack and its log, and so is every position to go back to. -/
structure Kept (script : Script) (c : Chronicle) : Prop where
  same : c.session.script = script
  follows : ∃ k, c.session.Follows k c.log
  marked : Marked script c.session.undo c.marks

variable {script : Script} {c : Chronicle}

theorem Kept.start {name : String} {settings : Settings} (hs : script.Sound) :
    Kept script (.start name script settings) := by
  obtain ⟨opening, hopening⟩ := hs.opening
  exact ⟨rfl, ⟨_, .start hopening⟩, .nil⟩

theorem Kept.move (h : Kept script c) (hs : script.Sound) (ha : script.Addressable) {m : Move}
    {s : Session} (hmake : c.session.make? m = some s) :
    Kept script ⟨s, m.kept c.log ++ s.spot?.toList,
      if c.session.records m then c.log :: c.marks else c.marks⟩ := by
  obtain ⟨rfl, ⟨k, hfollows⟩, hmarked⟩ := h
  obtain ⟨hscript, -, -, hundo, -⟩ := Session.make?_frame hmake
  obtain ⟨k', hfollows'⟩ := hfollows.made hs ha hmake
  have hspot : s.spot? = k'.top.spot? := by
    rw [Session.spot?, hfollows'.position (hscript ▸ ha)]
  refine ⟨hscript, ⟨k', ?_⟩, ?_⟩
  · dsimp only
    rw [hspot]
    exact hfollows'
  · dsimp only
    rw [hundo]
    split
    · exact (Marked.cons hfollows.stands hfollows.settled hmarked).take _
    · exact hmarked

theorem Kept.undo (h : Kept script c) {p : Checkpoint} {rest : List Checkpoint}
    (hundo : c.session.undo = p :: rest) :
    Kept script ⟨c.session.goBack.1, c.marks.headD [], c.marks.tail⟩ := by
  obtain ⟨rfl, -, hmarked⟩ := h
  rw [hundo] at hmarked
  cases hmarks : c.marks with
  | nil =>
    rw [hmarks] at hmarked
    cases hmarked
  | cons log marks =>
    rw [hmarks] at hmarked
    cases hmarked with
    | @cons _ _ k _ _ stands settled hrest =>
      obtain ⟨entries, hentries, -⟩ := stands.ofPath
      have hadopt := Session.adopt_of_ofPath (s := { c.session with undo := rest }) hentries
      rw [Session.goBack, hundo]
      dsimp only
      rw [hadopt]
      exact ⟨rfl, ⟨k, stands, settled⟩, hrest⟩

theorem Kept.step (h : Kept script c) (hs : script.Sound) (ha : script.Addressable) (d : Deed) :
    Kept script (c.step d) := by
  cases d with
  | event e =>
    cases e with
    | alter state =>
      obtain ⟨k, hfollows⟩ := h.follows
      exact ⟨h.same, ⟨k, hfollows.stands, hfollows.settled⟩, h.marked⟩
    | move m =>
      rw [Chronicle.step]
      split
      · rename_i s hmake
        exact h.move hs ha hmake
      · exact h
  | undo =>
    rw [Chronicle.step]
    split
    · rename_i p rest hundo
      exact h.undo hundo
    · exact h

theorem Kept.run (h : Kept script c) (hs : script.Sound) (ha : script.Addressable)
    (deeds : List Deed) : Kept script (deeds.foldl Chronicle.step c) := by
  induction deeds generalizing c with
  | nil => exact h
  | cons d rest ih => exact ih (h.step hs ha d)

/-- The history of the path is the log, spot by spot, and ends with the spot at hand. -/
theorem history_eq_log {d : Draft} {limits : Limits} (hscript : d.compile limits = .ok script)
    (haddressable : script.Addressable) (name : String) (settings : Settings)
    (deeds : List Deed) :
    let c := deeds.foldl Chronicle.step (.start name script settings)
    ∃ entries, History.ofPath script c.session.path = .ok entries ∧
      entries.map Entry.spot = c.log ∧
      ∀ x, c.session.position = .ok (some x) → (entries.map Entry.spot).getLast? = some x := by
  intro c
  have hsound := Draft.compile_sound hscript
  have hkept : Kept script c := (Kept.start hsound).run hsound haddressable deeds
  obtain ⟨hsame, ⟨k, hfollows⟩, -⟩ := hkept
  have hstands : k.Stands script c.session.path c.log := hsame ▸ hfollows.stands
  obtain ⟨entries, hentries, hlog⟩ := hstands.ofPath
  refine ⟨entries, hentries, hlog, ?_⟩
  intro x hx
  rw [hfollows.position (hsame ▸ haddressable)] at hx
  rw [hlog]
  exact hstands.last haddressable (Except.ok.inj hx)

theorem history_eq_log_sample :
    let script : Script := ⟨Draft.sample.scenes, Draft.sample.ordered⟩
    Draft.sample.compile {} = .ok script ∧ script.Addressable ∧
      ∀ deeds : List Deed,
        let c := deeds.foldl Chronicle.step (.start "sample" script {})
        ∃ entries, History.ofPath script c.session.path = .ok entries ∧
          entries.map Entry.spot = c.log ∧
          ∀ x, c.session.position = .ok (some x) →
            (entries.map Entry.spot).getLast? = some x := by
  intro script
  have haddressable := Draft.compile_addressable Draft.sample_compiles (by decide)
  exact ⟨Draft.sample_compiles, haddressable,
    history_eq_log Draft.sample_compiles haddressable "sample" {}⟩

/-- Waiting leaves the room, and undo comes back to the choice in it. -/
example :
    let c := [.event (.move .advance), .event (.move .advance), .event (.move .enterBlock),
      .event (.move (.choose 0)), .undo].foldl Chronicle.step
        (.start "sample" ⟨Draft.sample.scenes, Draft.sample.ordered⟩ {})
    c.log.map (fun x => x.instruction.name) = ["show_character", "block", "choice"] := by
  decide +kernel

end Chronicle

end Narrative

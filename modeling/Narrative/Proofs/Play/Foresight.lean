import Narrative.Proofs.Play.Notes
import Narrative.Proofs.Play.Progress
import Narrative.Proofs.Scan
import Narrative.Proofs.Session.Outset

namespace Narrative

open Scan (Onward Meets)

/-- A scan from one path finds what the notes tell, and gets to another path if it looks behind all of
it. -/
structure Scan.Foresees (s : Script) (p : Path) (notes : List Note) (q : Path) : Prop where
  meets : ∀ x ∈ Note.sighted notes, Meets s p x
  reaches : notes.all Note.isOpen = true → Relation.ReflTransGen (Onward s) p q

namespace Scan.Foresees

variable {s : Script} {p q r : Path} {a b : List Note} {spot : Spot}

theorem silent (h : Relation.ReflTransGen (Onward s) p q) : Foresees s p [] q :=
  ⟨List.forall_mem_nil _, fun _ => h⟩

theorem passedBy : Foresees s p [.passedBy spot] q :=
  ⟨List.forall_mem_nil _, fun h => by cases h⟩

theorem handed (hspot : Path.resolve s p = .ok (some spot))
    (hcontrol : spot.instruction.isControl = false)
    (h : spot.instruction.stopsScan = false → Relation.ReflTransGen (Onward s) p q) :
    Foresees s p [.handed spot] q where
  meets x hx := by
    have hx : x = spot := by
      rw [Note.sighted] at hx
      split at hx <;> exact List.mem_singleton.mp hx
    exact hx ▸ ⟨p, .refl, hspot, hcontrol⟩
  reaches hopen := h (by simpa [Note.isOpen] using hopen)

theorem append (h : Foresees s p a q) (h' : Foresees s q b r) : Foresees s p (a ++ b) r where
  meets x hx := by
    rcases Note.mem_sighted_append hx with hx | ⟨hopen, hx⟩
    · exact h.meets x hx
    · obtain ⟨t, hchain, hspot⟩ := h'.meets x hx
      exact ⟨t, (h.reaches hopen).trans hchain, hspot⟩
  reaches hopen := by
    rw [List.all_append, Bool.and_eq_true] at hopen
    exact (h.reaches hopen.1).trans (h'.reaches hopen.2)

end Scan.Foresees

/-- A scan goes wherever an instruction steers play, unless it is passed by. -/
theorem Session.onward_steer {script : Script} {s s' : Session} {spot : Spot}
    (h : s.Steady script) (hs : script.Sound) (ha : script.Addressable)
    (hposition : s.position = .ok (some spot)) (hcontrol : spot.instruction.isControl = true)
    (hfinish : spot.instruction ≠ .finish) (hpassed : s.passesBy spot.instruction = false)
    (hsteer : Performance.steer s spot.instruction = .ok s') :
    Relation.ReflTransGen (Onward script) s.path s'.outset := by
  obtain rfl := h.same
  have hcurrent := current?_of_position hposition
  have hmoves {q : Path} {m : Move} (hq : Onward s.script s.path q) (hm : ∀ name, m ≠ .jump name)
      (hmake : s.make? m = some (s.moveTo q)) :
      Relation.ReflTransGen (Onward s.script) s.path (s.moveTo q).outset := by
    rw [outset_of_make? h hs ha hm hmake]
    exact (Scan.onward_settle s.script q).head hq
  obtain ⟨place, i⟩ := spot
  cases i with
  | finish => exact absurd rfl hfinish
  | condition c =>
    obtain ⟨body, hbody⟩ := Option.isSome_iff_exists.mp
      (Option.isNone_eq_false_iff.mp hpassed)
    have henter : s.enterCondition =
        .ok (s.moveTo (Path.enterCondition (c.selector.select s.state) s.path),
          some (c.selector.select s.state)) := by
      rw [enterCondition, hcurrent]
      dsimp only
      rw [hbody]
    rw [Performance.steer, henter] at hsteer
    cases hsteer
    refine hmoves (m := .enterCondition) (.variant hposition (Keyed.mem_of_lookup hbody)) (by simp) ?_
    rw [make?, henter]
    rfl
  | block scene =>
    have henter : s.enterBlock = .ok (s.moveTo (Path.enterBlock scene s.path)) := by
      rw [enterBlock, hcurrent]
    rw [Performance.steer, henter] at hsteer
    cases hsteer
    refine hmoves (m := .enterBlock) (.block hposition) (by simp) ?_
    rw [make?, henter]
    rfl
  | jump scene =>
    rw [Performance.steer, jump] at hsteer
    split at hsteer
    · cases hsteer
      exact .single (.jump hposition)
    · cases hsteer
  | exit =>
    obtain ⟨s', hexit⟩ := Option.isSome_iff_exists.mp (Option.isNone_eq_false_iff.mp hpassed)
    rw [Performance.steer, hexit] at hsteer
    cases hsteer
    have hmake : s.make? .exitBranch = some s' := hexit
    rw [exitBranch] at hexit
    obtain ⟨left, hleave, rfl⟩ := Option.map_eq_some_iff.mp hexit
    exact hmoves (m := .exitBranch) (.exit hposition hleave) (by simp) hmake
  | _ => cases hcontrol

/-- A scan looks into every branch, so also into the one that is taken. -/
theorem Session.onward_choose {script : Script} {s s' : Session} {branch : UInt64}
    (h : s.Steady script) (hs : script.Sound) (ha : script.Addressable)
    (hchoose : s.choose branch = .ok s') :
    Relation.ReflTransGen (Onward script) s.outset s'.outset := by
  obtain rfl := h.same
  rw [outset_of_make? h hs ha (by simp) (make?_of_choose hchoose)]
  rw [choose] at hchoose
  split at hchoose
  · rename_i c hcurrent
    split at hchoose
    · rename_i hoffers
      cases hchoose
      obtain ⟨place, hposition⟩ := position_of_current? hcurrent
      have hnumber : branch.toNat < c.branches.length := by
        refine Nat.lt_of_not_le fun hle => ?_
        rw [Choice.offers, List.getElem?_eq_none hle] at hoffers
        cases hoffers
      have hbranch := Onward.branch hposition hnumber
      rw [UInt64.ofNat_toNat] at hbranch
      rw [outset_of_position h ha hposition]
      exact (Scan.onward_settle _ _).head hbranch
    · cases hchoose
  · cases hchoose

def Beat.after {σ : Type} : Beat σ → Performance σ
  | .on p => p
  | .stop _ p => p

namespace Performance

open Scan (Foresees)

variable {σ : Type} {script : Script} {x : Executor σ} {p : Performance σ}

/-- After an instruction that is not a choice has been handed to the executor, play goes on as a scan does
if the scan looks behind it. -/
theorem onward_perform (h : p.session.Steady script) (hs : script.Sound) (ha : script.Addressable)
    {spot : Spot} (hposition : p.session.position = .ok (some spot))
    (hcontrol : spot.instruction.isControl = false)
    (hchoice : ∀ c, spot.instruction ≠ .choice c) (hstops : spot.instruction.stopsScan = false) :
    Relation.ReflTransGen (Onward script) p.session.path
      ((p.remember spot.instruction).perform x spot.instruction).session.advance.outset := by
  have hperformed := steady_perform (steady_remember h spot.instruction) x spot.instruction
  have hpath : ((p.remember spot.instruction).perform x spot.instruction).session.path =
      p.session.path := by
    obtain ⟨snapshots, hremember⟩ := p.remember_eq spot.instruction
    rw [hremember]
    rfl
  have hblocking : spot.instruction.isBlocking = false := by
    obtain ⟨place, i⟩ := spot
    cases i with
    | choice c => exact absurd rfl (hchoice c)
    | _ => exact hstops
  rw [Session.outset_of_make? (m := .advance) hperformed hs ha (by simp) rfl, Session.path_advance,
    hperformed.same, hpath]
  exact (Scan.onward_settle script _).head (.pass (h.same ▸ hposition) hcontrol hblocking)

theorem foresees_control (h : p.session.Steady script) (hs : script.Sound)
    (ha : script.Addressable) (hfree : p.session.cancelled = false) {spot : Spot}
    (hposition : p.session.position = .ok (some spot))
    (hcontrol : spot.instruction.isControl = true) :
    Foresees script p.session.path p.note?.toList (beat x p).after.session.outset := by
  rw [note?_of_position hfree hposition, if_pos hcontrol]
  by_cases hfinish : spot.instruction = .finish
  · have hbeat : beat x p = .stop (.ok .ended) p := by
      rw [beat, if_neg (Bool.eq_false_iff.mp hfree), hposition]
      dsimp only
      rw [hfinish]
    rw [hbeat, hfinish, Beat.after, Session.outset_of_position h ha hposition]
    exact .silent .refl
  · obtain ⟨k, log, hfollows⟩ := h.follows
    have hspot := hfollows.position (h.same ▸ ha)
    rw [hposition] at hspot
    obtain ⟨m, s', -, hsteer, -⟩ := steer_moves hfollows (h.same ▸ hs) (h.same ▸ ha)
      (Except.ok.inj hspot).symm hcontrol hfinish
    rw [beat_of_steer hfree hposition hcontrol hfinish hsteer]
    cases hpassed : p.session.passesBy spot.instruction with
    | true => exact .passedBy
    | false =>
      exact .silent (Session.onward_steer h hs ha hposition hcontrol hfinish hpassed hsteer)

theorem foresees_perform (h : p.session.Steady script) (hs : script.Sound)
    (ha : script.Addressable) (hfree : p.session.cancelled = false) {spot : Spot}
    (hposition : p.session.position = .ok (some spot))
    (hcontrol : spot.instruction.isControl = false) :
    Foresees script p.session.path p.note?.toList (beat x p).after.session.outset := by
  have hresolve : Path.resolve script p.session.path = .ok (some spot) := h.same ▸ hposition
  rw [note?_of_position hfree hposition, if_neg (Bool.eq_false_iff.mp hcontrol)]
  by_cases hchoice : ∃ c, spot.instruction = .choice c
  · obtain ⟨place, i⟩ := spot
    obtain ⟨c, rfl⟩ := hchoice
    have hperformed := steady_perform h x (.choice c)
    rw [beat_of_choice hfree hposition, Beat.after,
      Session.outset_of_position hperformed ha hposition]
    exact .handed hresolve hcontrol fun _ => .refl
  · have hchoice := not_exists.mp hchoice
    rw [beat_of_perform hfree hposition hcontrol hchoice]
    exact .handed hresolve hcontrol (onward_perform h hs ha hposition hcontrol hchoice)

/-- A scan foresees each turn of play. -/
theorem foresees_beat (h : p.session.Steady script) (hs : script.Sound) (ha : script.Addressable) :
    Foresees script p.session.outset p.note?.toList (beat x p).after.session.outset := by
  cases hcancelled : p.session.cancelled with
  | true =>
    rw [beat, note?, if_pos hcancelled, if_pos hcancelled]
    exact .silent .refl
  | false =>
    obtain ⟨found, hposition⟩ := h.position ha
    cases found with
    | none =>
      have hfree := Bool.eq_false_iff.mp hcancelled
      rw [beat, note?, if_neg hfree, if_neg hfree, hposition]
      dsimp only
      split
      · rename_i hentry
        rw [Beat.after, Session.outset, if_pos hentry,
          Session.outset_of_make? (m := .advance) h hs ha (by simp) rfl, Session.path_advance, h.same]
        exact .silent (Scan.onward_settle script _)
      · exact .silent .refl
    | some spot =>
      rw [Session.outset_of_position h ha hposition]
      cases hcontrol : spot.instruction.isControl with
      | true => exact foresees_control h hs ha hcancelled hposition hcontrol
      | false => exact foresees_perform h hs ha hcancelled hposition hcontrol

theorem foresees_play (h : p.session.Steady script) (hs : script.Sound) (ha : script.Addressable)
    (n : Nat) :
    Foresees script p.session.outset (playNotes x n p) (play x n p).2.session.outset := by
  induction n generalizing p with
  | zero => exact .silent .refl
  | succ n ih =>
    have hturn := foresees_beat (x := x) h hs ha
    have hsteady := steady_beat (x := x) h hs ha
    rw [playNotes, play_succ]
    cases hbeat : beat x p with
    | on q =>
      rw [hbeat] at hturn hsteady
      exact hturn.append (ih hsteady)
    | stop outcome q =>
      rw [hbeat] at hturn
      rw [List.append_nil]
      exact hturn

theorem foresees_choose (h : p.session.Steady script) (hs : script.Sound) (ha : script.Addressable)
    (branch : UInt64) :
    (p.serve x (.choose branch)).session.Steady script ∧
      Foresees script p.session.outset [] (p.serve x (.choose branch)).session.outset := by
  rw [serve]
  cases hchoose : p.session.choose branch with
  | error failure => exact ⟨h, .silent .refl⟩
  | ok s =>
    have hmake := Session.make?_of_choose hchoose
    exact ⟨h.make hs ha hmake, .silent (Session.onward_choose h hs ha hchoose)⟩

theorem foresees_notes (h : p.session.Steady script) (hs : script.Sound)
    (ha : script.Addressable) (calls : List Call) :
    ∃ q, Foresees script p.session.outset (notes x calls p) q := by
  induction calls generalizing p with
  | nil => exact ⟨_, .silent .refl⟩
  | cons c rest ih =>
    cases c with
    | play limit =>
      have hstopped := stopped_play (x := x) h hs ha limit
      obtain ⟨q, hrest⟩ := ih (p := (play x limit p).2) hstopped.steady
      exact ⟨q, (foresees_play h hs ha limit).append hrest⟩
    | choose branch =>
      obtain ⟨hsteady, hchosen⟩ := foresees_choose (x := x) h hs ha branch
      obtain ⟨q, hrest⟩ := ih hsteady
      exact ⟨q, hchosen.append hrest⟩

/-- Wherever a session has got to, whatever the player state is by then and whichever branches are taken
from there on, a scan with enough steps and levels has found what play hands to its executor. -/
theorem sighted_mem_ahead {d : Draft} {limits : Limits} (hscript : d.compile limits = .ok script)
    (haddressable : script.Addressable) {s : Session} (hreached : Session.Reached script s)
    {spot : Spot} (hposition : s.position = .ok (some spot)) (state : PlayerState)
    (x : Executor σ) (executor : σ) (calls : List Call) :
    ∃ n, ∀ scan : ScanLimits, n ≤ scan.steps → n ≤ scan.depth →
      ∀ y ∈ Note.sighted (notes x calls ⟨{ s with state := state }, executor⟩),
        y ∈ Scan.ahead script scan s.path := by
  have hsound := Draft.compile_sound hscript
  have hsteady := hreached.steady hsound haddressable
  have hplayed : { s with state := state }.Steady script := hsteady.congr rfl rfl rfl
  obtain ⟨q, hforesees⟩ := foresees_notes (x := x) (p := ⟨{ s with state := state }, executor⟩)
    hplayed hsound haddressable calls
  have houtset : Session.outset { s with state := state } = s.path :=
    Session.outset_of_position hplayed haddressable hposition
  have hmeets := hforesees.meets
  rw [houtset] at hmeets
  exact Scan.forall_mem_ahead_of_meets hmeets

theorem sighted_mem_ahead_sample :
    let script : Script := ⟨Draft.sample.scenes, Draft.sample.ordered⟩
    let s := (play Headless.executor 1 ⟨Session.start "live" script {}, .fresh⟩).2.session
    let calls : List Call := [.play 4, .choose 1, .play 10]
    Draft.sample.compile {} = .ok script ∧ script.Addressable ∧ Session.Reached script s ∧
      (∃ spot, s.position = .ok (some spot)) ∧
      (Note.sighted (notes Headless.executor calls ⟨s, .fresh⟩)).length = 4 ∧
      ∃ n, ∀ scan : ScanLimits, n ≤ scan.steps → n ≤ scan.depth →
        ∀ y ∈ Note.sighted (notes Headless.executor calls ⟨s, .fresh⟩),
          y ∈ Scan.ahead script scan s.path := by
  intro script s calls
  have haddressable := Draft.compile_addressable Draft.sample_compiles (by decide)
  have hreached : Session.Reached script s := .play (.start "live" {}) Headless.executor .fresh 1
  have hs : s = { Session.start "live" script {} with path := [.jump "start", .index 0] } := rfl
  have hposition : s.position =
      .ok (some ⟨⟨⟨"start", []⟩, 0⟩, .showCharacter "ava" none none⟩) := by
    rw [hs]
    rfl
  have hlength : (Note.sighted (notes Headless.executor calls ⟨s, .fresh⟩)).length = 4 := by
    decide +kernel
  exact ⟨Draft.sample_compiles, haddressable, hreached, ⟨_, hposition⟩, hlength,
    sighted_mem_ahead Draft.sample_compiles haddressable hreached hposition s.state
      Headless.executor .fresh calls⟩

/-- A condition that asks for more than it has variants for. -/
def unmet : Draft := .ofScenes [
  ("start", [.condition ⟨.flag "met", [("true", [.finish])]⟩, .showBackground "hall.png", .finish])]

theorem unmet_compiles : unmet.compile {} = .ok ⟨unmet.scenes, unmet.ordered⟩ := by
  rfl

/-- What comes after a condition that is passed by is handed to the executor, and no scan has found it. -/
theorem unseen_behind_condition :
    let script : Script := ⟨unmet.scenes, unmet.ordered⟩
    let s := (play Headless.executor 1 ⟨Session.start "live" script {}, .fresh⟩).2.session
    let hall : Spot := ⟨⟨⟨"start", []⟩, 1⟩, .showBackground "hall.png"⟩
    unmet.compile {} = .ok script ∧ Session.Reached script s ∧
      (∃ spot, s.position = .ok (some spot)) ∧
      (notes Headless.executor [.play 2] ⟨s, .fresh⟩).filterMap Note.handed? = [hall] ∧
      ∀ scan : ScanLimits, hall ∉ Scan.ahead script scan s.path := by
  intro script s hall
  have hs : s = { Session.start "live" script {} with path := [.jump "start", .index 0] } := rfl
  have hcondition : Path.resolve script s.path = .ok (some ⟨⟨⟨"start", []⟩, 0⟩,
      .condition ⟨.flag "met", [("true", [.finish])]⟩⟩) := by
    rw [hs]
    rfl
  have hvariant : Path.resolve script (Path.enterCondition "true" s.path) =
      .ok (some ⟨⟨⟨"start", [.variant 0 "true"]⟩, 0⟩, .finish⟩) := by
    rw [hs]
    rfl
  have hhanded : (notes Headless.executor [.play 2] ⟨s, .fresh⟩).filterMap Note.handed? = [hall] := by
    rw [hs]
    rfl
  refine ⟨unmet_compiles, .play (.start "live" {}) Headless.executor .fresh 1, ⟨_, hcondition⟩,
    hhanded, fun scan hfound => ?_⟩
  obtain ⟨v, hv, hmeets⟩ := (Scan.meets_of_mem_ahead hfound).of_condition hcondition
  cases List.mem_singleton.mp hv
  exact Scan.not_meets_of_finish hvariant hmeets

/-- An exit where no branch has been entered. -/
def stray : Draft := .ofScenes [("start", [.exit, .showBackground "hall.png", .finish])]

theorem stray_compiles : stray.compile {} = .ok ⟨stray.scenes, stray.ordered⟩ := by
  rfl

/-- What comes after an exit that is passed by is missed in the same way. -/
theorem unseen_behind_exit :
    let script : Script := ⟨stray.scenes, stray.ordered⟩
    let s := (play Headless.executor 1 ⟨Session.start "live" script {}, .fresh⟩).2.session
    let hall : Spot := ⟨⟨⟨"start", []⟩, 1⟩, .showBackground "hall.png"⟩
    stray.compile {} = .ok script ∧ Session.Reached script s ∧
      (∃ spot, s.position = .ok (some spot)) ∧
      (notes Headless.executor [.play 2] ⟨s, .fresh⟩).filterMap Note.handed? = [hall] ∧
      ∀ scan : ScanLimits, Scan.ahead script scan s.path = [] := by
  intro script s hall
  have hs : s = { Session.start "live" script {} with path := [.jump "start", .index 0] } := rfl
  have hexit : Path.resolve script s.path = .ok (some ⟨⟨⟨"start", []⟩, 0⟩, .exit⟩) := by
    rw [hs]
    rfl
  have hleave : Path.leave script s.path = none := by
    rw [hs]
    rfl
  have hhanded : (notes Headless.executor [.play 2] ⟨s, .fresh⟩).filterMap Note.handed? = [hall] := by
    rw [hs]
    rfl
  exact ⟨stray_compiles, .play (.start "live" {}) Headless.executor .fresh 1, ⟨_, hexit⟩, hhanded,
    fun _ => Scan.ahead_of_exit hexit hleave⟩

end Performance

end Narrative

import Narrative.Proofs.Format.Direct
import Narrative.Schema
import Narrative.Script.Draft

namespace Narrative

/-- Only instructions stand in groups. -/
theorem Schema.groupsObjects_book (name : Schema) :
    ∀ f ∈ (book name).formats, f.GroupsObjects book := by
  cases name <;> decide

open Outcome (Agree)

/-- A document is read straight out of a text as it is read out of the JSON value that the text is. -/
theorem Schema.ofText_agree {α : Type} {f : Format Schema} (hf : f.GroupsObjects book)
    (meaning : Datum → Option α) {text : String} {j : Json} (h : Json.ofText text = .ok j) :
    Agree (ofText f meaning text) (ofJson f meaning j) := by
  refine (Format.ofText_agree groupsObjects_book hf h).bind fun d _ => ?_
  cases meaning d with
  | none => exact Outcome.agree_error _ _
  | some a => exact Outcome.agree_ok a

namespace Draft

/-- The version that a script value names, if any, and its draft. -/
def ofJson (j : Json) : Except Mismatch (Option String × Draft) :=
  Schema.ofJson (.named .script) ofDatum? j

/-- The same where an instruction list is a list of instructions, and nothing stands for several. -/
def ofPlainJson (j : Json) : Except Mismatch (Option String × Draft) := do
  match ofDatum? (← Format.ofPlainJson Schema.book .whole (.named .script) j) with
  | some read => .ok read
  | none => .error (.missingField "")

/-- Splices every instruction list at every depth. -/
def splice (j : Json) : Json := Format.splice Schema.book (.named .script) j

/-- How the instructions of a script are grouped does not matter: its spliced form, in which nothing is
left to splice, says the same, and so it does where an instruction list is read item by item. Every text
that is the script says the same, too. -/
theorem same_without_groups (j : Json) :
    splice (splice j) = splice j ∧ Agree (ofJson j) (ofJson (splice j)) ∧
      Agree (ofJson j) (ofPlainJson (splice j)) ∧
      ∀ text, Json.ofText text = .ok j →
        Agree (Schema.ofText (.named .script) ofDatum? text) (ofJson j) := by
  have hspliced : splice (splice j) = splice j := Format.splice_splice _ j
  have hplain (k : Json) : Agree (ofJson k) (ofPlainJson (splice k)) := by
    have hdatum := Format.ofJson_splice (f := .named .script) Schema.groupsObjects_book trivial .whole k
    refine hdatum.bind fun d _ => ?_
    cases ofDatum? d <;> exact .rfl
  have hsplice := hplain (splice j)
  rw [hspliced] at hsplice
  exact ⟨hspliced, (hplain j).trans hsplice.symm, hplain j, fun text h =>
    Schema.ofText_agree (f := .named .script) trivial ofDatum? h⟩

/-- A scene with an empty group, and with a group in a group. -/
def bundled : Json :=
  .obj [("scenes", .obj [("start",
    .arr [.arr [], .arr [.obj [("type", .str "exit")], .arr [.obj [("type", .str "end")]]]])])]

theorem same_without_groups_bundled :
    Json.ofText bundled.compact = .ok bundled ∧
      Schema.ofText (.named .script) ofDatum? bundled.compact =
        .ok (none, ofScenes [("start", [.exit, .finish])]) := by
  have htag (w : String) : Json.Writable (.obj [("type", .str w)]) :=
    .obj (List.forall_mem_singleton.mpr (.str w))
  have hinner : Json.Writable (.arr [.obj [("type", .str "end")]]) :=
    .arr (List.forall_mem_singleton.mpr (htag "end"))
  have houter : Json.Writable (.arr [.obj [("type", .str "exit")], .arr [.obj [("type", .str "end")]]]) :=
    .arr (List.forall_mem_cons.mpr ⟨htag "exit", List.forall_mem_singleton.mpr hinner⟩)
  have hgroups : Json.Writable
      (.arr [.arr [], .arr [.obj [("type", .str "exit")], .arr [.obj [("type", .str "end")]]]]) :=
    .arr (List.forall_mem_cons.mpr ⟨.arr (List.forall_mem_nil _), List.forall_mem_singleton.mpr houter⟩)
  have hwritable : bundled.Writable :=
    .obj (List.forall_mem_singleton.mpr (.obj (List.forall_mem_singleton.mpr hgroups)))
  have hdepth : bundled.depth ≤ Json.maxLevels := by decide
  have htext : Json.ofText bundled.compact = .ok bundled :=
    Json.ofText_write Json.blank_tight hwritable hdepth
  have hvalue : ofJson bundled = .ok (none, ofScenes [("start", [.exit, .finish])]) := by rfl
  exact ⟨htext, ((same_without_groups bundled).2.2.2 _ htext _).mpr hvalue⟩

end Draft

end Narrative

import Narrative.Predicate.Document
import Narrative.Proofs.Schema

namespace Narrative

open Schema (fits_tagged fits_int64 book)

theorem Comparison.ofDatum?_toDatum (c : Comparison) : ofDatum? c.toDatum = some c := by
  cases c <;> decide

theorem Comparison.fits (c : Comparison) : Fits book (.named .comparison) c.toDatum :=
  .word rfl (by cases c <;> decide)

namespace Predicate

mutual

theorem ofDatum?_toDatum : ∀ p : Predicate, ofDatum? p.toDatum = some p
  | flag key isSet => rfl
  | compare key c value => by simp [toDatum, ofDatum?, c.ofDatum?_toDatum]
  | all parts => by simp [toDatum, ofDatum?, ofData?_toData parts]
  | any parts => by simp [toDatum, ofDatum?, ofData?_toData parts]
  | not part => by simp [toDatum, ofDatum?, ofDatum?_toDatum part]

theorem ofData?_toData : ∀ ps : List Predicate, ofData? (toData ps) = some ps
  | [] => rfl
  | p :: rest => by simp [toData, ofData?, ofDatum?_toDatum p, ofData?_toData rest]

end

mutual

theorem fits : ∀ p : Predicate, Fits book (.named .predicate) p.toDatum
  | flag key isSet => by
    rw [toDatum]
    exact fits_tagged rfl rfl (.cons (.value (.text key)) (.cons (.value (.bool isSet)) .nil))
  | compare key c value => by
    rw [toDatum]
    exact fits_tagged rfl rfl (.cons (.value (.text key)) (.cons (.value c.fits)
      (.cons (.value (fits_int64 value)) .nil)))
  | all parts => by
    rw [toDatum]
    exact fits_tagged rfl rfl (.cons (.value (.list (fits_toData parts))) .nil)
  | any parts => by
    rw [toDatum]
    exact fits_tagged rfl rfl (.cons (.value (.list (fits_toData parts))) .nil)
  | not part => by
    rw [toDatum]
    exact fits_tagged rfl rfl (.cons (.value part.fits) .nil)

theorem fits_toData : ∀ ps : List Predicate, ∀ d ∈ toData ps, Fits book (.named .predicate) d
  | [] => nofun
  | p :: rest => by
    rw [toData, List.forall_mem_cons]
    exact ⟨p.fits, fits_toData rest⟩

end

theorem orNull_optional (p : Option Predicate) : Datum.orNull ofDatum? (optional p) = some p := by
  cases p with
  | none => rfl
  | some p =>
    have hread := p.ofDatum?_toDatum
    rw [optional]
    cases p <;> simp only [toDatum, Datum.orNull] at hread ⊢ <;> rw [hread] <;> rfl

theorem allows_optional (name : String) (p : Option Predicate) :
    Field.Allows (Fits book) (.nullable name (.named .predicate)) (optional p) := by
  cases p with
  | none => exact .null
  | some p => exact .value p.fits

end Predicate

theorem SelectorCase.ofDatum?_toDatum (c : SelectorCase) : ofDatum? c.toDatum = some c := by
  simp [toDatum, ofDatum?, c.condition.ofDatum?_toDatum]

theorem SelectorCase.fits (c : SelectorCase) : Fits book (.named .selectorCase) c.toDatum :=
  .record rfl (.cons (.value c.condition.fits) (.cons (.value (.text c.key)) .nil))

namespace Selector

theorem ofDatum?_toDatum (s : Selector) : ofDatum? s.toDatum = some s := by
  cases s with
  | flag key => rfl
  | number key => rfl
  | cases cs default =>
    have hread : (cs.map SelectorCase.toDatum).mapM SelectorCase.ofDatum? = some cs :=
      mapM_map_eq_some fun c _ => c.ofDatum?_toDatum
    simp [toDatum, ofDatum?, hread]

theorem fits (s : Selector) : Fits book (.named .selector) s.toDatum := by
  cases s with
  | flag key => exact fits_tagged rfl rfl (.cons (.value (.text key)) .nil)
  | number key => exact fits_tagged rfl rfl (.cons (.value (.text key)) .nil)
  | cases cs default =>
    exact fits_tagged rfl rfl
      (.cons (.value (.list (List.forall_mem_map.mpr fun c _ => c.fits)))
        (.cons (.value (.text default)) .nil))

end Selector

end Narrative

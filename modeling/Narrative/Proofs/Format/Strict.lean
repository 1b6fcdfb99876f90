import Narrative.Proofs.Format.Value

namespace Narrative.Format

variable {ρ : Type} {book : Book ρ} {inner : Format ρ → Json → Except Mismatch Datum} {f : Format ρ}
  {j : Json} {d : Datum}

/-- Numbers, texts, lists, and lists led by a word. A record could have its fields in another order, and
a bare word an object in its place. -/
inductive Strict (book : Book ρ) : Format ρ → Prop
  | int (width : Width) : Strict book (.int width)
  | text : Strict book .text
  | list {item : Format ρ} (hitem : Strict book item) : Strict book (.list item)
  | led {name : ρ} {expecting : String} {cases : List (Option String × Option (Format ρ))}
    (hname : book name = .led expecting cases)
    (hoperands : ∀ c ∈ cases, ∀ f ∈ c.2, Strict book f) : Strict book (.named name)

theorem holds_of_check {width : Width} (h : width.check j = .ok d) :
    ∃ n, width.holds n = true ∧ j = .int n ∧ d = .int n := by
  cases j with
  | int n =>
    rw [Width.check] at h
    split at h
    · rename_i hholds
      cases h
      exact ⟨n, hholds, rfl, rfl⟩
    · cases h
  | null | bool | real | str | arr | obj => cases h

theorem eq_ofOption_of_leadOf {tag : Option String} (h : leadOf j = .ok tag) :
    j = Json.ofOption .str tag := by
  cases j with
  | null =>
    cases h
    rfl
  | str s =>
    cases h
    rfl
  | bool | int | real | arr | obj => cases h

theorem mem_of_operandOf? {cases : List (Option String × Option (Format ρ))} {tag : Option String}
    {operand : Option (Format ρ)} (h : operandOf? cases tag = .ok operand) :
    (tag, operand) ∈ cases := by
  rw [operandOf?] at h
  split at h
  · rename_i hfind
    cases h
    have htag := List.find?_some hfind
    have hmem := List.mem_of_find?_eq_some hfind
    simp only [decide_eq_true_eq] at htag
    rwa [htag] at hmem
  · cases h

/-- What a list led by a word says: the word alone, or the word with the operand that it asks for. -/
theorem ledOf_cases {origin : Origin} {expecting : String}
    {cases : List (Option String × Option (Format ρ))}
    (h : ledOf origin inner expecting cases j = .ok d) :
    (∃ tag, (tag, none) ∈ cases ∧ j = .arr [Json.ofOption .str tag] ∧ d = .case tag []) ∨
    (∃ tag f v e, (tag, some f) ∈ cases ∧ inner f v = .ok e ∧
      j = .arr [Json.ofOption .str tag, v] ∧ d = .case tag [e]) := by
  cases j with
  | null | bool | int | real | str | obj => cases h
  | arr items =>
    cases items with
    | nil => cases h
    | cons t rest =>
      simp only [ledOf, Outcome.bind_eq_ok] at h
      obtain ⟨tag, hlead, operand, hoperand, h⟩ := h
      have hcase := mem_of_operandOf? hoperand
      have ht := eq_ofOption_of_leadOf hlead
      cases operand with
      | none =>
        cases rest with
        | nil =>
          cases h
          exact .inl ⟨tag, hcase, by rw [ht], rfl⟩
        | cons => cases h
      | some f =>
        cases rest with
        | nil => cases h
        | cons v more =>
          obtain ⟨e, hvalue, h⟩ := Outcome.bind_eq_ok.mp h
          cases more with
          | nil =>
            cases h
            exact .inr ⟨tag, f, v, e, hcase, hvalue, by rw [ht], rfl⟩
          | cons => cases h

/-- What is read under a strict format fits, and it is written as it was found. -/
theorem Strict.of_valueIn (hbook : ∀ name, (book name).Distinct) (hstrict : Strict book f)
    {levels : Nat} {origin : Origin} (h : valueIn book levels origin f j = .ok d) :
    Fits book f d ∧ j = toJson book f d := by
  induction hstrict generalizing levels j d with
  | int width =>
    cases levels with
    | zero => cases h
    | succ levels =>
      obtain ⟨n, hn, rfl, rfl⟩ := holds_of_check h
      exact ⟨.int hn, rfl⟩
  | text =>
    cases levels with
    | zero => cases h
    | succ levels =>
      cases j with
      | str s =>
        cases h
        exact ⟨.text s, rfl⟩
      | null | bool | int | real | arr | obj => cases h
  | list hitem ih =>
    cases levels with
    | zero => cases h
    | succ levels =>
      cases j with
      | arr items =>
        obtain ⟨ds, hitems, h⟩ := Outcome.bind_eq_ok.mp h
        cases h
        obtain ⟨hfits, rfl⟩ := Outcome.of_mapM_eq_ok (fun v e hv => ih hv) hitems
        rw [toJson_list]
        exact ⟨.list hfits, rfl⟩
      | null | bool | int | real | str | obj => cases h
  | led hname hoperands ih =>
    cases levels with
    | zero => cases h
    | succ levels =>
      have hdistinct := hname ▸ hbook _
      rw [valueIn, valueAt, hname] at h
      rcases ledOf_cases h with ⟨tag, hcase, rfl, rfl⟩ | ⟨tag, f, v, e, hcase, hv, rfl, rfl⟩
      · rw [toJson_led hname hdistinct hcase]
        exact ⟨.led hname hcase .nil, rfl⟩
      · obtain ⟨hfits, rfl⟩ := ih _ hcase f rfl hv
        rw [toJson_led hname hdistinct hcase]
        exact ⟨.led hname hcase (.cons hfits .nil), rfl⟩

/-- A value is read just if it is what is written for what it says. -/
theorem Strict.ofJson_eq_ok_iff (hbook : ∀ name, (book name).Distinct) (hstrict : Strict book f)
    {origin : Origin} : ofJson book origin f j = .ok d ↔ Fits book f d ∧ j = toJson book f d := by
  constructor
  · exact hstrict.of_valueIn hbook
  · rintro ⟨hfits, rfl⟩
    exact valueIn_toJson hbook hfits (Nat.lt_succ_self _) origin

end Narrative.Format

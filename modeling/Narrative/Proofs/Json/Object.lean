import Narrative.Proofs.Json.Scalar

namespace Narrative.Json

theorem skipBlank_append {blanks : List Char} (h : ∀ c ∈ blanks, isBlank c = true)
    (s : List Char) : skipBlank (blanks ++ s) = skipBlank s :=
  List.dropWhile_append_of_pos h

theorem skipBlank_cons {c : Char} (h : isBlank c = false) (s : List Char) :
    skipBlank (c :: s) = c :: s := by
  rw [skipBlank, List.dropWhile_cons_of_neg (Bool.not_eq_true _ ▸ h)]

theorem not_isBlank_of_isDigit {c : Char} (h : Text.Decimal.isDigit c = true) :
    isBlank c = false := by
  rw [Bool.eq_false_iff]
  intro hblank
  simp only [isBlank, Bool.or_eq_true, decide_eq_true_eq] at hblank
  rcases hblank with ((rfl | rfl) | rfl) | rfl
  all_goals exact absurd h (by decide)

/-- Nothing but blanks between the signs of a text. -/
structure Spacing.Blank (w : Spacing) : Prop where
  lead : ∀ level, ∀ c ∈ w.lead level, isBlank c = true
  close : ∀ level, ∀ c ∈ w.close level, isBlank c = true
  colon : ∃ blanks, w.colon = ':' :: blanks ∧ ∀ c ∈ blanks, isBlank c = true

theorem blank_newline (level : Nat) : ∀ c ∈ newline level, isBlank c = true := by
  intro c hc
  rw [newline, List.mem_cons] at hc
  rcases hc with rfl | hc
  · rfl
  · rw [List.eq_of_mem_replicate hc]
    rfl

theorem blank_indented : indented.Blank where
  lead level := blank_newline (level + 1)
  close level := blank_newline level
  colon := ⟨[' '], rfl, fun c hc => by rw [List.mem_singleton.mp hc]; rfl⟩

theorem blank_tight : tight.Blank where
  lead _ := nofun
  close _ := nofun
  colon := ⟨[], rfl, nofun⟩

theorem Ends.append {blanks s : List Char} (hblanks : ∀ c ∈ blanks, isBlank c = true)
    (h : Ends s) : Ends (blanks ++ s) := by
  cases blanks with
  | nil => exact h
  | cons c blanks => exact .inr (.inr (.inr (hblanks c List.mem_cons_self)))

section

variable {w : Spacing} {level : Nat} {blanks : List Char}

theorem nextKey_quoted (hblanks : ∀ c ∈ blanks, isBlank c = true) (key : String)
    (rest : List Char) :
    nextKey true (blanks ++ (quoted key ++ rest)) = .ok (some (key, rest)) ∧
      nextKey false (',' :: (blanks ++ (quoted key ++ rest))) = .ok (some (key, rest)) := by
  obtain ⟨body, hbody, hread⟩ := readString_quoted key rest
  have hskip : skipBlank (blanks ++ (quoted key ++ rest)) = '"' :: body := by
    rw [skipBlank_append hblanks, hbody, skipBlank_cons rfl]
  constructor
  · rw [nextKey, hskip]
    change (readString body >>= fun entry => .ok (some entry)) = _
    rw [hread]
    rfl
  · have hcomma : skipBlank (',' :: (blanks ++ (quoted key ++ rest))) = _ := skipBlank_cons rfl _
    simp [nextKey, hcomma, hskip, hread]

theorem nextKey_close (hblanks : ∀ c ∈ blanks, isBlank c = true) (first : Bool)
    (rest : List Char) : nextKey first (blanks ++ '\x7d' :: rest) = .ok none := by
  rw [nextKey, skipBlank_append hblanks, skipBlank_cons rfl]
  rfl

theorem readColon_colon (hw : w.Blank) (s : List Char) :
    ∃ blanks, (∀ c ∈ blanks, isBlank c = true) ∧ readColon (w.colon ++ s) = .ok (blanks ++ s) := by
  obtain ⟨blanks, hcolon, hblanks⟩ := hw.colon
  refine ⟨blanks, hblanks, ?_⟩
  rw [hcolon, List.cons_append, readColon, skipBlank_cons rfl]
  rfl

end

/-- A reader takes these characters for a value, wherever a value may end after them. -/
def Takes {α : Type} (read : Reader α) (written : List Char) (a : α) : Prop :=
  ∀ rest, Ends rest → read (written ++ rest) = .ok (a, rest)

section

variable {σ : Type} {step : σ → String → Reader σ} {w : Spacing} {level : Nat}
  {acc acc' result : σ} {entries : List (String × Json)}

/-- A step takes the entries of an object one after the other. -/
inductive TakesAll (step : σ → String → Reader σ) (w : Spacing) (level : Nat) :
    σ → List (String × Json) → σ → Prop
  | nil {acc : σ} : TakesAll step w level acc [] acc
  | cons {acc acc' result : σ} {key : String} {j : Json} {rest : List (String × Json)}
    (first : Takes (step acc key) (w.colon ++ write w (level + 1) j) acc')
    (others : TakesAll step w level acc' rest result) :
    TakesAll step w level acc ((key, j) :: rest) result

theorem ends_writeEntries (hw : w.Blank) (level : Nat) (entries : List (String × Json)) (rest : List Char) :
    Ends (writeEntries w level entries ++ (w.close level ++ '\x7d' :: rest)) := by
  cases entries with
  | nil =>
    have hbrace : Ends ('\x7d' :: rest) := by simp [Ends]
    rw [writeEntries, List.nil_append]
    exact hbrace.append (hw.close level)
  | cons e entries => simp [writeEntries, Ends]

theorem length_le_writeEntries (w : Spacing) (level : Nat) (entries : List (String × Json)) :
    entries.length ≤ (writeEntries w level entries).length := by
  induction entries with
  | nil => exact Nat.le_refl 0
  | cons e entries ih =>
    simp only [writeEntries, List.length_cons, List.length_append]
    omega

theorem foldEntries_writeEntries (hw : w.Blank) (h : TakesAll step w level acc entries result)
    {steps : Nat} (hsteps : entries.length < steps) (rest : List Char) :
    foldEntries step steps false acc
        (writeEntries w level entries ++ (w.close level ++ '\x7d' :: rest)) =
      .ok (result, rest) := by
  induction h generalizing steps with
  | nil =>
    obtain ⟨steps, rfl⟩ := Nat.exists_eq_succ_of_ne_zero (Nat.ne_of_gt hsteps)
    rw [writeEntries, List.nil_append, foldEntries, nextKey_close (hw.close level), Outcome.ok_bind]
    dsimp only
    rw [skipBlank_append (hw.close level), skipBlank_cons rfl]
    rfl
  | @cons acc acc' result key j entries hfirst _ ih =>
    obtain ⟨steps, rfl⟩ := Nat.exists_eq_succ_of_ne_zero (Nat.ne_of_gt (Nat.zero_lt_of_lt hsteps))
    have hnext := (nextKey_quoted (hw.lead level) key (w.colon ++ (write w (level + 1) j ++
      (writeEntries w level entries ++ (w.close level ++ '\x7d' :: rest))))).2
    have htake := hfirst _ (ends_writeEntries hw level entries rest)
    rw [List.append_assoc] at htake
    simp only [writeEntries, List.cons_append, List.append_assoc]
    rw [foldEntries, hnext, Outcome.ok_bind]
    dsimp only
    rw [htake, Outcome.ok_bind]
    exact ih (Nat.lt_of_succ_lt_succ hsteps)

/-- The entries of an object are read with as many steps as the text has characters. -/
theorem foldEntries_object (hw : w.Blank) (h : TakesAll step w level acc entries result)
    (rest : List Char) :
    ∃ t, write w level (obj entries) ++ rest = '\x7b' :: t ∧
      foldEntries step (t.length + 1) true acc t = .ok (result, rest) := by
  cases h with
  | nil =>
    refine ⟨'\x7d' :: rest, rfl, ?_⟩
    rw [foldEntries]
    rfl
  | @cons _ acc' _ key j entries hfirst hothers =>
    refine ⟨w.lead level ++ (quoted key ++ (w.colon ++ (write w (level + 1) j ++
      (writeEntries w level entries ++ (w.close level ++ '\x7d' :: rest))))), ?_, ?_⟩
    · simp [write]
    · have hnext := (nextKey_quoted (hw.lead level) key (w.colon ++ (write w (level + 1) j ++
        (writeEntries w level entries ++ (w.close level ++ '\x7d' :: rest))))).1
      have htake := hfirst _ (ends_writeEntries hw level entries rest)
      have hlength := length_le_writeEntries w level entries
      rw [List.append_assoc] at htake
      rw [foldEntries, hnext, Outcome.ok_bind]
      dsimp only
      rw [htake, Outcome.ok_bind]
      dsimp only
      rw [foldEntries_writeEntries hw hothers]
      simp only [List.length_append, List.length_cons]
      omega

end

end Narrative.Json

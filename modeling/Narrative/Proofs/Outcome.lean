namespace Narrative.Outcome

variable {ε α β : Type}

@[simp]
theorem ok_bind (a : α) (f : α → Except ε β) : ((.ok a : Except ε α) >>= f) = f a := rfl

theorem bind_eq_ok {x : Except ε α} {f : α → Except ε β} {b : β} :
    (x >>= f) = .ok b ↔ ∃ a, x = .ok a ∧ f a = .ok b := by
  cases x with
  | error e =>
    constructor
    · intro h
      cases h
    · rintro ⟨a, h, _⟩
      cases h
  | ok a =>
    constructor
    · intro h
      exact ⟨a, rfl, h⟩
    · rintro ⟨a', h, hb⟩
      cases h
      exact hb

theorem bind_eq_error {x : Except ε α} {f : α → Except ε β} {e : ε} :
    (x >>= f) = .error e ↔ x = .error e ∨ ∃ a, x = .ok a ∧ f a = .error e := by
  cases x with
  | error e' =>
    have hbind : ((.error e' : Except ε α) >>= f) = .error e' := rfl
    simp [hbind]
  | ok a => simp

theorem mapM_eq_ok {f : α → Except ε β} {g : α → β} {l : List α} (h : ∀ a ∈ l, f a = .ok (g a)) :
    l.mapM f = .ok (l.map g) := by
  induction l with
  | nil => rfl
  | cons a l ih =>
    rw [List.mapM_cons, h a List.mem_cons_self, ok_bind,
      ih fun a ha => h a (List.mem_cons_of_mem _ ha)]
    rfl

theorem mapM_mem {f : α → Except ε β} {l : List α} {r : List β} (h : l.mapM f = .ok r) :
    ∀ a ∈ l, ∃ b, f a = .ok b := by
  induction l generalizing r with
  | nil => exact List.forall_mem_nil _
  | cons a l ih =>
    rw [List.mapM_cons, bind_eq_ok] at h
    obtain ⟨b, ha, h⟩ := h
    obtain ⟨rest, hl, -⟩ := bind_eq_ok.mp h
    exact List.forall_mem_cons.mpr ⟨⟨b, ha⟩, ih hl⟩

/-- A sequence fails as the first of its parts that fails. -/
theorem mapM_eq_error {f : α → Except ε β} {l : List α} {e : ε} (h : l.mapM f = .error e) :
    ∃ before a after, l = before ++ a :: after ∧ f a = .error e ∧ ∀ b ∈ before, ∃ r, f b = .ok r := by
  induction l with
  | nil => cases h
  | cons a l ih =>
    rw [List.mapM_cons, bind_eq_error] at h
    rcases h with ha | ⟨r, ha, h⟩
    · exact ⟨[], a, l, rfl, ha, List.forall_mem_nil _⟩
    · rcases bind_eq_error.mp h with hl | ⟨_, _, hdone⟩
      · obtain ⟨before, b, after, rfl, hb, hbefore⟩ := ih hl
        exact ⟨a :: before, b, after, rfl, hb, List.forall_mem_cons.mpr ⟨⟨r, ha⟩, hbefore⟩⟩
      · cases hdone

/-- Parts that can be told from what they give are all told from it. -/
theorem of_mapM_eq_ok {f : α → Except ε β} {p : β → Prop} {g : β → α}
    (hf : ∀ a b, f a = .ok b → p b ∧ a = g b) {l : List α} {r : List β} (h : l.mapM f = .ok r) :
    (∀ b ∈ r, p b) ∧ l = r.map g := by
  induction l generalizing r with
  | nil =>
    cases h
    simp
  | cons a l ih =>
    rw [List.mapM_cons, bind_eq_ok] at h
    obtain ⟨b, hfirst, h⟩ := h
    obtain ⟨rest, hrest, h⟩ := bind_eq_ok.mp h
    cases h
    obtain ⟨hb, rfl⟩ := hf a b hfirst
    obtain ⟨hothers, rfl⟩ := ih hrest
    exact ⟨List.forall_mem_cons.mpr ⟨hb, hothers⟩, rfl⟩

/-- Both fail, perhaps in different ways, or both give the same. -/
def Agree {ε' : Type} (x : Except ε α) (y : Except ε' α) : Prop := ∀ a, x = .ok a ↔ y = .ok a

section Agree

variable {ε' ε'' : Type}

protected theorem Agree.rfl {x : Except ε α} : Agree x x := fun _ => .rfl

theorem Agree.symm {x : Except ε α} {y : Except ε' α} (h : Agree x y) : Agree y x :=
  fun a => (h a).symm

theorem Agree.trans {x : Except ε α} {y : Except ε' α} {z : Except ε'' α} (h : Agree x y)
    (h' : Agree y z) : Agree x z :=
  fun a => (h a).trans (h' a)

theorem agree_error (e : ε) (e' : ε') : Agree (.error e : Except ε α) (.error e') := by
  intro a
  constructor <;> intro h <;> cases h

theorem agree_ok (a : α) : Agree (.ok a : Except ε α) (.ok a : Except ε' α) := by
  intro b
  rw [Except.ok.injEq, Except.ok.injEq]

theorem Agree.bind {x : Except ε α} {y : Except ε' α} {f : α → Except ε β} {g : α → Except ε' β}
    (h : Agree x y) (hfg : ∀ a, x = .ok a → Agree (f a) (g a)) : Agree (x >>= f) (y >>= g) := by
  intro b
  rw [bind_eq_ok, bind_eq_ok]
  constructor
  · rintro ⟨a, hx, hf⟩
    exact ⟨a, (h a).mp hx, (hfg a hx b).mp hf⟩
  · rintro ⟨a, hy, hg⟩
    have hx := (h a).mpr hy
    exact ⟨a, hx, (hfg a hx b).mpr hg⟩

theorem Agree.map_fst {σ : Type} {x : Except ε (α × σ)} {y : Except ε' (α × σ)} (h : Agree x y)
    (k : α → β) : Agree (x >>= fun r => .ok (k r.1, r.2)) (y >>= fun r => .ok (k r.1, r.2)) :=
  h.bind fun _ _ => agree_ok _

/-- What has failed is not mended. -/
theorem Agree.bind_error {x : Except ε α} {f : α → Except ε β} {e : ε'}
    (h : Agree x (.error e : Except ε' α)) (e' : ε'') : Agree (x >>= f) (.error e' : Except ε'' β) := by
  cases x with
  | error => exact agree_error _ _
  | ok a => cases (h a).mp rfl

/-- The same where the first also gives what comes after. -/
theorem Agree.bind_after {σ : Type} {after : σ} {x : Except ε (α × σ)} {y : Except ε' α}
    {f : α × σ → Except ε β} {g : α → Except ε' β} (h : Agree x (y >>= fun a => .ok (a, after)))
    (hfg : ∀ a, Agree (f (a, after)) (g a)) : Agree (x >>= f) (y >>= g) := by
  intro b
  rw [bind_eq_ok, bind_eq_ok]
  constructor
  · rintro ⟨found, hx, hf⟩
    obtain ⟨a, hy, hfound⟩ := bind_eq_ok.mp ((h found).mp hx)
    cases hfound
    exact ⟨a, hy, (hfg a b).mp hf⟩
  · rintro ⟨a, hy, hg⟩
    have hx := (h (a, after)).mpr (bind_eq_ok.mpr ⟨a, hy, rfl⟩)
    exact ⟨(a, after), hx, (hfg a b).mpr hg⟩

theorem Agree.mapM {γ : Type} {f : α → Except ε β} {g : γ → Except ε' β} {k : α → γ} {l : List α}
    (h : ∀ a ∈ l, Agree (f a) (g (k a))) : Agree (l.mapM f) ((l.map k).mapM g) := by
  induction l with
  | nil => exact agree_ok _
  | cons a l ih =>
    obtain ⟨hfirst, hothers⟩ := List.forall_mem_cons.mp h
    rw [List.map_cons, List.mapM_cons, List.mapM_cons]
    exact hfirst.bind fun _ _ => (ih hothers).bind fun _ _ => agree_ok _

end Agree

/-- Taking parts in one after the other is as good as taking them in when all have succeeded. -/
theorem foldlM_eq_mapM {γ : Type} (f : α → Except ε β) (step : γ → β → γ) (l : List α) (c : γ) :
    l.foldlM (fun c a => (f a).map (step c)) c = (l.mapM f).map (·.foldl step c) := by
  induction l generalizing c with
  | nil => rfl
  | cons a l ih =>
    rw [List.foldlM_cons, List.mapM_cons]
    cases f a with
    | error e => rfl
    | ok b =>
      have hrest := ih (step c b)
      cases hl : l.mapM f with
      | error e =>
        rw [hl] at hrest
        exact hrest
      | ok r =>
        rw [hl] at hrest
        exact hrest

theorem foldlM_mem {f : β → α → Except ε β} {l : List α} {b r : β} (h : l.foldlM f b = .ok r) :
    ∀ a ∈ l, ∃ b' r', f b' a = .ok r' := by
  induction l generalizing b with
  | nil =>
    intro a ha
    cases ha
  | cons x rest ih =>
    rw [List.foldlM_cons, bind_eq_ok] at h
    obtain ⟨b', hx, hrest⟩ := h
    intro a ha
    rcases List.mem_cons.mp ha with rfl | ha
    · exact ⟨b, b', hx⟩
    · exact ih hrest a ha

/-- A count that grows by so much with each part, and never past a bound by itself. -/
theorem foldlM_between {f : Nat → α → Except ε Nat} {k bound : Nat}
    (hf : ∀ n a m, f n a = .ok m → n + k ≤ m ∧ m ≤ max n bound) {l : List α} {n m : Nat}
    (h : l.foldlM f n = .ok m) : n + k * l.length ≤ m ∧ m ≤ max n bound := by
  induction l generalizing n with
  | nil =>
    cases h
    exact ⟨by simp, Nat.le_max_left _ _⟩
  | cons x rest ih =>
    rw [List.foldlM_cons, bind_eq_ok] at h
    obtain ⟨n', hx, hrest⟩ := h
    obtain ⟨hlow, hhigh⟩ := hf n x n' hx
    obtain ⟨hlow', hhigh'⟩ := ih hrest
    rw [List.length_cons, Nat.mul_add]
    omega

/-- What each part adds to a count adds up. -/
theorem foldlM_adds {f : Nat → α → Except ε Nat} {size : α → Nat}
    (hf : ∀ n a m, f n a = .ok m → m = n + size a) {l : List α} {n m : Nat}
    (h : l.foldlM f n = .ok m) : m = n + l.foldr (fun a k => size a + k) 0 := by
  induction l generalizing n with
  | nil =>
    cases h
    rfl
  | cons x rest ih =>
    rw [List.foldlM_cons, bind_eq_ok] at h
    obtain ⟨n', hx, hrest⟩ := h
    have hstep := hf n x n' hx
    have htotal := ih hrest
    rw [List.foldr_cons]
    omega

/-- If every part succeeds as long as the count keeps to a bound, then so does a list that keeps to
it. -/
theorem foldlM_within {f : Nat → α → Except ε Nat} {size : α → Nat} {bound : Nat} {l : List α}
    (hf : ∀ a ∈ l, ∀ n, n + size a ≤ bound → f n a = .ok (n + size a)) {n : Nat}
    (h : n + l.foldr (fun a k => size a + k) 0 ≤ bound) :
    l.foldlM f n = .ok (n + l.foldr (fun a k => size a + k) 0) := by
  induction l generalizing n with
  | nil => rfl
  | cons x rest ih =>
    rw [List.foldr_cons] at h ⊢
    have hx : f n x = .ok (n + size x) := hf x List.mem_cons_self n (by omega)
    have hrest := ih (fun a ha => hf a (List.mem_cons_of_mem _ ha)) (n := n + size x) (by omega)
    rw [List.foldlM_cons, hx, ok_bind, hrest, Nat.add_assoc]

/-- Two answers that go together: both are missing, or both are there and related. -/
theorem rel_cases {r : α → β → Prop} {a : Option α} {b : Option β} (h : Option.Rel r a b) :
    (a = none ∧ b = none) ∨ ∃ x y, a = some x ∧ b = some y ∧ r x y := by
  cases h with
  | none => exact .inl ⟨rfl, rfl⟩
  | some h => exact .inr ⟨_, _, rfl, rfl, h⟩

end Narrative.Outcome

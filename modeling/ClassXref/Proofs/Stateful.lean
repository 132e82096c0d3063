import ClassXref.Fault

/-! Computations with a state that may stop with an error: what the outcome of a sequence says about
its parts. A stopped computation keeps the state that its last step left. -/
namespace ClassXref.Stateful

variable {ε σ α β : Type} {s t u : σ} {a : α} {b : β} {e : ε}
variable {x : EStateM ε σ α} {f : α → EStateM ε σ β}

theorem bind_ok (h : x s = .ok a t) : (x >>= f) s = f a t := by
  simp only [bind, EStateM.bind, h]

theorem bind_error (h : x s = .error e t) : (x >>= f) s = .error e t := by
  simp only [bind, EStateM.bind, h]

theorem get_bind (f : σ → EStateM ε σ β) : (get >>= f) s = f s s := rfl

theorem bind_eq_ok_iff :
    (x >>= f) s = .ok b u ↔ ∃ a t, x s = .ok a t ∧ f a t = .ok b u := by
  cases h : x s with
  | ok a t =>
    rw [bind_ok h]
    constructor
    · intro hf
      exact ⟨a, t, rfl, hf⟩
    · rintro ⟨a', t', hx, hf⟩
      cases hx
      exact hf
  | error e t => simp [bind_error h]

theorem bind_eq_error_iff :
    (x >>= f) s = .error e u ↔
      x s = .error e u ∨ ∃ a t, x s = .ok a t ∧ f a t = .error e u := by
  cases h : x s with
  | ok a t =>
    rw [bind_ok h]
    constructor
    · intro hf
      exact Or.inr ⟨a, t, rfl, hf⟩
    · rintro (hx | ⟨a', t', hx, hf⟩)
      · cases hx
      · cases hx
        exact hf
  | error e' t => simp [bind_error h]

theorem pure_eq_ok_iff {b : α} :
    (pure b : EStateM ε σ α) s = .ok a t ↔ b = a ∧ s = t := by
  simp only [pure, EStateM.pure, EStateM.Result.ok.injEq]

@[simp] theorem throw_ne_ok : (throw e : EStateM ε σ α) s ≠ .ok a t := by
  intro h
  cases h

@[simp] theorem liftM_ok : (liftM (.ok a : Except Fault α) : EStateM Fault σ α) = pure a := rfl

@[simp] theorem liftM_error {e : Fault} :
    (liftM (.error e : Except Fault α) : EStateM Fault σ α) = throw e := rfl

theorem liftM_eq_ok_iff {v : Except Fault α} :
    (liftM v : EStateM Fault σ α) s = .ok a t ↔ v = .ok a ∧ s = t := by
  cases v with
  | ok b => rw [liftM_ok, pure_eq_ok_iff, Except.ok.injEq]
  | error e => simp

theorem liftM_eq_error_iff {v : Except Fault α} {e : Fault} :
    (liftM v : EStateM Fault σ α) s = .error e t ↔ v = .error e ∧ s = t := by
  cases v with
  | ok b => simp [pure, EStateM.pure]
  | error e' =>
    constructor
    · intro h
      cases h
      exact ⟨rfl, rfl⟩
    · rintro ⟨h, rfl⟩
      cases h
      rfl

/-! ### Verdicts -/

theorem verdict_bind_eq_ok_iff {v : Except ε α} {g : α → Except ε β} :
    (v >>= g) = .ok b ↔ ∃ a, v = .ok a ∧ g a = .ok b := by
  cases v with
  | ok a =>
    constructor
    · intro h
      exact ⟨a, rfl, h⟩
    · rintro ⟨a', ha, h⟩
      cases ha
      exact h
  | error e =>
    constructor
    · intro h
      cases h
    · rintro ⟨a', ha, -⟩
      cases ha

theorem verdict_map_eq_ok_iff {v : Except ε α} {g : α → β} :
    (g <$> v) = .ok b ↔ ∃ a, v = .ok a ∧ g a = b := by
  cases v with
  | ok a => simp [Functor.map, Except.map]
  | error e => simp [Functor.map, Except.map]

theorem mapM_cons_eq_ok_iff {g : α → Except ε β} {x : α} {xs : List α} {ys : List β} :
    (x :: xs).mapM g = .ok ys ↔ ∃ y rest, g x = .ok y ∧ xs.mapM g = .ok rest ∧ ys = y :: rest := by
  rw [List.mapM_cons, verdict_bind_eq_ok_iff]
  constructor
  · rintro ⟨y, hy, h⟩
    obtain ⟨rest, hrest, h⟩ := verdict_bind_eq_ok_iff.mp h
    cases h
    exact ⟨y, rest, hy, hrest, rfl⟩
  · rintro ⟨y, rest, hy, hrest, rfl⟩
    exact ⟨y, hy, verdict_bind_eq_ok_iff.mpr ⟨rest, hrest, rfl⟩⟩

theorem mapM_append_eq_ok_iff {g : α → Except ε β} {xs ys : List α} {zs : List β} :
    (xs ++ ys).mapM g = .ok zs ↔
      ∃ us vs, xs.mapM g = .ok us ∧ ys.mapM g = .ok vs ∧ zs = us ++ vs := by
  rw [List.mapM_append, verdict_bind_eq_ok_iff]
  constructor
  · rintro ⟨us, hus, h⟩
    obtain ⟨vs, hvs, h⟩ := verdict_bind_eq_ok_iff.mp h
    cases h
    exact ⟨us, vs, hus, hvs, rfl⟩
  · rintro ⟨us, vs, hus, hvs, rfl⟩
    exact ⟨us, hus, verdict_bind_eq_ok_iff.mpr ⟨vs, hvs, rfl⟩⟩

/-! ### Verdicts that fail in known ways -/

/-- Where the verdict is an error, the error has this property. -/
def FailsWith {ε α : Type} (P : ε → Prop) (v : Except ε α) : Prop :=
  ∀ e, v = .error e → P e

variable {P : ε → Prop} {v : Except ε α} {g : α → Except ε β}

theorem failsWith_ok (a : α) : FailsWith P (.ok a) := by
  intro e h
  cases h

theorem failsWith_error {e : ε} (h : P e) : FailsWith P (.error e : Except ε α) := by
  intro e' h'
  cases h'
  exact h

theorem failsWith_bind (hv : FailsWith P v) (hg : ∀ a, FailsWith P (g a)) :
    FailsWith P (v >>= g) := by
  intro e h
  cases hcase : v with
  | ok a =>
    rw [hcase] at h
    exact hg a e h
  | error e' =>
    rw [hcase] at h
    cases h
    exact hv e hcase

theorem failsWith_ite {w : Except ε α} {Q : Prop} [Decidable Q] (hv : FailsWith P v)
    (hw : FailsWith P w) : FailsWith P (if Q then v else w) := by
  by_cases hq : Q
  · rw [if_pos hq]
    exact hv
  · rw [if_neg hq]
    exact hw

end ClassXref.Stateful

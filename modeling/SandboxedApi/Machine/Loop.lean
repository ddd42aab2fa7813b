import Mathlib.Logic.Relation

namespace Machine

variable {σ ε α : Type}

/-- `while (!done(s)) s = step(s)`, as a fuel-bounded recursion: a failing step ends the loop with
its error, and running out of fuel ends it with `stuck`. -/
def loop (step : σ → Except ε σ) (done : σ → Option α) (stuck : ε) : Nat → σ → Except ε α
  | 0, _ => .error stuck
  | n + 1, s =>
    match done s with
    | some r => .ok r
    | none =>
      match step s with
      | .error e => .error e
      | .ok s' => loop step done stuck n s'

def Step (step : σ → Except ε σ) (done : σ → Option α) (s s' : σ) : Prop :=
  done s = none ∧ step s = .ok s'

def Reaches (step : σ → Except ε σ) (done : σ → Option α) : σ → σ → Prop :=
  Relation.ReflTransGen (Step step done)

section

variable {step : σ → Except ε σ} {done : σ → Option α} {stuck : ε}

theorem loop_done {s : σ} {r : α} (n : Nat) (h : done s = some r) :
    loop step done stuck (n + 1) s = .ok r := by
  simp [loop, h]

theorem loop_step {s s' : σ} (n : Nat) (h : Step step done s s') :
    loop step done stuck (n + 1) s = loop step done stuck n s' := by
  simp [loop, h.1, h.2]

theorem loop_error {s : σ} {e : ε} (n : Nat) (hd : done s = none) (h : step s = .error e) :
    loop step done stuck (n + 1) s = .error e := by
  simp [loop, hd, h]

theorem loop_map_of_simulation {σ' β : Type} {step' : σ' → Except ε σ'} {done' : σ' → Option β}
    (R : σ → σ' → Prop) (g : α → β)
    (hdone : ∀ s s', R s s' → done' s' = (done s).map g)
    (herror : ∀ s s' e, R s s' → done s = none → step s = .error e → step' s' = .error e)
    (hstep : ∀ s s' t, R s s' → done s = none → step s = .ok t →
      ∃ t', step' s' = .ok t' ∧ R t t') :
    ∀ n s s', R s s' → loop step' done' stuck n s' = (loop step done stuck n s).map g := by
  intro n
  induction n with
  | zero => intro _ _ _; rfl
  | succ n ih =>
    intro s s' hR
    cases hd : done s with
    | some r =>
      have hd' : done' s' = some (g r) := by rw [hdone s s' hR, hd]; rfl
      rw [loop_done n hd, loop_done n hd']
      rfl
    | none =>
      have hd' : done' s' = none := by rw [hdone s s' hR, hd]; rfl
      cases hs : step s with
      | error e =>
        rw [loop_error n hd hs, loop_error n hd' (herror s s' e hR hd hs)]
        rfl
      | ok t =>
        obtain ⟨t', hs', hR'⟩ := hstep s s' t hR hd hs
        rw [loop_step n ⟨hd, hs⟩, loop_step n ⟨hd', hs'⟩]
        exact ih t t' hR'

theorem Step.functional {s s₁ s₂ : σ} (h₁ : Step step done s s₁) (h₂ : Step step done s s₂) :
    s₁ = s₂ :=
  Except.ok.inj (h₁.2.symm.trans h₂.2)

theorem Reaches.cases_step {s s' t : σ} (hs : Step step done s s') (h : Reaches step done s t) :
    t = s ∨ Reaches step done s' t := by
  rcases Relation.ReflTransGen.cases_head h with rfl | ⟨u, hu, hrest⟩
  · exact .inl rfl
  · rw [hs.functional hu]
    exact .inr hrest

theorem Reaches.total {s t u : σ} (ht : Reaches step done s t) (hu : Reaches step done s u) :
    Reaches step done t u ∨ Reaches step done u t := by
  induction ht using Relation.ReflTransGen.head_induction_on generalizing u with
  | refl => exact .inl hu
  | @head a b hab hbt ih =>
    rcases Reaches.cases_step hab hu with rfl | hbu
    · exact .inr (Relation.ReflTransGen.head hab hbt)
    · exact ih hbu

theorem Reaches.measure_le (μ : σ → Nat) (mono : ∀ s s', Step step done s s' → μ s < μ s')
    {s s' : σ} (h : Reaches step done s s') : μ s ≤ μ s' := by
  induction h with
  | refl => exact Nat.le_refl _
  | tail _ hst ih => exact Nat.le_trans ih (Nat.le_of_lt (mono _ _ hst))

theorem loop_of_reaches (μ : σ → Nat) (mono : ∀ s s', Step step done s s' → μ s < μ s')
    {s s' : σ} (h : Reaches step done s s') :
    ∃ k ≤ μ s' - μ s, ∀ n, k ≤ n → loop step done stuck n s = loop step done stuck (n - k) s' := by
  induction h using Relation.ReflTransGen.head_induction_on with
  | refl => exact ⟨0, Nat.zero_le _, fun n _ => rfl⟩
  | @head a b hst hrest ih =>
    obtain ⟨k, hk, hrun⟩ := ih
    have hlt := mono _ _ hst
    have hle := Reaches.measure_le μ mono hrest
    refine ⟨k + 1, by omega, fun n hn => ?_⟩
    obtain ⟨m, rfl⟩ : ∃ m, n = m + 1 := ⟨n - 1, by omega⟩
    rw [loop_step m hst, hrun m (by omega), Nat.add_sub_add_right]

theorem loop_eq_of_reaches_done (μ : σ → Nat) (mono : ∀ s s', Step step done s s' → μ s < μ s')
    {s s' : σ} {r : α} (h : Reaches step done s s') (hd : done s' = some r) {n : Nat}
    (hn : μ s' - μ s < n) : loop step done stuck n s = .ok r := by
  obtain ⟨k, hk, hrun⟩ := loop_of_reaches μ mono h
  obtain ⟨m, hm⟩ : ∃ m, n - k = m + 1 := ⟨n - k - 1, by omega⟩
  rw [hrun n (by omega), hm, loop_done m hd]

theorem loop_outcome (μ : σ → Nat) (B : Nat) (mono : ∀ s s', Step step done s s' → μ s < μ s')
    (bound : ∀ s s', Step step done s s' → μ s' ≤ B) :
    ∀ n s, B - μ s < n →
      (∃ s' r, Reaches step done s s' ∧ done s' = some r ∧ loop step done stuck n s = .ok r) ∨
      (∃ s' e, Reaches step done s s' ∧ done s' = none ∧ step s' = .error e ∧
        loop step done stuck n s = .error e) := by
  intro n
  induction n with
  | zero => intro s h; omega
  | succ n ih =>
    intro s hn
    cases hd : done s with
    | some r => exact .inl ⟨s, r, .refl, hd, loop_done n hd⟩
    | none =>
      cases hs : step s with
      | error e => exact .inr ⟨s, e, .refl, hd, hs, loop_error n hd hs⟩
      | ok s' =>
        have hst : Step step done s s' := ⟨hd, hs⟩
        have hlt := mono _ _ hst
        have hb := bound s s' hst
        rw [loop_step n hst]
        rcases ih s' (by omega) with ⟨t, r, ht, htd, hl⟩ | ⟨t, e, ht, htd, hte, hl⟩
        · exact .inl ⟨t, r, .head hst ht, htd, hl⟩
        · exact .inr ⟨t, e, .head hst ht, htd, hte, hl⟩

end

theorem bind_eq_ok {β : Type} {x : Except ε α} {f : α → Except ε β} {b : β}
    (h : (x >>= f) = .ok b) : ∃ a, x = .ok a ∧ f a = .ok b := by
  cases x with
  | error e => cases h
  | ok a => exact ⟨a, rfl, h⟩

theorem map_eq_ok {β : Type} {x : Except ε α} {f : α → β} {b : β} (h : (f <$> x) = .ok b) :
    ∃ a, x = .ok a ∧ f a = b := by
  cases x with
  | error e => cases h
  | ok a => exact ⟨a, rfl, by cases h; rfl⟩

theorem foldlM_isOk {β γ : Type} {f : β → γ → Except ε β} :
    ∀ {l : List γ}, (∀ b, ∀ x ∈ l, ∃ b', f b x = .ok b') → ∀ b, ∃ b', l.foldlM f b = .ok b'
  | [], _, b => ⟨b, rfl⟩
  | x :: l, hf, b => by
    obtain ⟨b₁, h₁⟩ := hf b x (by simp)
    obtain ⟨b₂, h₂⟩ := foldlM_isOk (l := l) (fun b y hy => hf b y (by simp [hy])) b₁
    exact ⟨b₂, by rw [List.foldlM_cons, h₁]; exact h₂⟩

end Machine

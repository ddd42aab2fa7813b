namespace Machine

variable {ε σ α β γ : Type}

def resultState : EStateM.Result ε σ α → σ
  | .ok _ s => s
  | .error _ s => s

def Keeps (f : σ → β) (x : EStateM ε σ α) : Prop :=
  ∀ s, f (resultState (x.run s)) = f s

theorem run_pure (a : α) (s : σ) : (pure a : EStateM ε σ α).run s = .ok a s := rfl

theorem run_throw (e : ε) (s : σ) : (throw e : EStateM ε σ α).run s = .error e s := rfl

theorem run_get (s : σ) : (get : EStateM ε σ σ).run s = .ok s s := rfl

theorem run_modify (g : σ → σ) (s : σ) : (modify g : EStateM ε σ PUnit).run s = .ok () (g s) :=
  rfl

theorem run_bind (x : EStateM ε σ α) (k : α → EStateM ε σ γ) (s : σ) :
    (x >>= k).run s = match x.run s with
      | .ok a s' => (k a).run s'
      | .error e s' => .error e s' := rfl

section

variable {f : σ → β}

theorem keeps_pure (a : α) : Keeps f (pure a : EStateM ε σ α) := fun _ => rfl

theorem keeps_throw (e : ε) : Keeps f (throw e : EStateM ε σ α) := fun _ => rfl

theorem keeps_get : Keeps f (get : EStateM ε σ σ) := fun _ => rfl

theorem keeps_modify {g : σ → σ} (h : ∀ s, f (g s) = f s) : Keeps f (modify g : EStateM ε σ PUnit) :=
  fun s => h s

theorem Keeps.of_run_ok {x : EStateM ε σ α} {s s' : σ} {a : α} (hx : Keeps f x)
    (h : x.run s = .ok a s') : f s' = f s := by
  have := hx s
  rwa [h] at this

theorem Keeps.of_run_error {x : EStateM ε σ α} {s s' : σ} {e : ε} (hx : Keeps f x)
    (h : x.run s = .error e s') : f s' = f s := by
  have := hx s
  rwa [h] at this

theorem Keeps.of_id {x : EStateM ε σ α} (hx : Keeps id x) : Keeps f x :=
  fun s => congrArg f (hx s)

theorem Keeps.bind {x : EStateM ε σ α} {k : α → EStateM ε σ γ} (hx : Keeps f x)
    (hk : ∀ a, Keeps f (k a)) : Keeps f (x >>= k) := by
  intro s
  rw [run_bind]
  cases hxs : x.run s with
  | ok a s' => exact (hk a s').trans (hx.of_run_ok hxs)
  | error e s' => exact hx.of_run_error hxs

theorem Keeps.ite {c : Prop} [Decidable c] {x y : EStateM ε σ α} (hx : Keeps f x) (hy : Keeps f y) :
    Keeps f (if c then x else y) := by
  by_cases hc : c
  · rw [if_pos hc]
    exact hx
  · rw [if_neg hc]
    exact hy

theorem Keeps.dite {c : Prop} [Decidable c] {x : c → EStateM ε σ α} {y : ¬ c → EStateM ε σ α}
    (hx : ∀ h, Keeps f (x h)) (hy : ∀ h, Keeps f (y h)) : Keeps f (if h : c then x h else y h) := by
  by_cases hc : c
  · rw [dif_pos hc]
    exact hx hc
  · rw [dif_neg hc]
    exact hy hc

theorem Keeps.getIte {p : σ → Prop} [DecidablePred p] {x : EStateM ε σ PUnit}
    {k : PUnit → EStateM ε σ α} (hx : Keeps f x) (hk : ∀ a, Keeps f (k a)) :
    Keeps f (do
      let s ← get
      if p s then do
        let a ← x
        k a
      else k ()) :=
  keeps_get.bind fun _ => Keeps.ite (hx.bind hk) (hk ())

end

end Machine

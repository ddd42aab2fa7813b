import SandboxedApi.Machine.EState

namespace Machine

variable {ε σ α β : Type}

def Triple (pre : σ → Prop) (x : EStateM ε σ α) (post : α → σ → Prop)
    (err : ε → σ → Prop) : Prop :=
  ∀ s, pre s → match x.run s with
    | .ok a s' => post a s'
    | .error e s' => err e s'

variable {pre pre' : σ → Prop} {post post' : α → σ → Prop} {err err' : ε → σ → Prop}

theorem Triple.of_run {x : EStateM ε σ α}
    (h : ∀ s, pre s → (∀ a s', x.run s = .ok a s' → post a s') ∧
      ∀ e s', x.run s = .error e s' → err e s') : Triple pre x post err := by
  intro s hs
  obtain ⟨hok, herr⟩ := h s hs
  cases hrun : x.run s with
  | ok a s' => exact hok a s' hrun
  | error e s' => exact herr e s' hrun

theorem Triple.ok {x : EStateM ε σ α} (h : Triple pre x post err) {s s' : σ} {a : α}
    (hs : pre s) (hrun : x.run s = .ok a s') : post a s' := by
  have := h s hs
  rwa [hrun] at this

theorem Triple.error {x : EStateM ε σ α} (h : Triple pre x post err) {s s' : σ} {e : ε}
    (hs : pre s) (hrun : x.run s = .error e s') : err e s' := by
  have := h s hs
  rwa [hrun] at this

theorem Triple.mono {x : EStateM ε σ α} (h : Triple pre x post err) (hpre : ∀ s, pre' s → pre s)
    (hpost : ∀ a s, post a s → post' a s) (herr : ∀ e s, err e s → err' e s) :
    Triple pre' x post' err' :=
  Triple.of_run fun _ hs =>
    ⟨fun _ _ hrun => hpost _ _ (h.ok (hpre _ hs) hrun),
      fun _ _ hrun => herr _ _ (h.error (hpre _ hs) hrun)⟩

theorem triple_pure (a : α) (h : ∀ s, pre s → post a s) :
    Triple pre (pure a : EStateM ε σ α) post err :=
  fun s hs => h s hs

theorem triple_throw (e : ε) (h : ∀ s, pre s → err e s) :
    Triple pre (throw e : EStateM ε σ α) post err :=
  fun s hs => h s hs

theorem triple_get {post : σ → σ → Prop} (h : ∀ s, pre s → post s s) :
    Triple pre (get : EStateM ε σ σ) post err :=
  fun s hs => h s hs

theorem triple_modify {f : σ → σ} {post : PUnit → σ → Prop} (h : ∀ s, pre s → post () (f s)) :
    Triple pre (modify f : EStateM ε σ PUnit) post err :=
  fun s hs => h s hs

theorem triple_true {x : EStateM ε σ α} : Triple pre x (fun _ _ => True) (fun _ _ => True) :=
  Triple.of_run fun _ _ => ⟨fun _ _ _ => trivial, fun _ _ _ => trivial⟩

theorem triple_get_bind {f : σ → EStateM ε σ α} (h : ∀ p, pre p → Triple (· = p) (f p) post err) :
    Triple pre (get >>= f) post err :=
  fun s hs => h s hs s rfl

theorem Triple.bind {x : EStateM ε σ α} {f : α → EStateM ε σ β} {mid : α → σ → Prop}
    {post : β → σ → Prop} (hx : Triple pre x mid err) (hf : ∀ a, Triple (mid a) (f a) post err) :
    Triple pre (x >>= f) post err := by
  intro s hs
  rw [run_bind]
  cases hrun : x.run s with
  | ok a s' => exact hf a s' (hx.ok hs hrun)
  | error e s' => exact hx.error hs hrun

theorem triple_ite {c : Prop} [Decidable c] {x y : EStateM ε σ α}
    (hx : c → Triple pre x post err) (hy : ¬ c → Triple pre y post err) :
    Triple pre (if c then x else y) post err := by
  by_cases hc : c
  · rw [if_pos hc]
    exact hx hc
  · rw [if_neg hc]
    exact hy hc

theorem triple_dite {c : Prop} [Decidable c] {x : c → EStateM ε σ α} {y : ¬ c → EStateM ε σ α}
    (hx : ∀ h, Triple pre (x h) post err) (hy : ∀ h, Triple pre (y h) post err) :
    Triple pre (if h : c then x h else y h) post err := by
  by_cases hc : c
  · rw [dif_pos hc]
    exact hx hc
  · rw [dif_neg hc]
    exact hy hc

theorem run_bind_eq_ok {x : EStateM ε σ α} {f : α → EStateM ε σ β} {s s'' : σ} {b : β}
    (h : (x >>= f).run s = .ok b s'') : ∃ a s', x.run s = .ok a s' ∧ (f a).run s' = .ok b s'' := by
  rw [run_bind] at h
  cases hx : x.run s with
  | ok a s' =>
    rw [hx] at h
    exact ⟨a, s', rfl, h⟩
  | error e s' =>
    rw [hx] at h
    cases h

theorem Triple.of_keeps {β : Type} {f : σ → β} {P : β → Prop} {x : EStateM ε σ α} (hx : Keeps f x) :
    Triple (fun s => P (f s)) x (fun _ s => P (f s)) (fun _ s => P (f s)) :=
  Triple.of_run fun _ hs =>
    ⟨fun _ _ hrun => (hx.of_run_ok hrun) ▸ hs, fun _ _ hrun => (hx.of_run_error hrun) ▸ hs⟩

end Machine

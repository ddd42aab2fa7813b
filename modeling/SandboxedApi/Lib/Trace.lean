import Mathlib.Logic.Basic

namespace Lts

inductive Run {σ ε : Type} (step : σ → ε → σ → Prop) : σ → List ε → σ → Prop
  | nil (s : σ) : Run step s [] s
  | cons {s t u : σ} {e : ε} {es : List ε} : step s e t → Run step t es u → Run step s (e :: es) u

namespace Run

variable {σ ε : Type} {step : σ → ε → σ → Prop}

theorem append {s t u : σ} {es fs : List ε} (h : Run step s es t) (h' : Run step t fs u) :
    Run step s (es ++ fs) u := by
  induction h with
  | nil => exact h'
  | cons hst _ ih => exact .cons hst (ih h')

theorem invariant {P : σ → Prop} (hstep : ∀ s e t, P s → step s e t → P t) {s t : σ}
    {es : List ε} (h : Run step s es t) (hs : P s) : P t := by
  induction h with
  | nil => exact hs
  | cons hst _ ih => exact ih (hstep _ _ _ hs hst)

theorem forall_not_bad {P : σ → Prop} {allowed bad : ε → Prop}
    (hkeep : ∀ s e t, P s → step s e t → allowed e → P t)
    (hnever : ∀ s e t, P s → step s e t → ¬ bad e) {s t : σ} {es : List ε}
    (h : Run step s es t) (hs : P s) (hallowed : ∀ e ∈ es, allowed e) : ∀ e ∈ es, ¬ bad e := by
  induction h with
  | nil => simp
  | cons hst _ ih =>
    intro e he
    have hfirst := hallowed _ List.mem_cons_self
    rcases List.mem_cons.mp he with rfl | hrest
    · exact hnever _ _ _ hs hst
    · exact ih (hkeep _ _ _ hs hst hfirst) (fun e' he' => hallowed e' (List.mem_cons_of_mem _ he'))
        e hrest

end Run

end Lts

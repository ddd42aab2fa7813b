import Mathlib.Algebra.BigOperators.Group.List.Basic
import SandboxedApi.Lib.Trace

namespace Lts

variable {σ τ ε : Type}

inductive Interleave (threadStep : σ → τ → ε → σ → τ → Prop) (envStep : σ → ε → σ → Prop) :
    σ × List τ → ε → σ × List τ → Prop
  | thread (pre post : List τ) {g g' : σ} {t t' : τ} {e : ε} :
      threadStep g t e g' t' → Interleave threadStep envStep (g, pre ++ t :: post) e (g', pre ++ t' :: post)
  | env {g g' : σ} {ts : List τ} {e : ε} :
      envStep g e g' → Interleave threadStep envStep (g, ts) e (g', ts)

namespace Interleave

variable {threadStep : σ → τ → ε → σ → τ → Prop} {envStep : σ → ε → σ → Prop}
  {s s' : σ × List τ} {e : ε}

theorem sum_eq {M : Type} [AddCommMonoid M] {A B : σ → M} {w : τ → M}
    (hthread : ∀ g t e g' t' rest, threadStep g t e g' t' → A g + w t + rest = B g →
      A g' + w t' + rest = B g')
    (henv : ∀ g e g' rest, envStep g e g' → A g + rest = B g → A g' + rest = B g')
    (h : Interleave threadStep envStep s e s') (hs : A s.1 + (s.2.map w).sum = B s.1) :
    A s'.1 + (s'.2.map w).sum = B s'.1 := by
  cases h with
  | thread pre post hstep =>
    have hsplit : ∀ u, ((pre ++ u :: post).map w).sum = w u + ((pre ++ post).map w).sum := by
      intro u
      simp [add_left_comm]
    rw [hsplit, ← add_assoc] at hs ⊢
    exact hthread _ _ _ _ _ _ hstep hs
  | env hstep => exact henv _ _ _ _ hstep hs

theorem sum_eq_of_balance {M : Type} [AddCancelCommMonoid M] {A B : σ → M} {w : τ → M}
    (hthread : ∀ g t e g' t', threadStep g t e g' t' → A g' + w t' + B g = A g + w t + B g')
    (henv : ∀ g e g', envStep g e g' → A g' + B g = A g + B g')
    (h : Interleave threadStep envStep s e s') (hs : A s.1 + (s.2.map w).sum = B s.1) :
    A s'.1 + (s'.2.map w).sum = B s'.1 := by
  refine sum_eq (fun g t e g' t' rest hstep hrest => ?_) (fun g e g' rest hstep hrest => ?_) h hs
  · refine add_right_cancel (b := B g) ?_
    calc A g' + w t' + rest + B g = A g' + w t' + B g + rest := add_right_comm _ _ _
      _ = A g + w t + rest + B g' := by rw [hthread _ _ _ _ _ hstep, add_right_comm]
      _ = B g' + B g := by rw [hrest, add_comm]
  · refine add_right_cancel (b := B g) ?_
    calc A g' + rest + B g = A g' + B g + rest := add_right_comm _ _ _
      _ = A g + rest + B g' := by rw [henv _ _ _ hstep, add_right_comm]
      _ = B g' + B g := by rw [hrest, add_comm]

theorem forall_mem {S : σ → Prop} {P : τ → Prop}
    (hthread : ∀ g t e g' t', threadStep g t e g' t' → S g → P t → S g' ∧ P t')
    (henv : ∀ g e g', envStep g e g' → S g → S g')
    (h : Interleave threadStep envStep s e s') (hs : S s.1 ∧ ∀ t ∈ s.2, P t) :
    S s'.1 ∧ ∀ t ∈ s'.2, P t := by
  obtain ⟨hg, hts⟩ := hs
  cases h with
  | thread pre post hstep =>
    obtain ⟨hg', ht'⟩ := hthread _ _ _ _ _ hstep hg (hts _ (by simp))
    refine ⟨hg', fun u hu => ?_⟩
    simp only [List.mem_append, List.mem_cons] at hu
    rcases hu with hu | rfl | hu
    · exact hts u (by simp [hu])
    · exact ht'
    · exact hts u (by simp [hu])
  | env hstep => exact ⟨henv _ _ _ hstep hg, hts⟩

end Interleave

end Lts

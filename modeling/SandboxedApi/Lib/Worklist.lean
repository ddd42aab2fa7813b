import Mathlib.Data.List.Nodup

namespace Worklist

variable {α κ : Type}

structure State (α κ : Type) where
  visited : List κ
  pending : List α

section

variable (key : α → Option κ) (succ : κ → List α)

inductive Reach (roots : List α) : α → Prop
  | root {x : α} : x ∈ roots → Reach roots x
  | succ {x y : α} {k : κ} : Reach roots x → key x = some k → y ∈ succ k → Reach roots y

def Handled (visited : List κ) (x : α) : Prop := ∀ k, key x = some k → k ∈ visited

inductive Step : State α κ → State α κ → Prop
  | drop {visited : List κ} {x : α} {rest : List α} :
      Handled key visited x → Step ⟨visited, x :: rest⟩ ⟨visited, rest⟩
  | visit {visited : List κ} {x : α} {rest pushed : List α} {k : κ} :
      key x = some k → k ∉ visited → (∀ y, y ∈ pushed ↔ y ∈ succ k) →
      Step ⟨visited, x :: rest⟩ ⟨visited ++ [k], pushed ++ rest⟩

def Covered (s : State α κ) (x : α) : Prop := x ∈ s.pending ∨ Handled key s.visited x

structure Invariant (roots : List α) (s : State α κ) : Prop where
  nodup : s.visited.Nodup
  pending_reach : ∀ x ∈ s.pending, Reach key succ roots x
  visited_reach : ∀ k ∈ s.visited, ∃ x, Reach key succ roots x ∧ key x = some k
  roots_covered : ∀ x ∈ roots, Covered key s x
  succ_covered : ∀ k ∈ s.visited, ∀ y ∈ succ k, Covered key s y

end

variable {key : α → Option κ} {succ : κ → List α} {roots : List α} {s s' : State α κ}

theorem Handled.append {visited : List κ} {x : α} (h : Handled key visited x) (ks : List κ) :
    Handled key (visited ++ ks) x :=
  fun k hk => List.mem_append_left ks (h k hk)

theorem Step.covered {x : α} (h : Step key succ s s') (hx : Covered key s x) : Covered key s' x := by
  cases h with
  | drop hdrop =>
    rcases hx with hx | hx
    · rcases List.mem_cons.mp hx with rfl | hx
      · exact .inr hdrop
      · exact .inl hx
    · exact .inr hx
  | @visit visited y rest pushed k hk _ _ =>
    rcases hx with hx | hx
    · rcases List.mem_cons.mp hx with rfl | hx
      · -- the popped item's key is the one just visited
        refine .inr fun k' hk' => ?_
        rw [hk] at hk'
        cases hk'
        exact List.mem_append_right _ List.mem_cons_self
      · exact .inl (List.mem_append_right _ hx)
    · exact .inr (hx.append [k])

theorem invariant_init {pending : List α} (h : ∀ x, x ∈ pending ↔ x ∈ roots) :
    Invariant key succ roots ⟨[], pending⟩ where
  nodup := List.nodup_nil
  pending_reach := fun x hx => .root ((h x).mp hx)
  visited_reach := fun _ hk => nomatch hk
  roots_covered := fun x hx => .inl ((h x).mpr hx)
  succ_covered := fun _ hk => nomatch hk

theorem Invariant.step (hs : Invariant key succ roots s) (h : Step key succ s s') :
    Invariant key succ roots s' := by
  have hcov := fun x hx => h.covered (x := x) hx
  cases h with
  | drop _ =>
    exact ⟨hs.nodup, fun x hx => hs.pending_reach x (List.mem_cons_of_mem _ hx), hs.visited_reach,
      fun x hx => hcov x (hs.roots_covered x hx),
      fun k hk y hy => hcov y (hs.succ_covered k hk y hy)⟩
  | @visit visited x rest pushed k hk hnew hpushed =>
    have hx : Reach key succ roots x := hs.pending_reach x List.mem_cons_self
    refine ⟨?_, fun y hy => ?_, fun k' hk' => ?_, fun y hy => hcov y (hs.roots_covered y hy),
      fun k' hk' y hy => ?_⟩
    · exact List.nodup_append.mpr ⟨hs.nodup, List.nodup_singleton k,
        fun a ha b hb => by rw [List.mem_singleton.mp hb]; exact fun e => hnew (e ▸ ha)⟩
    · rcases List.mem_append.mp hy with hy | hy
      · -- a pushed item is a successor of the key just visited
        exact .succ hx hk ((hpushed y).mp hy)
      · exact hs.pending_reach y (List.mem_cons_of_mem _ hy)
    · rcases List.mem_append.mp hk' with hk' | hk'
      · exact hs.visited_reach k' hk'
      · rw [List.mem_singleton.mp hk']
        exact ⟨x, hx, hk⟩
    · rcases List.mem_append.mp hk' with hk' | hk'
      · exact hcov y (hs.succ_covered k' hk' y hy)
      · rw [List.mem_singleton.mp hk'] at hy
        exact .inl (List.mem_append_left _ ((hpushed y).mpr hy))

theorem Invariant.handled_of_reach {visited : List κ} (hs : Invariant key succ roots ⟨visited, []⟩)
    {x : α} (hx : Reach key succ roots x) : Handled key visited x := by
  have hdone : ∀ y, Covered key ⟨visited, []⟩ y → Handled key visited y := fun y hy =>
    hy.resolve_left List.not_mem_nil
  induction hx with
  | root hroot => exact hdone _ (hs.roots_covered _ hroot)
  | succ _ hk hy ih => exact hdone _ (hs.succ_covered _ (ih _ hk) _ hy)

theorem Invariant.mem_visited_iff {visited : List κ} (hs : Invariant key succ roots ⟨visited, []⟩)
    (k : κ) : k ∈ visited ↔ ∃ x, Reach key succ roots x ∧ key x = some k :=
  ⟨hs.visited_reach k, fun ⟨_, hx, hk⟩ => hs.handled_of_reach hx k hk⟩

end Worklist

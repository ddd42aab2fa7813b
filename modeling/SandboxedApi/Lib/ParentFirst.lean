import Mathlib.Data.List.Basic

namespace SandboxedApi

variable {α β : Type*}

def ParentFirstAfter (before l : List (List α)) : Prop :=
  ∀ l₁ p l₂, l = l₁ ++ p :: l₂ → p ≠ [] → p.dropLast ∈ before ++ l₁

def ParentFirst (l : List (List α)) : Prop :=
  ParentFirstAfter [] l

section

variable {before before' l l₁ l₂ : List (List α)}

theorem ParentFirstAfter.mono (h : ParentFirstAfter before l) (hsub : before ⊆ before') :
    ParentFirstAfter before' l := by
  intro m₁ p m₂ hl hp
  rcases List.mem_append.mp (h m₁ p m₂ hl hp) with hb | hm
  · exact List.mem_append_left _ (hsub hb)
  · exact List.mem_append_right _ hm

theorem ParentFirstAfter.append (h₁ : ParentFirstAfter before l₁)
    (h₂ : ParentFirstAfter (before ++ l₁) l₂) : ParentFirstAfter before (l₁ ++ l₂) := by
  intro m₁ p m₂ hl hp
  rcases List.append_eq_append_iff.mp hl with ⟨n, rfl, hn⟩ | ⟨n, rfl, hn⟩
  · -- the path lies in the second listing
    have := h₂ n p m₂ hn hp
    rwa [List.append_assoc] at this
  · cases n with
    | nil =>
      simp only [List.nil_append] at hn
      simpa using h₂ [] p m₂ hn.symm hp
    | cons q n =>
      simp only [List.cons_append, List.cons.injEq] at hn
      obtain ⟨rfl, -⟩ := hn
      exact h₁ m₁ p n rfl hp

theorem ParentFirst.map_cons (h : ParentFirst l) (hnil : [] ∈ before) (k : α) :
    ParentFirstAfter before (l.map (k :: ·)) := by
  intro m₁ p m₂ hl hp
  obtain ⟨n₁, n₂, rfl, rfl, hn₂⟩ := List.map_eq_append_iff.mp hl
  obtain ⟨q, n₃, rfl, hq, -⟩ := List.map_eq_cons_iff.mp hn₂
  subst hq
  by_cases hq : q = []
  · -- the path `[k]`, whose parent is the empty path
    subst hq
    exact List.mem_append_left _ hnil
  · have hparent : q.dropLast ∈ n₁ := by simpa [ParentFirst] using h n₁ q n₃ rfl hq
    rw [List.dropLast_cons_of_ne_nil hq]
    exact List.mem_append_right _ (List.mem_map_of_mem hparent)

theorem ParentFirstAfter.flatMap {xs : List β} {f : β → List (List α)}
    (h : ∀ x ∈ xs, ParentFirstAfter before (f x)) : ParentFirstAfter before (xs.flatMap f) := by
  induction xs with
  | nil => intro m₁ p m₂ hl; simp at hl
  | cons x xs ih =>
    rw [List.flatMap_cons]
    refine (h x List.mem_cons_self).append ?_
    exact (ih fun y hy => h y (List.mem_cons_of_mem _ hy)).mono (List.subset_append_left _ _)

end

end SandboxedApi

import Mathlib.Data.List.Nodup
import Mathlib.Order.Basic
import Mathlib.Algebra.Group.Nat.Defs
import Mathlib.Algebra.Group.Int.Defs
import Mathlib.Order.Lattice

namespace SortedSet

variable {α : Type} [LinearOrder α]

def insert (x : α) : List α → List α
  | [] => [x]
  | y :: ys => if x < y then x :: y :: ys else if x = y then y :: ys else y :: insert x ys

@[simp] theorem mem_insert {x z : α} {l : List α} : z ∈ insert x l ↔ z = x ∨ z ∈ l := by
  induction l with
  | nil => simp [insert]
  | cons y ys ih =>
    by_cases hxy : x < y
    · simp [insert, hxy]
    · by_cases hne : x = y
      · subst hne
        simp [insert]
      · simp only [insert, hxy, hne, if_false, List.mem_cons, ih]
        tauto

theorem pairwise_insert {x : α} {l : List α} (h : l.Pairwise (· < ·)) :
    (insert x l).Pairwise (· < ·) := by
  induction l with
  | nil => simp [insert]
  | cons y ys ih =>
    have hy := List.pairwise_cons.mp h
    by_cases hxy : x < y
    · -- `x` goes first: below `y`, so below every element after `y` as well
      simp only [insert, hxy, if_true]
      refine List.pairwise_cons.mpr ⟨fun z hz => ?_, h⟩
      rcases List.mem_cons.mp hz with rfl | hz
      · exact hxy
      · exact lt_trans hxy (hy.1 z hz)
    · by_cases hne : x = y
      · simpa [insert, hxy, hne] using h
      · have hyx : y < x := lt_of_le_of_ne (not_lt.mp hxy) (Ne.symm hne)
        simp only [insert, hxy, hne, if_false]
        refine List.pairwise_cons.mpr ⟨fun z hz => ?_, ih hy.2⟩
        rcases mem_insert.mp hz with rfl | hz
        · exact hyx
        · exact hy.1 z hz

theorem Pairwise.nodup {l : List α} (h : l.Pairwise (· < ·)) : l.Nodup :=
  h.imp ne_of_lt

theorem pairwise_erase {x : α} {l : List α} (h : l.Pairwise (· < ·)) :
    (l.erase x).Pairwise (· < ·) :=
  h.sublist List.erase_sublist

end SortedSet

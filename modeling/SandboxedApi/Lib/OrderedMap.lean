import Mathlib.Order.Basic
import Mathlib.Data.List.Basic
import Mathlib.Algebra.Group.Nat.Defs
import Mathlib.Algebra.Group.Int.Defs
import Mathlib.Order.Lattice

namespace OrderedMap

variable {K V : Type} [LinearOrder K]

def Sorted (entries : List (K × V)) : Prop :=
  entries.Pairwise (fun a b => a.1 < b.1)

instance (entries : List (K × V)) : Decidable (Sorted entries) :=
  inferInstanceAs (Decidable (entries.Pairwise (fun a b => a.1 < b.1)))

def lowerBound (k : K) : List (K × V) → Nat
  | [] => 0
  | e :: es => if k ≤ e.1 then 0 else lowerBound k es + 1

def assign (k : K) (v : V) : List (K × V) → List (K × V)
  | [] => [(k, v)]
  | e :: es =>
    if k < e.1 then (k, v) :: e :: es
    else if k = e.1 then (k, v) :: es
    else e :: assign k v es

def floor? (k : K) (entries : List (K × V)) : Option (K × V) :=
  (entries.filter (fun e => e.1 ≤ k)).getLast?

theorem sorted_nil : Sorted ([] : List (K × V)) := List.Pairwise.nil

section

variable {pre post l : List (K × V)} {k : K} {v : V}

theorem Sorted.exists_split (h : Sorted l) (k : K) :
    ∃ pre post, l = pre ++ post ∧ (∀ e ∈ pre, e.1 < k) ∧ (∀ e ∈ post, k ≤ e.1) := by
  induction l with
  | nil => exact ⟨[], [], rfl, by simp, by simp⟩
  | cons e es ih =>
    obtain ⟨hhead, htail⟩ := List.pairwise_cons.mp h
    by_cases hk : e.1 < k
    · obtain ⟨pre, post, rfl, hpre, hpost⟩ := ih htail
      refine ⟨e :: pre, post, rfl, ?_, hpost⟩
      intro x hx
      rcases List.mem_cons.mp hx with rfl | hx
      · exact hk
      · exact hpre x hx
    · -- the split is at `e`: every later key is above `e.1`, which is not below `k`
      have hle : k ≤ e.1 := le_of_not_gt hk
      refine ⟨[], e :: es, rfl, by simp, ?_⟩
      intro x hx
      rcases List.mem_cons.mp hx with rfl | hx
      · exact hle
      · exact hle.trans (hhead x hx).le

theorem lowerBound_append (hpre : ∀ e ∈ pre, e.1 < k) (hpost : ∀ e ∈ post, k ≤ e.1) :
    lowerBound k (pre ++ post) = pre.length := by
  induction pre with
  | nil =>
    cases post with
    | nil => rfl
    | cons e es => simp [lowerBound, hpost e (by simp)]
  | cons e es ih =>
    have hlt : ¬ k ≤ e.1 := not_le.mpr (hpre e (by simp))
    have hes : ∀ x ∈ es, x.1 < k := fun x hx => hpre x (by simp [hx])
    simp [lowerBound, hlt, ih hes]

theorem floor?_of_forall_lt (hl : ∀ e ∈ l, e.1 < k) : floor? k l = l.getLast? := by
  have hfilter : l.filter (fun e => e.1 ≤ k) = l :=
    List.filter_eq_self.mpr (fun e he => by simpa using (hl e he).le)
  rw [floor?, hfilter]

theorem floor?_append_cons {e : K × V} {rest : List (K × V)} (h : Sorted (pre ++ e :: rest))
    (hpre : ∀ x ∈ pre, x.1 < k) (he : k ≤ e.1) :
    floor? k (pre ++ e :: rest) = if e.1 = k then some e else pre.getLast? := by
  have hrest : ∀ x ∈ rest, e.1 < x.1 :=
    (List.pairwise_cons.mp (List.pairwise_append.mp h).2.1).1
  have hpre' : pre.filter (fun x => x.1 ≤ k) = pre :=
    List.filter_eq_self.mpr (fun x hx => by simpa using (hpre x hx).le)
  have hrest' : rest.filter (fun x => x.1 ≤ k) = [] :=
    List.filter_eq_nil_iff.mpr (fun x hx => by simpa using lt_of_le_of_lt he (hrest x hx))
  by_cases heq : e.1 = k
  · simp [floor?, List.filter_append, hpre', hrest', heq]
  · have hne : ¬ e.1 ≤ k := fun hle => heq (le_antisymm hle he)
    simp [floor?, List.filter_append, hpre', hrest', hne, heq]

theorem mem_assign {x : K × V} (hx : x ∈ assign k v l) : x = (k, v) ∨ x ∈ l := by
  induction l with
  | nil => simpa [assign] using hx
  | cons e es ih =>
    by_cases hlt : k < e.1
    · simp only [assign, if_pos hlt, List.mem_cons] at hx
      rcases hx with rfl | hx
      · exact .inl rfl
      · exact .inr (List.mem_cons.mpr hx)
    · by_cases heq : k = e.1
      · simp only [assign, if_neg hlt, if_pos heq, List.mem_cons] at hx
        rcases hx with rfl | hx
        · exact .inl rfl
        · exact .inr (List.mem_cons_of_mem _ hx)
      · simp only [assign, if_neg hlt, if_neg heq, List.mem_cons] at hx
        rcases hx with rfl | hx
        · exact .inr List.mem_cons_self
        · rcases ih hx with rfl | hx
          · exact .inl rfl
          · exact .inr (List.mem_cons_of_mem _ hx)

theorem Sorted.assign (h : Sorted l) : Sorted (assign k v l) := by
  induction l with
  | nil => exact List.pairwise_singleton _ _
  | cons e es ih =>
    obtain ⟨hhead, htail⟩ := List.pairwise_cons.mp h
    by_cases hlt : k < e.1
    · -- a new first entry, below `e` and so below everything after it
      have hall : ∀ x ∈ e :: es, k < x.1 := by
        intro x hx
        rcases List.mem_cons.mp hx with rfl | hx
        · exact hlt
        · exact hlt.trans (hhead x hx)
      rw [OrderedMap.assign, if_pos hlt]
      exact List.pairwise_cons.mpr ⟨hall, h⟩
    · by_cases heq : k = e.1
      · rw [OrderedMap.assign, if_neg hlt, if_pos heq]
        exact List.pairwise_cons.mpr ⟨fun x hx => heq ▸ hhead x hx, htail⟩
      · -- the assignment goes further in, above `e`
        have hgt : e.1 < k := lt_of_le_of_ne (le_of_not_gt hlt) (Ne.symm heq)
        have hall : ∀ x ∈ OrderedMap.assign k v es, e.1 < x.1 := by
          intro x hx
          rcases mem_assign hx with rfl | hx
          · exact hgt
          · exact hhead x hx
        rw [OrderedMap.assign, if_neg hlt, if_neg heq]
        exact List.pairwise_cons.mpr ⟨hall, ih htail⟩

end

end OrderedMap

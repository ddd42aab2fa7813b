import Mathlib.Data.List.Perm.Subperm
import Mathlib.Data.List.Sort

namespace SandboxedApi

namespace Entries

variable {K V α : Type*} [DecidableEq K]

def get? : List (K × V) → K → Option V
  | [], _ => none
  | (k', v) :: rest, k => if k' = k then some v else get? rest k

def set : List (K × V) → K → V → List (K × V)
  | [], k, v => [(k, v)]
  | (k', v') :: rest, k, v => if k' = k then (k, v) :: rest else (k', v') :: set rest k v

theorem get?_nil (k : K) : get? ([] : List (K × V)) k = none := rfl

theorem get?_cons (k' : K) (v : V) (rest : List (K × V)) (k : K) :
    get? ((k', v) :: rest) k = if k' = k then some v else get? rest k := rfl

theorem set_nil (k : K) (v : V) : set ([] : List (K × V)) k v = [(k, v)] := rfl

theorem set_cons (k' : K) (v' : V) (rest : List (K × V)) (k : K) (v : V) :
    set ((k', v') :: rest) k v = if k' = k then (k, v) :: rest else (k', v') :: set rest k v := rfl

section

variable {l : List (K × V)} {k : K} {v c : V}

theorem get?_eq_none_iff : get? l k = none ↔ k ∉ l.map Prod.fst := by
  induction l with
  | nil => simp [get?_nil]
  | cons e rest ih =>
    obtain ⟨k', v'⟩ := e
    by_cases hk : k' = k
    · simp [get?_cons, hk]
    · simp [get?_cons, hk, ih, Ne.symm hk]

theorem mem_of_get?_eq_some (h : get? l k = some v) : (k, v) ∈ l := by
  induction l with
  | nil => cases h
  | cons e rest ih =>
    obtain ⟨k', v'⟩ := e
    simp only [get?_cons] at h
    split_ifs at h with hk
    · cases h
      simp [hk]
    · exact List.mem_cons_of_mem _ (ih h)

theorem set_of_get?_eq_none (h : get? l k = none) : set l k v = l ++ [(k, v)] := by
  induction l with
  | nil => rfl
  | cons e rest ih =>
    obtain ⟨k', v'⟩ := e
    simp only [get?_cons] at h
    split_ifs at h with hk
    simp [set_cons, hk, ih h]

theorem set_of_get?_eq_some (h : get? l k = some v) : set l k v = l := by
  induction l with
  | nil => cases h
  | cons e rest ih =>
    obtain ⟨k', v'⟩ := e
    simp only [get?_cons] at h
    by_cases hk : k' = k
    · simp only [hk, if_true, Option.some.injEq] at h
      simp [set_cons, hk, h]
    · simp [set_cons, hk, ih (by simpa [hk] using h)]

theorem keys_set_of_get?_eq_some (h : get? l k = some c) :
    (set l k v).map Prod.fst = l.map Prod.fst := by
  induction l with
  | nil => cases h
  | cons e rest ih =>
    obtain ⟨k', v'⟩ := e
    simp only [get?_cons] at h
    by_cases hk : k' = k
    · simp [set_cons, hk]
    · simp [set_cons, hk, ih (by simpa [hk] using h)]

theorem mem_set {e : K × V} (h : e ∈ set l k v) : e ∈ l ∨ e = (k, v) := by
  induction l with
  | nil => simpa [set_nil] using h
  | cons e' rest ih =>
    obtain ⟨k', v'⟩ := e'
    simp only [set_cons] at h
    split_ifs at h with hk
    · rcases List.mem_cons.mp h with rfl | h
      · exact .inr rfl
      · exact .inl (List.mem_cons_of_mem _ h)
    · rcases List.mem_cons.mp h with rfl | h
      · exact .inl List.mem_cons_self
      · exact (ih h).imp_left (List.mem_cons_of_mem _)

theorem flatMap_set_perm (g : K × V → List α) (h : get? l k = some c) :
    ((set l k v).flatMap g ++ g (k, c)).Perm (l.flatMap g ++ g (k, v)) := by
  induction l with
  | nil => cases h
  | cons e rest ih =>
    obtain ⟨k', v'⟩ := e
    simp only [get?_cons] at h
    by_cases hk : k' = k
    · -- the first entry with the key is the one replaced
      subst hk
      obtain rfl : v' = c := Option.some.inj (by simpa using h)
      simp only [set_cons, if_true, List.flatMap_cons, List.append_assoc]
      calc List.Perm (g (k', v) ++ (rest.flatMap g ++ g (k', v')))
              (g (k', v) ++ (g (k', v') ++ rest.flatMap g)) := List.perm_append_comm.append_left _
        List.Perm _ (g (k', v') ++ (g (k', v) ++ rest.flatMap g)) :=
          List.perm_append_comm_assoc _ _ _
        List.Perm _ (g (k', v') ++ (rest.flatMap g ++ g (k', v))) :=
          List.perm_append_comm.append_left _
    · simp only [set_cons, hk, if_false, List.flatMap_cons, List.append_assoc]
      exact (ih (by simpa [hk] using h)).append_left _

theorem get?_of_mem (hnd : (l.map Prod.fst).Nodup) (h : (k, v) ∈ l) : get? l k = some v := by
  induction l with
  | nil => cases h
  | cons e rest ih =>
    obtain ⟨k', v'⟩ := e
    simp only [List.map_cons, List.nodup_cons, List.mem_map] at hnd
    rcases List.mem_cons.mp h with heq | hrest
    · obtain ⟨rfl, rfl⟩ := Prod.mk.inj heq
      simp [get?_cons]
    · have hk : k' ≠ k := by
        rintro rfl
        exact hnd.1 ⟨(k', v), hrest, rfl⟩
      rw [get?_cons, if_neg hk]
      exact ih hnd.2 hrest

theorem perm_map_snd_iff {W : Type*} {l₁ l₂ : List (K × V)} (f : V → W)
    (h₁ : (l₁.map Prod.fst).Nodup) (h₂ : (l₂.map Prod.fst).Nodup) :
    (l₁.map fun e => (e.1, f e.2)).Perm (l₂.map fun e => (e.1, f e.2)) ↔
      l₁.length = l₂.length ∧ ∀ e ∈ l₁, ∃ c, get? l₂ e.1 = some c ∧ f e.2 = f c := by
  constructor
  · intro hp
    refine ⟨by simpa using hp.length_eq, fun e he => ?_⟩
    have hm : (e.1, f e.2) ∈ l₂.map fun e => (e.1, f e.2) :=
      hp.subset (List.mem_map_of_mem he)
    obtain ⟨⟨k, c⟩, hc, heq⟩ := List.mem_map.mp hm
    obtain ⟨rfl, hf⟩ := Prod.mk.inj heq
    exact ⟨c, get?_of_mem h₂ hc, hf.symm⟩
  · rintro ⟨hlen, hall⟩
    have hnd : (l₁.map fun e => (e.1, f e.2)).Nodup := by
      refine List.Nodup.of_map Prod.fst ?_
      have hfst : (Prod.fst ∘ fun e : K × V => (e.1, f e.2)) = Prod.fst := rfl
      rw [List.map_map, hfst]
      exact h₁
    have hsub : (l₁.map fun e => (e.1, f e.2)) ⊆ l₂.map fun e => (e.1, f e.2) := by
      intro x hx
      obtain ⟨e, he, rfl⟩ := List.mem_map.mp hx
      obtain ⟨c, hc, hf⟩ := hall e he
      exact List.mem_map.mpr ⟨(e.1, c), mem_of_get?_eq_some hc, by rw [hf]⟩
    exact (hnd.subperm hsub).perm_of_length_le (by simp [hlen])

end

end Entries

namespace Entries

theorem map_fst_map_snd {K V W : Type*} (l : List (K × V)) (f : V → W) :
    (l.map fun e => (e.1, f e.2)).map Prod.fst = l.map Prod.fst := by
  rw [List.map_map]
  rfl

variable {K V : Type*} [LinearOrder K]

def sortByKey (l : List (K × V)) : List (K × V) :=
  l.insertionSort fun a b => a.1 ≤ b.1

theorem perm_sortByKey (l : List (K × V)) : (sortByKey l).Perm l :=
  List.perm_insertionSort _ l

theorem pairwise_sortByKey (l : List (K × V)) : (sortByKey l).Pairwise fun a b => a.1 ≤ b.1 :=
  @List.pairwise_insertionSort _ (fun a b : K × V => a.1 ≤ b.1) _
    ⟨fun a b => le_total a.1 b.1⟩ ⟨fun _ _ _ => le_trans⟩ l

theorem sortByKey_eq_iff {l₁ l₂ : List (K × V)} (hnd : (l₁.map Prod.fst).Nodup) :
    sortByKey l₁ = sortByKey l₂ ↔ l₁.Perm l₂ := by
  constructor
  · intro h
    exact (perm_sortByKey l₁).symm.trans (h ▸ perm_sortByKey l₂)
  · intro hp
    have hp' : (sortByKey l₁).Perm (sortByKey l₂) :=
      (perm_sortByKey l₁).trans (hp.trans (perm_sortByKey l₂).symm)
    refine hp'.eq_of_pairwise ?_ (pairwise_sortByKey l₁) (pairwise_sortByKey l₂)
    intro a b ha hb hab hba
    have hk : a.1 = b.1 := le_antisymm hab hba
    have ha' : a ∈ l₁ := (perm_sortByKey l₁).subset ha
    have hb' : b ∈ l₁ := hp.symm.subset ((perm_sortByKey l₂).subset hb)
    exact List.inj_on_of_nodup_map hnd ha' hb' hk

end Entries

end SandboxedApi

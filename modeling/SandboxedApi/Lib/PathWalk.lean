import Mathlib.Data.List.Basic
import Mathlib.Data.List.Induction

namespace PathWalk

variable {α : Type}

inductive Step (α : Type) where
  | down (a : α)
  | up
  | stay
  deriving DecidableEq, Repr

structure Place (α : Type) where
  ups : Nat
  downs : List α
  deriving DecidableEq, Repr

namespace Place

def start : Place α := ⟨0, []⟩

def step (p : Place α) : Step α → Place α
  | .down a => ⟨p.ups, p.downs ++ [a]⟩
  | .up => if p.downs.isEmpty then ⟨p.ups + 1, []⟩ else ⟨p.ups, p.downs.dropLast⟩
  | .stay => p

def steps (p : Place α) : List (Step α) := List.replicate p.ups .up ++ p.downs.map .down

end Place

def walk (p : Place α) (steps : List (Step α)) : Place α := steps.foldl Place.step p

def rootStep (downs : List α) : Step α → List α
  | .down a => downs ++ [a]
  | .up => downs.dropLast
  | .stay => downs

def rootWalk (downs : List α) (steps : List (Step α)) : List α := steps.foldl rootStep downs

@[simp]
theorem walk_nil (p : Place α) : walk p [] = p := rfl

@[simp]
theorem walk_cons (p : Place α) (s : Step α) (steps : List (Step α)) :
    walk p (s :: steps) = walk (p.step s) steps := rfl

@[simp]
theorem walk_append (p : Place α) (xs ys : List (Step α)) :
    walk p (xs ++ ys) = walk (walk p xs) ys :=
  List.foldl_append

theorem walk_concat (p : Place α) (xs : List (Step α)) (s : Step α) :
    walk p (xs ++ [s]) = (walk p xs).step s := by
  simp [walk]

theorem steps_start : (Place.start : Place α).steps = [] := rfl

theorem walk_replicate_up (u n : Nat) :
    walk (⟨u, []⟩ : Place α) (List.replicate n .up) = ⟨u + n, []⟩ := by
  induction n generalizing u with
  | zero => rfl
  | succ n ih =>
    have hstep : (⟨u, []⟩ : Place α).step .up = ⟨u + 1, []⟩ := rfl
    rw [List.replicate_succ, walk_cons, hstep, ih]
    congr 1
    omega

theorem walk_map_down (p : Place α) (ds : List α) :
    walk p (ds.map .down) = ⟨p.ups, p.downs ++ ds⟩ := by
  induction ds generalizing p with
  | nil => simp
  | cons d ds ih =>
    rw [List.map_cons, ← List.singleton_append, walk_append, ih]
    simp [walk, Place.step]

theorem walk_steps (p : Place α) : walk Place.start p.steps = p := by
  rw [Place.steps, walk_append, Place.start, walk_replicate_up, walk_map_down]
  simp

theorem step_walk_steps (p q : Place α) (s : Step α) :
    (walk p q.steps).step s = walk p (q.step s).steps := by
  rw [← walk_concat]
  cases s with
  | down a =>
    simp [Place.steps, Place.step]
  | up =>
    cases hq : q.downs using List.reverseRecOn with
    | nil =>
      simp [Place.steps, Place.step, hq, List.replicate_succ']
    | append_singleton ds d =>
      have hstep : q.step .up = ⟨q.ups, ds⟩ := by simp [Place.step, hq]
      have hsteps : q.steps = (⟨q.ups, ds⟩ : Place α).steps ++ [.down d] := by
        simp [Place.steps, hq]
      rw [hstep, hsteps, List.append_assoc, walk_append]
      simp [Place.step]
  | stay =>
    simp [walk, Place.step]

theorem walk_eq_walk_steps (p : Place α) (steps : List (Step α)) :
    walk p steps = walk p (walk Place.start steps).steps := by
  induction steps using List.reverseRecOn with
  | nil => rfl
  | append_singleton steps s ih =>
    rw [walk_concat, walk_concat, ih, step_walk_steps]

theorem rootWalk_eq_downs (u : Nat) (downs : List α) (steps : List (Step α)) :
    rootWalk downs steps = (walk ⟨u, downs⟩ steps).downs := by
  induction steps generalizing u downs with
  | nil => rfl
  | cons s steps ih =>
    have hstep : ∃ u', Place.step ⟨u, downs⟩ s = ⟨u', rootStep downs s⟩ := by
      cases s with
      | down a => exact ⟨u, rfl⟩
      | up =>
        cases downs with
        | nil => exact ⟨u + 1, rfl⟩
        | cons d ds => exact ⟨u, rfl⟩
      | stay => exact ⟨u, rfl⟩
    obtain ⟨u', hu'⟩ := hstep
    change rootWalk (rootStep downs s) steps = (walk (Place.step ⟨u, downs⟩ s) steps).downs
    rw [hu', ih u']

theorem rootWalk_nil (steps : List (Step α)) :
    rootWalk [] steps = (walk Place.start steps).downs :=
  rootWalk_eq_downs 0 [] steps

end PathWalk

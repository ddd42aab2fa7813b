import SandboxedApi.Mounts.WellFormed

namespace SandboxedApi

namespace MountTree

variable (stat : List Char → Option (UInt64 × UInt64)) (path : List Char) (newNode : Node)

theorem setEntry_of_get? {tree child : MountTree} {key : List Char}
    (h : Entries.get? tree.entries key = some child) : tree.setEntry key child = tree := by
  rw [MountTree.setEntry, Entries.set_of_get?_eq_some h]
  cases tree
  rfl

theorem insertNode_fresh (index : Nat) : (insertNode stat path newNode (fresh index)).2 = .ok () := by
  unfold insertNode
  simp [fresh]

theorem insertWalk_fresh : ∀ (parts : List (List Char)) (index mountIndex : Nat),
    (insertWalk stat path newNode parts (fresh index) mountIndex).2.2 = .ok ()
  | [], _, _ => by simp [insertWalk]
  | [part], index, mountIndex => by
    have hnew : emplace (fresh index) part mountIndex = (fresh (mountIndex + 1), mountIndex + 1) :=
      rfl
    simp only [insertWalk, hnew]
    exact insertNode_fresh stat path newNode (mountIndex + 1)
  | part :: next :: rest, index, mountIndex => by
    have hnew : emplace (fresh index) part mountIndex = (fresh (mountIndex + 1), mountIndex + 1) :=
      rfl
    rcases hr : insertWalk stat path newNode (next :: rest) (fresh (mountIndex + 1))
      (mountIndex + 1) with ⟨child, idx, status⟩
    have hok := insertWalk_fresh (next :: rest) (mountIndex + 1) (mountIndex + 1)
    rw [hr] at hok
    simp only [insertWalk, hnew, hr]
    simpa [fresh] using hok

theorem insertNode_error {tree : MountTree} {status : Status}
    (h : (insertNode stat path newNode tree).2 = .error status) :
    (insertNode stat path newNode tree).1 = tree := by
  unfold insertNode at h ⊢
  split
  · split_ifs <;> simp_all
  · split_ifs <;> simp_all

theorem insertWalk_error {status : Status} :
    ∀ {parts : List (List Char)} {tree tree' : MountTree} {mountIndex idx : Nat},
      insertWalk stat path newNode parts tree mountIndex = (tree', idx, .error status) →
        tree' = tree ∧ idx = mountIndex
  | [], _, _, _, _, h => by simp [insertWalk] at h
  | [part], tree, tree', mountIndex, idx, h => by
    rcases he : emplace tree part mountIndex with ⟨child, idx₁⟩
    simp only [insertWalk, he, Prod.mk.injEq] at h
    obtain ⟨rfl, rfl, hstatus⟩ := h
    rcases MountTree.emplace_cases he with ⟨hget, rfl⟩ | ⟨-, rfl, -⟩
    · rw [insertNode_error stat path newNode hstatus, setEntry_of_get? hget]
      exact ⟨rfl, rfl⟩
    · simp [insertNode_fresh] at hstatus
  | part :: next :: rest, tree, tree', mountIndex, idx, h => by
    rcases he : emplace tree part mountIndex with ⟨child, idx₁⟩
    simp only [insertWalk, he] at h
    split at h
    · -- a file is mounted at the entry: it was there
      rename_i hfile
      simp only [Prod.mk.injEq] at h
      obtain ⟨rfl, rfl, -⟩ := h
      rcases MountTree.emplace_cases he with ⟨hget, rfl⟩ | ⟨-, rfl, -⟩
      · exact ⟨setEntry_of_get? hget, rfl⟩
      · simp [fresh] at hfile
    · rcases hr : insertWalk stat path newNode (next :: rest) child idx₁ with
        ⟨child', idx₂, status'⟩
      simp only [hr, Prod.mk.injEq] at h
      obtain ⟨rfl, rfl, rfl⟩ := h
      obtain ⟨rfl, rfl⟩ := insertWalk_error hr
      rcases MountTree.emplace_cases he with ⟨hget, rfl⟩ | ⟨-, rfl, rfl⟩
      · exact ⟨setEntry_of_get? hget, rfl⟩
      · have hok := insertWalk_fresh stat path newNode (next :: rest) (mountIndex + 1)
          (mountIndex + 1)
        rw [hr] at hok
        cases hok

end MountTree

namespace Mounts

open MountTree

variable (stat : List Char → Option (UInt64 × UInt64))

theorem insert_error {m m' : Mounts} {path : List Char} {newNode : Node} {status : Status}
    (h : m.insert stat path newNode = (m', .error status)) : m' = m := by
  rcases insert_cases (m := m) stat path newNode with ⟨status', heq⟩ |
    ⟨-, -, -, -, tree, idx, status', hwalk, heq⟩
  · rw [heq] at h
    exact (Prod.mk.inj h).1.symm
  · rw [heq, Prod.mk.injEq] at h
    obtain ⟨rfl, rfl⟩ := h
    obtain ⟨rfl, rfl⟩ := insertWalk_error stat path newNode hwalk
    rfl

theorem remove_error {m m' : Mounts} {path : List Char} {status : Status}
    (h : m.remove path = (m', .error status)) : m' = m := by
  rcases remove_cases (m := m) path with ⟨status', heq⟩ | ⟨-, -, -, tree, -, heq⟩
  · rw [heq] at h
    exact (Prod.mk.inj h).1.symm
  · rw [heq] at h
    cases h

/-- Failed mount operations are atomic: an `Insert`, of any node, or a `Remove` that returns an
error leaves `mount_specs_` and `mount_index_` as they were, from any state. -/
theorem insert_remove_error_unchanged (m : Mounts) :
    (∀ path newNode status, (m.insert stat path newNode).2 = .error status →
      (m.insert stat path newNode).1 = m) ∧
    (∀ path status, (m.remove path).2 = .error status → (m.remove path).1 = m) := by
  refine ⟨fun path newNode status h => ?_, fun path status h => ?_⟩
  · exact insert_error stat
      (show m.insert stat path newNode = ((m.insert stat path newNode).1, .error status) by rw [← h])
  · exact remove_error (show m.remove path = ((m.remove path).1, .error status) by rw [← h])

end Mounts

end SandboxedApi

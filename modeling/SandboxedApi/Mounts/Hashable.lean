import SandboxedApi.Mounts.Tree
import Mathlib.Data.List.Lex
import Mathlib.Data.Char

namespace SandboxedApi

namespace MountTree

/-- `MountNodeEquals` on `node()`: an unset node reads as the default `Node`, of the case
`NODE_NOT_SET`. -/
def nodeEquals : Option Node → Option Node → Bool
  | some (.fileNode outside₁ writable₁), some (.fileNode outside₂ writable₂) =>
    outside₁ == outside₂ && writable₁ == writable₂
  | some (.dirNode outside₁ writable₁ propagation₁), some (.dirNode outside₂ writable₂ propagation₂) =>
    outside₁ == outside₂ && writable₁ == writable₂ && propagation₁ == propagation₂
  | some (.rootNode writable₁), some (.rootNode writable₂) => writable₁ == writable₂
  | some (.tmpfsNode options₁), some (.tmpfsNode options₂) => options₁ == options₂
  | none, none => true
  | _, _ => false

mutual

/-- `MountTreeEquals`: the index, `ignore_non_existing` and the node, then as many entries, each
key of the first tree found in the second with an equal subtree. -/
def treeEquals : MountTree → MountTree → Bool
  | ⟨entries1, node1, index1, ignoreNonExisting1⟩, tree2 =>
    index1 == tree2.index && ignoreNonExisting1 == tree2.ignoreNonExisting &&
      nodeEquals node1 tree2.node && entries1.length == tree2.entries.length &&
      entriesEqual entries1 tree2.entries

def entriesEqual : List (List Char × MountTree) → List (List Char × MountTree) → Bool
  | [], _ => true
  | (key, value) :: rest, entries2 =>
    (match Entries.get? entries2 key with
      | none => false
      | some other => treeEquals value other) && entriesEqual rest entries2

end

end MountTree

inductive HashInput
  | int (n : Nat)
  | bool (b : Bool)
  | string (s : List Char)
  | nodeCase (c : Nat)
  deriving DecidableEq

namespace MountTree

/-- `node_case()`: the field number of the node's case, `0` for `NODE_NOT_SET`. -/
def nodeCase : Option Node → Nat
  | some (.fileNode _ _) => 1
  | some (.dirNode _ _ _) => 2
  | some (.tmpfsNode _) => 3
  | some (.rootNode _) => 4
  | none => 0

/-- `MountNodeHash`. -/
def nodeHash (node : Option Node) : List HashInput :=
  .nodeCase (nodeCase node) ::
    match node with
    | some (.fileNode outside writable) => [.string outside, .bool writable]
    | some (.dirNode outside writable allowMountPropagation) =>
      [.string outside, .bool writable, .bool allowMountPropagation]
    | some (.rootNode writable) => [.bool writable]
    | some (.tmpfsNode tmpfsOptions) => [.string tmpfsOptions]
    | none => []

/-- `MountTreeHash`: the index, `ignore_non_existing` and the node, then each key in sorted order
followed by its subtree. -/
def treeHash (tree : MountTree) : List HashInput :=
  [.int tree.index, .bool tree.ignoreNonExisting] ++ nodeHash tree.node ++
    ((tree.entries.map Prod.fst).insertionSort (· ≤ ·)).flatMap fun key =>
      .string key ::
        match _h : Entries.get? tree.entries key with
        | some sub => treeHash sub
        | none => []
termination_by tree
decreasing_by exact sizeOf_lt_of_mem (Entries.mem_of_get?_eq_some _h)

end MountTree

/-- `HashableMountSpecs::operator==`, `MountSpecsEquals`. -/
def MountSpecs.equals (specs1 specs2 : MountSpecs) : Bool :=
  specs1.allowMountPropagation == specs2.allowMountPropagation &&
    specs1.allowWriteExecutable == specs2.allowWriteExecutable &&
    MountTree.treeEquals specs1.mountTree specs2.mountTree

/-- `AbslHashValue(h, HashableMountSpecs)`. -/
def MountSpecs.hashInputs (specs : MountSpecs) : List HashInput :=
  [.bool specs.allowMountPropagation, .bool specs.allowWriteExecutable] ++
    MountTree.treeHash specs.mountTree

namespace MountTree

inductive ProtoOk : MountTree → Prop
  | mk {tree : MountTree} : (tree.entries.map Prod.fst).Nodup →
      (∀ e ∈ tree.entries, ProtoOk e.2) → ProtoOk tree

def canon (tree : MountTree) : MountTree :=
  ⟨Entries.sortByKey (tree.entries.attach.map fun ⟨(key, value), _⟩ => (key, canon value)),
    tree.node, tree.index, tree.ignoreNonExisting⟩
termination_by tree
decreasing_by exact sizeOf_lt_of_mem ‹_›

theorem nodeEquals_iff (node1 node2 : Option Node) : nodeEquals node1 node2 = true ↔ node1 = node2 := by
  rcases node1 with _ | ⟨_ | _ | _ | _⟩ <;> rcases node2 with _ | ⟨_ | _ | _ | _⟩ <;>
    simp [nodeEquals, and_assoc]

theorem entriesEqual_eq_true_iff (entries1 entries2 : List (List Char × MountTree)) :
    entriesEqual entries1 entries2 = true ↔
      ∀ e ∈ entries1, ∃ other, Entries.get? entries2 e.1 = some other ∧ treeEquals e.2 other = true := by
  induction entries1 with
  | nil => simp [entriesEqual]
  | cons e rest ih =>
    obtain ⟨key, value⟩ := e
    rw [entriesEqual, Bool.and_eq_true, ih, List.forall_mem_cons]
    refine and_congr_left fun _ => ?_
    cases Entries.get? entries2 key with
    | none => simp
    | some other => simp

theorem treeEquals_eq_true_iff (tree1 tree2 : MountTree) :
    treeEquals tree1 tree2 = true ↔
      tree1.index = tree2.index ∧ tree1.ignoreNonExisting = tree2.ignoreNonExisting ∧
        tree1.node = tree2.node ∧ tree1.entries.length = tree2.entries.length ∧
        ∀ e ∈ tree1.entries, ∃ other, Entries.get? tree2.entries e.1 = some other ∧
          treeEquals e.2 other = true := by
  obtain ⟨entries1, node1, index1, ignoreNonExisting1⟩ := tree1
  rw [treeEquals]
  simp only [Bool.and_eq_true, beq_iff_eq, nodeEquals_iff, entriesEqual_eq_true_iff, and_assoc]

theorem canon_eq (tree : MountTree) :
    canon tree = ⟨Entries.sortByKey (tree.entries.map fun e => (e.1, canon e.2)), tree.node,
      tree.index, tree.ignoreNonExisting⟩ := by
  rw [canon, List.map_subtype (g := fun e => (e.1, canon e.2)) (fun _ _ => rfl),
    List.unattach_attach]

theorem ProtoOk.nodup {tree : MountTree} (h : tree.ProtoOk) : (tree.entries.map Prod.fst).Nodup := by
  cases h with
  | mk hnd _ => exact hnd

theorem ProtoOk.entry {tree : MountTree} (h : tree.ProtoOk) {e : List Char × MountTree}
    (he : e ∈ tree.entries) : e.2.ProtoOk := by
  cases h with
  | mk _ hall => exact hall e he

theorem treeEquals_iff {tree1 tree2 : MountTree} (h1 : tree1.ProtoOk) (h2 : tree2.ProtoOk) :
    treeEquals tree1 tree2 = true ↔ canon tree1 = canon tree2 := by
  induction h1 generalizing tree2 with
  | @mk tree1 hnd _ ih =>
    have hnd2 := h2.nodup
    rw [treeEquals_eq_true_iff, canon_eq, canon_eq, MountTree.mk.injEq,
      Entries.sortByKey_eq_iff (by rw [Entries.map_fst_map_snd]; exact hnd),
      Entries.perm_map_snd_iff canon hnd hnd2]
    have hsub : ∀ e ∈ tree1.entries, ∀ other, Entries.get? tree2.entries e.1 = some other →
        (treeEquals e.2 other = true ↔ canon e.2 = canon other) := fun e he other hget =>
      ih e he (h2.entry (Entries.mem_of_get?_eq_some hget))
    constructor
    · rintro ⟨hi, hg, hn, hl, hall⟩
      refine ⟨⟨hl, fun e he => ?_⟩, hn, hi, hg⟩
      obtain ⟨other, hget, heq⟩ := hall e he
      exact ⟨other, hget, (hsub e he other hget).mp heq⟩
    · rintro ⟨⟨hl, hall⟩, hn, hi, hg⟩
      refine ⟨hi, hg, hn, hl, fun e he => ?_⟩
      obtain ⟨other, hget, heq⟩ := hall e he
      exact ⟨other, hget, (hsub e he other hget).mpr heq⟩

theorem treeEquals_comm {tree1 tree2 : MountTree} (h1 : tree1.ProtoOk) (h2 : tree2.ProtoOk) :
    treeEquals tree1 tree2 = treeEquals tree2 tree1 :=
  Bool.eq_iff_iff.mpr ((treeEquals_iff h1 h2).trans (eq_comm.trans (treeEquals_iff h2 h1).symm))

theorem treeHash_eq (tree : MountTree) :
    treeHash tree = [.int tree.index, .bool tree.ignoreNonExisting] ++ nodeHash tree.node ++
      ((tree.entries.map Prod.fst).insertionSort (· ≤ ·)).flatMap fun key =>
        .string key :: ((Entries.get? tree.entries key).map treeHash).getD [] := by
  rw [treeHash]
  congr 1
  refine List.flatMap_congr fun key _ => ?_
  split <;> simp_all

theorem keys_perm_of_treeEquals {tree1 tree2 : MountTree} (h1 : tree1.ProtoOk) (h2 : tree2.ProtoOk)
    (h : treeEquals tree1 tree2 = true) :
    (tree1.entries.map Prod.fst).Perm (tree2.entries.map Prod.fst) := by
  obtain ⟨-, -, -, hl, hall⟩ := (treeEquals_eq_true_iff tree1 tree2).mp h
  have hp := (Entries.perm_map_snd_iff (fun _ => ()) h1.nodup h2.nodup).mpr
    ⟨hl, fun e he => (hall e he).imp fun _ h => ⟨h.1, rfl⟩⟩
  simpa [List.map_map, Function.comp_def] using hp.map Prod.fst

theorem treeHash_eq_of_treeEquals {tree1 tree2 : MountTree} (h1 : tree1.ProtoOk) (h2 : tree2.ProtoOk)
    (h : treeEquals tree1 tree2 = true) : treeHash tree1 = treeHash tree2 := by
  induction h1 generalizing tree2 with
  | @mk tree1 hnd hok ih =>
    have h1 : tree1.ProtoOk := .mk hnd hok
    obtain ⟨hi, hg, hn, -, hall⟩ := (treeEquals_eq_true_iff tree1 tree2).mp h
    have hkeys := keys_perm_of_treeEquals h1 h2 h
    have hsorted : (tree1.entries.map Prod.fst).insertionSort (· ≤ ·) =
        (tree2.entries.map Prod.fst).insertionSort (· ≤ ·) :=
      List.Perm.eq_of_sortedLE List.sortedLE_insertionSort List.sortedLE_insertionSort
        ((List.perm_insertionSort _ _).trans (hkeys.trans (List.perm_insertionSort _ _).symm))
    rw [treeHash_eq, treeHash_eq, hi, hg, hn, ← hsorted]
    congr 1
    refine List.flatMap_congr fun key hkey => ?_
    obtain ⟨e, he, rfl⟩ := List.mem_map.mp ((List.perm_insertionSort _ _).subset hkey)
    obtain ⟨other, hget, heq⟩ := hall e he
    rw [Entries.get?_of_mem hnd he, hget, Option.map_some, Option.map_some, Option.getD_some,
      Option.getD_some, ih e he (h2.entry (Entries.mem_of_get?_eq_some hget)) heq]

end MountTree

namespace MountSpecs

def ProtoOk (specs : MountSpecs) : Prop := specs.mountTree.ProtoOk

variable {specs1 specs2 specs3 : MountSpecs}

theorem equals_iff (h1 : specs1.ProtoOk) (h2 : specs2.ProtoOk) :
    specs1.equals specs2 = true ↔
      specs1.allowMountPropagation = specs2.allowMountPropagation ∧
        specs1.allowWriteExecutable = specs2.allowWriteExecutable ∧
        specs1.mountTree.canon = specs2.mountTree.canon := by
  simp only [equals, Bool.and_eq_true, beq_iff_eq, MountTree.treeEquals_iff h1 h2, and_assoc]

theorem equals_comm (h1 : specs1.ProtoOk) (h2 : specs2.ProtoOk) :
    specs1.equals specs2 = specs2.equals specs1 := by
  simp only [equals, MountTree.treeEquals_comm h1 h2, Bool.beq_comm]

theorem equals_trans (h1 : specs1.ProtoOk) (h2 : specs2.ProtoOk) (h3 : specs3.ProtoOk)
    (h12 : specs1.equals specs2 = true) (h23 : specs2.equals specs3 = true) :
    specs1.equals specs3 = true := by
  obtain ⟨ha, hw, hc⟩ := (equals_iff h1 h2).mp h12
  obtain ⟨ha', hw', hc'⟩ := (equals_iff h2 h3).mp h23
  exact (equals_iff h1 h3).mpr ⟨ha.trans ha', hw.trans hw', hc.trans hc'⟩

theorem hashInputs_eq_of_equals (h1 : specs1.ProtoOk) (h2 : specs2.ProtoOk)
    (h : specs1.equals specs2 = true) : specs1.hashInputs = specs2.hashInputs := by
  simp only [equals, Bool.and_eq_true, beq_iff_eq] at h
  obtain ⟨⟨ha, hw⟩, ht⟩ := h
  rw [hashInputs, hashInputs, ha, hw, MountTree.treeHash_eq_of_treeEquals h1 h2 ht]

end MountSpecs

end SandboxedApi

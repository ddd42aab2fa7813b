import SandboxedApi.Mounts.Tree
import SandboxedApi.Lib.ParentFirst

namespace SandboxedApi

namespace MountTree

def ValidEntryKey (key : List Char) : Prop :=
  IsPathComponent key ∧ '\x00' ∉ key

def Node.OutsideOk : Node → Prop
  | .fileNode outside _ | .dirNode outside _ _ => outside ≠ [] ∧ '\x00' ∉ outside
  | .tmpfsNode _ | .rootNode _ => True

structure LocalOk (tree : MountTree) : Prop where
  keys_nodup : (tree.entries.map Prod.fst).Nodup
  keys_valid : ∀ key ∈ tree.entries.map Prod.fst, ValidEntryKey key
  file_leaf : tree.node.any Node.isFileNode = true → tree.entries = []
  outside_ok : ∀ node ∈ tree.node, node.OutsideOk

def subtrees (tree : MountTree) : List MountTree :=
  tree :: tree.descendants

theorem subtrees_def (tree : MountTree) : tree.subtrees = tree :: tree.descendants := rfl

def TreeOk (tree : MountTree) : Prop :=
  ∀ s ∈ tree.subtrees, s.LocalOk

section

variable {tree child c : MountTree} {key : List Char} {e : List Char × MountTree}

@[simp] theorem setEntry_node : (tree.setEntry key child).node = tree.node := rfl

@[simp] theorem setEntry_index : (tree.setEntry key child).index = tree.index := rfl

@[simp] theorem descendants_fresh (index : Nat) : (fresh index).descendants = [] := by
  rw [descendants_eq]
  rfl

@[simp] theorem indices_fresh (index : Nat) : (fresh index).indices = [] := by
  simp [indices_def]

theorem descendants_of_entries {t₁ t₂ : MountTree} (h : t₁.entries = t₂.entries) :
    t₁.descendants = t₂.descendants := by
  rw [descendants_eq, descendants_eq, h]

theorem indices_eq (tree : MountTree) :
    tree.indices = tree.entries.flatMap fun e => e.2.index :: e.2.indices := by
  rw [indices_def, descendants_eq, List.map_flatMap]
  rfl

theorem subtrees_subset_descendants (h : e ∈ tree.entries) : e.2.subtrees ⊆ tree.descendants := by
  intro s hs
  rw [descendants_eq]
  exact List.mem_flatMap.mpr ⟨e, h, hs⟩

theorem TreeOk.localOk (h : tree.TreeOk) : tree.LocalOk :=
  h tree List.mem_cons_self

theorem TreeOk.entry (h : tree.TreeOk) (he : e ∈ tree.entries) : e.2.TreeOk :=
  fun s hs => h s (List.mem_cons_of_mem _ (subtrees_subset_descendants he hs))

theorem mem_descendants_setEntry {s : MountTree} (h : s ∈ (tree.setEntry key child).descendants) :
    s ∈ tree.descendants ∨ s ∈ child.subtrees := by
  rw [descendants_eq] at h
  obtain ⟨e, he, hs⟩ := List.mem_flatMap.mp h
  rcases Entries.mem_set he with he | rfl
  · exact .inl (subtrees_subset_descendants he hs)
  · exact .inr hs

theorem TreeOk.setEntry (h : tree.TreeOk) (hc : child.TreeOk)
    (hl : (tree.setEntry key child).LocalOk) : (tree.setEntry key child).TreeOk := by
  intro s hs
  rcases List.mem_cons.mp hs with rfl | hs
  · exact hl
  · rcases mem_descendants_setEntry hs with hs | hs
    · exact h s (List.mem_cons_of_mem _ hs)
    · exact hc s hs

theorem TreeOk.setNode (h : tree.TreeOk) {node : Option Node}
    (hl : ({ tree with node := node } : MountTree).LocalOk) :
    ({ tree with node := node } : MountTree).TreeOk := by
  intro s hs
  rcases List.mem_cons.mp hs with rfl | hs
  · exact hl
  · have hd : ({ tree with node := node } : MountTree).descendants = tree.descendants :=
      descendants_of_entries rfl
    rw [hd] at hs
    exact h s (List.mem_cons_of_mem _ hs)

theorem LocalOk.setEntry (h : tree.LocalOk) (hkey : ValidEntryKey key)
    (hfile : tree.node.any Node.isFileNode = false) : (tree.setEntry key child).LocalOk := by
  have hkeys : ((tree.setEntry key child).entries.map Prod.fst).Nodup ∧
      ∀ k ∈ (tree.setEntry key child).entries.map Prod.fst, ValidEntryKey k := by
    cases hget : Entries.get? tree.entries key with
    | none =>
      have hnew := Entries.get?_eq_none_iff.mp hget
      simp only [MountTree.setEntry, Entries.set_of_get?_eq_none hget, List.map_append,
        List.map_singleton]
      refine ⟨List.nodup_append.mpr ⟨h.keys_nodup, List.nodup_singleton _, ?_⟩, ?_⟩
      · intro a ha b hb
        obtain rfl := List.mem_singleton.mp hb
        exact fun hab => hnew (hab ▸ ha)
      · intro k hk
        rcases List.mem_append.mp hk with hk | hk
        · exact h.keys_valid k hk
        · obtain rfl := List.mem_singleton.mp hk
          exact hkey
    | some c =>
      simp only [MountTree.setEntry, Entries.keys_set_of_get?_eq_some hget]
      exact ⟨h.keys_nodup, h.keys_valid⟩
  exact ⟨hkeys.1, hkeys.2, by simp [hfile], h.outside_ok⟩

theorem indices_setEntry_perm (child : MountTree) (h : Entries.get? tree.entries key = some c) :
    ((tree.setEntry key child).indices ++ (c.index :: c.indices)).Perm
      (tree.indices ++ (child.index :: child.indices)) := by
  rw [indices_eq, indices_eq tree]
  exact Entries.flatMap_set_perm (fun e => e.2.index :: e.2.indices) h

theorem indices_setEntry_of_none (h : Entries.get? tree.entries key = none) :
    (tree.setEntry key child).indices = tree.indices ++ (child.index :: child.indices) := by
  rw [indices_eq, indices_eq tree, MountTree.setEntry, Entries.set_of_get?_eq_none h,
    List.flatMap_append, List.flatMap_singleton]

theorem indices_sublist_of_mem_subtrees :
    ∀ {tree s : MountTree}, s ∈ tree.subtrees → s.indices.Sublist tree.indices
  | tree, s, hs => by
    rcases List.mem_cons.mp hs with rfl | hs
    · exact List.Sublist.refl _
    · rw [descendants_eq] at hs
      obtain ⟨e, he, hs'⟩ := List.mem_flatMap.mp hs
      have := sizeOf_lt_of_mem he
      have hblock : (e.2.index :: e.2.indices).Sublist tree.indices := by
        rw [indices_eq tree, List.flatMap_def]
        exact List.sublist_flatten_of_mem
          (List.mem_map_of_mem (f := fun e : List Char × MountTree => e.2.index :: e.2.indices) he)
      exact (indices_sublist_of_mem_subtrees hs').trans ((List.sublist_cons_self _ _).trans hblock)
termination_by tree => sizeOf tree

end

theorem emplace_cases {idx idx' : Nat} {tree child : MountTree} {key : List Char}
    (h : emplace tree key idx = (child, idx')) :
    (Entries.get? tree.entries key = some child ∧ idx' = idx) ∨
      (Entries.get? tree.entries key = none ∧ child = fresh (idx + 1) ∧ idx' = idx + 1) := by
  unfold emplace at h
  split at h
  · cases h
    exact .inl ⟨‹_›, rfl⟩
  · cases h
    exact .inr ⟨‹_›, rfl, rfl⟩

theorem emplace_le {idx idx' : Nat} {tree child : MountTree} {key : List Char}
    (h : emplace tree key idx = (child, idx')) : idx ≤ idx' := by
  rcases emplace_cases h with ⟨-, rfl⟩ | ⟨-, -, rfl⟩ <;> omega

theorem emplace_treeOk {idx idx' : Nat} {tree child : MountTree} {key : List Char}
    (h : emplace tree key idx = (child, idx')) (ht : tree.TreeOk) : child.TreeOk := by
  rcases emplace_cases h with ⟨hget, -⟩ | ⟨-, rfl, -⟩
  · exact ht.entry (Entries.mem_of_get?_eq_some hget)
  · intro s hs
    simp only [subtrees_def, descendants_fresh, List.mem_singleton] at hs
    subst hs
    exact ⟨List.nodup_nil, by simp [fresh], by simp [fresh], by simp [fresh]⟩

theorem indices_setEntry_emplace {idx idx' : Nat} {tree child child' : MountTree}
    {key : List Char} (more : List Nat) (h : emplace tree key idx = (child, idx'))
    (hindex : child'.index = child.index) (hperm : child'.indices.Perm (child.indices ++ more)) :
    (tree.setEntry key child').indices.Perm
      (tree.indices ++ (List.range' (idx + 1) (idx' - idx) ++ more)) := by
  rcases emplace_cases h with ⟨hget, rfl⟩ | ⟨hget, rfl, rfl⟩
  · -- an existing entry: its indices come back, with `more`
    have hp := indices_setEntry_perm child' hget
    rw [List.perm_iff_count] at hp hperm ⊢
    intro x
    have h₁ := hp x
    have h₂ := hperm x
    simp only [List.count_append, List.count_cons, hindex] at h₁ h₂ ⊢
    simp
    omega
  · -- a new entry: its index, then `more`
    rw [indices_setEntry_of_none hget, hindex]
    simp only [indices_fresh, List.nil_append] at hperm
    simpa [fresh, List.range'_succ] using (hperm.cons _).append_left _

theorem hasSameTarget_isFileNode {stat : List Char → Option (UInt64 × UInt64)}
    {n₁ n₂ : Node} (h : hasSameTarget stat n₁ n₂ = true) (hfile : n₂.isFileNode = true) :
    n₁.isFileNode = true := by
  cases n₁ <;> cases n₂ <;> simp_all [hasSameTarget, Node.isFileNode]

section

variable (stat : List Char → Option (UInt64 × UInt64)) (path : List Char) (newNode : Node)

theorem insertNode_cases (tree : MountTree) :
    (insertNode stat path newNode tree).1 = tree ∨
      ((insertNode stat path newNode tree).1 = { tree with node := some newNode } ∧
        (newNode.isFileNode = true → tree.entries = [] ∨ tree.node.any Node.isFileNode = true)) := by
  unfold insertNode
  split
  · rename_i node hnode
    split_ifs with h₁ h₂ h₃ h₄
    · exact .inl rfl
    · -- the same target: a file replaces a file
      refine .inr ⟨rfl, fun hfile => .inr ?_⟩
      simp [hnode, hasSameTarget_isFileNode h₂ hfile]
    all_goals exact .inl rfl
  · split_ifs with h
    · exact .inl rfl
    · refine .inr ⟨rfl, fun hfile => .inl ?_⟩
      simpa [hfile] using h

@[simp] theorem insertNode_entries (tree : MountTree) :
    (insertNode stat path newNode tree).1.entries = tree.entries := by
  rcases insertNode_cases stat path newNode tree with h | ⟨h, -⟩ <;> rw [h]

@[simp] theorem insertNode_index (tree : MountTree) :
    (insertNode stat path newNode tree).1.index = tree.index := by
  rcases insertNode_cases stat path newNode tree with h | ⟨h, -⟩ <;> rw [h]

@[simp] theorem insertNode_indices (tree : MountTree) :
    (insertNode stat path newNode tree).1.indices = tree.indices := by
  simp [indices_def, descendants_of_entries (insertNode_entries stat path newNode tree)]

theorem insertNode_treeOk {tree : MountTree} (h : tree.TreeOk) (hnode : newNode.OutsideOk) :
    (insertNode stat path newNode tree).1.TreeOk := by
  rcases insertNode_cases stat path newNode tree with heq | ⟨heq, hfile⟩
  · rw [heq]
    exact h
  · rw [heq]
    have hl := h.localOk
    refine h.setNode ⟨hl.keys_nodup, hl.keys_valid, fun hf => ?_, ?_⟩
    · rcases hfile (by simpa using hf) with he | hf'
      · exact he
      · exact hl.file_leaf hf'
    · intro node hn
      obtain rfl := Option.mem_some_iff.mp hn
      exact hnode

theorem insertWalk_spec : ∀ (parts : List (List Char)) (tree : MountTree) (mountIndex : Nat),
    let r := insertWalk stat path newNode parts tree mountIndex
    r.1.index = tree.index ∧ r.1.node = tree.node ∧ mountIndex ≤ r.2.1 ∧
      r.1.indices.Perm (tree.indices ++ List.range' (mountIndex + 1) (r.2.1 - mountIndex))
  | [], tree, mountIndex => by simp [insertWalk]
  | [part], tree, mountIndex => by
    rcases he : emplace tree part mountIndex with ⟨child, idx⟩
    simp only [insertWalk, he, setEntry_index, setEntry_node, true_and]
    refine ⟨emplace_le he, ?_⟩
    simpa using indices_setEntry_emplace [] he (insertNode_index ..)
      (by rw [insertNode_indices, List.append_nil])
  | part :: next :: rest, tree, mountIndex => by
    rcases he : emplace tree part mountIndex with ⟨child, idx⟩
    simp only [insertWalk, he]
    split
    · -- a file above the path: only the emplaced entry is stored back
      simp only [setEntry_index, setEntry_node, true_and]
      refine ⟨emplace_le he, ?_⟩
      simpa using indices_setEntry_emplace [] he rfl (by simp)
    · rcases hr : insertWalk stat path newNode (next :: rest) child idx with ⟨child', idx', status⟩
      obtain ⟨hindex, -, hle, hperm⟩ := insertWalk_spec (next :: rest) child idx
      simp only [hr] at hindex hle hperm
      simp only [setEntry_index, setEntry_node, true_and]
      have hle₀ := emplace_le he
      refine ⟨by omega, ?_⟩
      have hrange : List.range' (mountIndex + 1) (idx - mountIndex) ++
          List.range' (idx + 1) (idx' - idx) =
          List.range' (mountIndex + 1) (idx' - mountIndex) := by
        rw [show idx + 1 = mountIndex + 1 + 1 * (idx - mountIndex) by omega, List.range'_append]
        congr 1
        omega
      rw [← hrange]
      exact indices_setEntry_emplace _ he hindex hperm

theorem insertWalk_treeOk (hnode : newNode.OutsideOk) :
    ∀ (parts : List (List Char)) (tree : MountTree) (mountIndex : Nat),
      (∀ part ∈ parts, ValidEntryKey part) → tree.TreeOk →
        tree.node.any Node.isFileNode = false →
          (insertWalk stat path newNode parts tree mountIndex).1.TreeOk
  | [], tree, mountIndex, _, ht, _ => by simpa only [insertWalk] using ht
  | [part], tree, mountIndex, hparts, ht, hfile => by
    rcases he : emplace tree part mountIndex with ⟨child, idx⟩
    simp only [insertWalk, he]
    refine ht.setEntry (insertNode_treeOk stat path newNode (emplace_treeOk he ht) hnode) ?_
    exact ht.localOk.setEntry (hparts part List.mem_cons_self) hfile
  | part :: next :: rest, tree, mountIndex, hparts, ht, hfile => by
    rcases he : emplace tree part mountIndex with ⟨child, idx⟩
    have hchild := emplace_treeOk he ht
    have hlocal : (tree.setEntry part child).LocalOk :=
      ht.localOk.setEntry (hparts part List.mem_cons_self) hfile
    simp only [insertWalk, he]
    split
    · exact ht.setEntry hchild hlocal
    · rename_i hcfile
      have hrest : ∀ p ∈ next :: rest, ValidEntryKey p :=
        fun p hp => hparts p (List.mem_cons_of_mem _ hp)
      have ih := insertWalk_treeOk hnode (next :: rest) child idx hrest hchild (by simpa using hcfile)
      exact ht.setEntry ih (ht.localOk.setEntry (hparts part List.mem_cons_self) hfile)

end

theorem removeWalk_cons_eq_ok {path part : List Char} {rest : List (List Char)}
    {tree tree' : MountTree} (h : removeWalk path (part :: rest) tree = .ok tree') :
    tree.node.any Node.isFileNode = false ∧ ∃ child child',
      Entries.get? tree.entries part = some child ∧ removeWalk path rest child = .ok child' ∧
        tree' = tree.setEntry part child' := by
  unfold removeWalk at h
  split_ifs at h with hfile
  refine ⟨by simpa using hfile, ?_⟩
  cases hget : Entries.get? tree.entries part with
  | none => simp [hget] at h
  | some child =>
    cases hr : removeWalk path rest child with
    | error status => simp [hget, hr, bind, Except.bind] at h
    | ok child' =>
      simp only [hget, hr, bind, Except.bind, pure, Except.pure, Except.ok.injEq] at h
      exact ⟨child, child', rfl, hr, h.symm⟩

theorem removeWalk_spec {path : List Char} : ∀ (parts : List (List Char)) (tree tree' : MountTree),
    removeWalk path parts tree = .ok tree' →
      tree'.index = tree.index ∧ (parts ≠ [] → tree'.node = tree.node) ∧
        tree'.indices.Subperm tree.indices ∧ (tree.TreeOk → tree'.TreeOk)
  | [], tree, tree', h => by
    simp only [removeWalk, Except.ok.injEq] at h
    subst h
    have hdesc : ({ tree with node := none, entries := [] } : MountTree).descendants = [] := by
      rw [descendants_eq]
      rfl
    refine ⟨rfl, by simp, by simp [indices_def, hdesc], fun _ s hs => ?_⟩
    simp only [subtrees_def, hdesc, List.mem_singleton] at hs
    subst hs
    exact ⟨List.nodup_nil, by simp, by simp, by simp⟩
  | part :: rest, tree, tree', h => by
    obtain ⟨hfile, child, child', hget, hrest, rfl⟩ := removeWalk_cons_eq_ok h
    obtain ⟨hindex, -, hsub, hok⟩ := removeWalk_spec rest child child' hrest
    refine ⟨rfl, fun _ => rfl, ?_, fun ht => ?_⟩
    · -- the entry's indices shrink, the others stay
      have hp := indices_setEntry_perm child' hget
      rw [hindex] at hp
      have hsub' : (child.index :: child'.indices).Subperm (child.index :: child.indices) :=
        (List.subperm_cons _).mpr hsub
      exact (List.subperm_append_right _).mp
        (hp.subperm.trans ((List.subperm_append_left _).mpr hsub'))
    · have hmem := Entries.mem_of_get?_eq_some hget
      have hkey := ht.localOk.keys_valid part (List.mem_map_of_mem (f := Prod.fst) hmem)
      exact ht.setEntry (hok (ht.entry hmem)) (ht.localOk.setEntry hkey hfile)

theorem checkNewNode_outsideOk {node : Node} (h : checkNewNode node = .ok ()) : node.OutsideOk := by
  cases node with
  | fileNode outside writable | dirNode outside writable _ =>
    simp only [checkNewNode] at h
    split_ifs at h with hempty hnull
    exact ⟨by simpa using hempty, by simpa [pathContainsNullByte] using hnull⟩
  | tmpfsNode _ => trivial
  | rootNode _ => simp [checkNewNode] at h

theorem validEntryKey_of_mem_parts {path part : List Char}
    (hnull : pathContainsNullByte path = false) (habs : isAbsolutePath (cleanPath path) = true)
    (hroot : cleanPath path ≠ ['/'])
    (h : part ∈ (stripPrefix (cleanPath path) ['/']).splitOn '/') : ValidEntryKey part := by
  obtain ⟨hcomp, hchars⟩ := mem_splitOn_cleanPath habs hroot h
  have hpath : '\x00' ∉ path := by simpa [pathContainsNullByte] using hnull
  exact ⟨hcomp, fun hc => hpath (hchars _ hc)⟩

end MountTree

namespace Mounts

open MountTree

structure WellFormed (m : Mounts) : Prop where
  root : ∃ writable, m.mountSpecs.mountTree.node = some (.rootNode writable)
  tree_ok : m.mountSpecs.mountTree.TreeOk
  indices_nodup : m.mountSpecs.mountTree.indices.Nodup
  indices_le : ∀ i ∈ m.mountSpecs.mountTree.indices, i ≤ m.mountIndex

variable {m : Mounts} (stat : List Char → Option (UInt64 × UInt64))

@[simp] theorem setTree_mountTree (tree : MountTree) : (m.setTree tree).mountSpecs.mountTree = tree :=
  rfl

@[simp] theorem setTree_mountIndex (tree : MountTree) : (m.setTree tree).mountIndex = m.mountIndex :=
  rfl

theorem WellFormed.root_not_file (h : m.WellFormed) :
    m.mountSpecs.mountTree.node.any Node.isFileNode = false := by
  obtain ⟨writable, hw⟩ := h.root
  simp [hw, Node.isFileNode]

theorem WellFormed.of_tree {m' : Mounts} (h : m.WellFormed)
    (htree : m'.mountSpecs.mountTree = m.mountSpecs.mountTree) (hindex : m'.mountIndex = m.mountIndex) :
    m'.WellFormed := by
  obtain ⟨hroot, hok, hnodup, hle⟩ := h
  rw [← htree, ← hindex] at *
  exact ⟨hroot, hok, hnodup, hle⟩

theorem wellFormed_init : init.WellFormed := by
  have hdesc : init.mountSpecs.mountTree.descendants = [] := by
    rw [descendants_eq]
    rfl
  refine ⟨⟨false, rfl⟩, fun s hs => ?_, by simp [indices_def, hdesc], by simp [indices_def, hdesc]⟩
  simp only [subtrees_def, hdesc, List.mem_singleton] at hs
  subst hs
  exact ⟨List.nodup_nil, by simp [init], by simp [init], by simp [init, Node.OutsideOk]⟩

theorem insert_cases (path : List Char) (newNode : Node) :
    (∃ status, m.insert stat path newNode = (m, .error status)) ∨
      (pathContainsNullByte path = false ∧ checkNewNode newNode = .ok () ∧
        isAbsolutePath (cleanPath path) = true ∧ cleanPath path ≠ ['/'] ∧
        ∃ tree idx status, insertWalk stat path newNode
            ((stripPrefix (cleanPath path) ['/']).splitOn '/') m.mountSpecs.mountTree m.mountIndex =
            (tree, idx, status) ∧
          m.insert stat path newNode = ({ m.setTree tree with mountIndex := idx }, status)) := by
  unfold insert
  split_ifs with hnull
  · exact .inl ⟨_, rfl⟩
  · split
    · exact .inl ⟨_, rfl⟩
    · rename_i hcheck
      dsimp only
      split_ifs with habs hroot
      · exact .inl ⟨_, rfl⟩
      · exact .inl ⟨_, rfl⟩
      · rcases hwalk : insertWalk stat path newNode ((stripPrefix (cleanPath path) ['/']).splitOn '/')
          m.mountSpecs.mountTree m.mountIndex with ⟨tree, idx, status⟩
        exact .inr ⟨by simpa using hnull, hcheck, by simpa using habs, hroot, tree, idx, status,
          rfl, rfl⟩

theorem remove_cases (path : List Char) :
    (∃ status, m.remove path = (m, .error status)) ∨
      (pathContainsNullByte path = false ∧ isAbsolutePath (cleanPath path) = true ∧
        cleanPath path ≠ ['/'] ∧ ∃ tree, removeWalk path
            ((stripPrefix (cleanPath path) ['/']).splitOn '/') m.mountSpecs.mountTree = .ok tree ∧
          m.remove path = (m.setTree tree, .ok ())) := by
  unfold remove
  split_ifs with hnull
  · exact .inl ⟨_, rfl⟩
  · dsimp only
    split_ifs with habs hroot
    · exact .inl ⟨_, rfl⟩
    · exact .inl ⟨_, rfl⟩
    · split
      · exact .inl ⟨_, rfl⟩
      · rename_i tree hwalk
        exact .inr ⟨by simpa using hnull, by simpa using habs, hroot, tree, hwalk, rfl⟩

theorem nodup_append_range' {l : List Nat} {mountIndex n : Nat} (hn : l.Nodup)
    (hle : ∀ i ∈ l, i ≤ mountIndex) : (l ++ List.range' (mountIndex + 1) n).Nodup := by
  refine List.nodup_append.mpr ⟨hn, List.nodup_range' _, fun a ha b hb hab => ?_⟩
  have := hle a ha
  have := (List.mem_range'_1.mp hb).1
  omega

theorem WellFormed.insert (h : m.WellFormed) (path : List Char) (newNode : Node) :
    (m.insert stat path newNode).1.WellFormed := by
  rcases insert_cases stat path newNode with ⟨status, heq⟩ |
    ⟨hnull, hcheck, habs, hroot, tree, idx, status, hwalk, heq⟩
  · rw [heq]
    exact h
  · rw [heq]
    have hparts : ∀ part ∈ (stripPrefix (cleanPath path) ['/']).splitOn '/', ValidEntryKey part :=
      fun _ => validEntryKey_of_mem_parts hnull habs hroot
    have htree := insertWalk_treeOk stat path newNode (checkNewNode_outsideOk hcheck) _ _
      m.mountIndex hparts h.tree_ok h.root_not_file
    obtain ⟨-, hnode, hle, hperm⟩ := insertWalk_spec stat path newNode
      ((stripPrefix (cleanPath path) ['/']).splitOn '/') m.mountSpecs.mountTree m.mountIndex
    simp only [hwalk] at htree hnode hle hperm
    obtain ⟨writable, hw⟩ := h.root
    refine ⟨⟨writable, by simpa [hnode] using hw⟩, by simpa using htree, ?_, ?_⟩
    · simpa using hperm.nodup_iff.mpr (nodup_append_range' h.indices_nodup h.indices_le)
    · -- the old indices are at most the old `mount_index_`, the new ones at most `idx`
      intro i hi
      simp only [setTree_mountTree] at hi
      rcases List.mem_append.mp (hperm.subset hi) with hold | hnew
      · exact (h.indices_le i hold).trans hle
      · have := (List.mem_range'_1.mp hnew).2
        simp only
        omega

theorem WellFormed.remove (h : m.WellFormed) (path : List Char) : (m.remove path).1.WellFormed := by
  rcases remove_cases path with ⟨status, heq⟩ | ⟨-, -, -, tree, hwalk, heq⟩
  · rw [heq]
    exact h
  · rw [heq]
    obtain ⟨-, hnode, hsub, hok⟩ := removeWalk_spec _ _ _ hwalk
    obtain ⟨writable, hw⟩ := h.root
    obtain ⟨l, hl, hsl⟩ := hsub
    refine ⟨⟨writable, ?_⟩, by simpa using hok h.tree_ok, ?_, fun i hi => ?_⟩
    · simpa [hnode (List.splitOn_ne_nil _ _)] using hw
    · simpa using hl.nodup_iff.mp (hsl.nodup h.indices_nodup)
    · exact h.indices_le i (hsl.subset (hl.symm.subset (by simpa using hi)))

theorem WellFormed.setRootWritable (h : m.WellFormed) : m.setRootWritable.WellFormed := by
  have hd : ({ m.mountSpecs.mountTree with node := some (.rootNode true) } : MountTree).descendants =
      m.mountSpecs.mountTree.descendants := descendants_of_entries rfl
  have hl := h.tree_ok.localOk
  have hok : ({ m.mountSpecs.mountTree with node := some (.rootNode true) } : MountTree).TreeOk :=
    h.tree_ok.setNode
    ⟨hl.keys_nodup, hl.keys_valid, by simp [Node.isFileNode], by simp [Node.OutsideOk]⟩
  refine ⟨⟨true, rfl⟩, hok, ?_, ?_⟩
  · simpa [Mounts.setRootWritable, indices_def, hd] using h.indices_nodup
  · simpa [Mounts.setRootWritable, indices_def, hd] using h.indices_le

theorem WellFormed.apply (h : m.WellFormed) (call : MountsCall) : (call.apply stat m).1.WellFormed := by
  cases call with
  | addFileAt outside inside isRo => exact h.insert stat inside _
  | addDirectoryAt outside inside isRo => exact h.insert stat inside _
  | addTmpfs inside sz => exact h.insert stat inside _
  | remove path => exact h.remove path
  | setRootWritable => exact h.setRootWritable
  | allowMountPropagationAt inside => exact h
  | allowWriteExecutable => exact h.of_tree rfl rfl
  | allowMountPropagation => exact h.of_tree rfl rfl
  | enableSharedMountNamespace =>
    show m.enableSharedMountNamespace.1.WellFormed
    unfold enableSharedMountNamespace
    split
    · exact h
    · exact h.of_tree rfl rfl

theorem Reachable.run (h : m.Reachable) (calls : List MountsCall) : (m.run stat calls).Reachable := by
  induction calls generalizing m with
  | nil => exact h
  | cons call calls ih => exact ih (.step stat call h)

theorem Reachable.wellFormed (h : m.Reachable) : m.WellFormed := by
  induction h with
  | init => exact wellFormed_init
  | step stat call _ ih => exact ih.apply stat call

end Mounts

end SandboxedApi

import Mathlib.Data.List.Sort
import SandboxedApi.Lib.Entries
import SandboxedApi.Util.Path
import SandboxedApi.Util.Status

namespace SandboxedApi

/-- `MountTree::Node`: what is mounted at a path. -/
inductive MountTree.Node where
  | fileNode (outside : List Char) (writable : Bool)
  | dirNode (outside : List Char) (writable allowMountPropagation : Bool)
  | tmpfsNode (tmpfsOptions : List Char)
  | rootNode (writable : Bool)
  deriving DecidableEq, Repr

/-- `MountTree`: the mount at a path, and the entries below it by path component. -/
structure MountTree where
  entries : List (List Char × MountTree)
  node : Option MountTree.Node
  index : Nat
  ignoreNonExisting : Bool

/-- `MountSpecs`. -/
structure MountSpecs where
  mountTree : MountTree
  allowMountPropagation : Bool
  allowWriteExecutable : Bool
  useSharedMountNamespace : Bool

/-- `sandbox2::Mounts`: the specs, and `mount_index_`, the index the last new entry took. -/
structure Mounts where
  mountSpecs : MountSpecs
  mountIndex : Nat

namespace MountTree

/-- `has_file_node()`. -/
def Node.isFileNode : Node → Bool
  | .fileNode _ _ => true
  | _ => false

def descendants (tree : MountTree) : List MountTree :=
  tree.entries.attach.flatMap fun ⟨(_, value), _⟩ => value :: value.descendants
termination_by tree
decreasing_by
  rename_i h
  obtain ⟨entries, node, index, ignore⟩ := tree
  have := List.sizeOf_lt_of_mem h
  simp only [MountTree.mk.sizeOf_spec, Prod.mk.sizeOf_spec] at this ⊢
  omega

theorem descendants_eq (tree : MountTree) :
    tree.descendants = tree.entries.flatMap fun e => e.2 :: e.2.descendants := by
  rw [descendants, List.flatMap_subtype (g := fun e => e.2 :: e.2.descendants) (fun _ _ => rfl),
    List.unattach_attach]

def indices (tree : MountTree) : List Nat :=
  tree.descendants.map (·.index)

theorem indices_def (tree : MountTree) : tree.indices = tree.descendants.map (·.index) := rfl

theorem sizeOf_lt_of_mem {tree : MountTree} {e : List Char × MountTree} (h : e ∈ tree.entries) :
    sizeOf e.2 < sizeOf tree := by
  obtain ⟨entries, node, index, ignore⟩ := tree
  obtain ⟨key, value⟩ := e
  have := List.sizeOf_lt_of_mem h
  simp only [MountTree.mk.sizeOf_spec, Prod.mk.sizeOf_spec] at this ⊢
  omega

end MountTree

/-- `PathContainsNullByte`. -/
def pathContainsNullByte (path : List Char) : Bool :=
  path.contains '\x00'

/-- `IsSameFile`: the same path, or the same device and inode. -/
def isSameFile (stat : List Char → Option (UInt64 × UInt64)) (path1 path2 : List Char) : Bool :=
  if path1 = path2 then true
  else
    match stat path1, stat path2 with
    | some stat1, some stat2 => stat1 == stat2
    | _, _ => false

/-- `IsWritable`. -/
def isWritable : MountTree.Node → Bool
  | .fileNode _ writable => writable
  | .dirNode _ writable _ => writable
  | .rootNode writable => writable
  | .tmpfsNode _ => false

/-- `HasSameTarget`: nodes of one kind that mount the same thing. -/
def hasSameTarget (stat : List Char → Option (UInt64 × UInt64)) :
    MountTree.Node → MountTree.Node → Bool
  | .fileNode outside1 _, .fileNode outside2 _ => isSameFile stat outside1 outside2
  | .dirNode outside1 _ _, .dirNode outside2 _ _ => isSameFile stat outside1 outside2
  | .tmpfsNode options1, .tmpfsNode options2 => options1 == options2
  | .rootNode _, .rootNode _ => true
  | _, _ => false

/-- `IsEquivalentNode`: the same target, and as writable. -/
def isEquivalentNode (stat : List Char → Option (UInt64 × UInt64))
    (n1 n2 : MountTree.Node) : Bool :=
  hasSameTarget stat n1 n2 &&
    match n1, n2 with
    | .fileNode _ writable1, .fileNode _ writable2 => writable1 == writable2
    | .dirNode _ writable1 _, .dirNode _ writable2 _ => writable1 == writable2
    | .tmpfsNode _, .tmpfsNode _ => true
    | .rootNode writable1, .rootNode writable2 => writable1 == writable2
    | _, _ => false

def octalDigit (n : Nat) : Char :=
  Char.ofNat ('0'.toNat + n % 8)

/-- `CEscape`, as the text format writes string fields: the named escapes, and three octal
digits for the other control characters. -/
def cEscape (s : List Char) : List Char :=
  s.flatMap fun c =>
    if c = '\n' then ['\\', 'n']
    else if c = '\r' then ['\\', 'r']
    else if c = '\t' then ['\\', 't']
    else if c = '"' then ['\\', '"']
    else if c = '\x27' then ['\\', '\x27']
    else if c = '\\' then ['\\', '\\']
    else if c.toNat < 0x20 ∨ c.toNat = 0x7f then
      ['\\', octalDigit (c.toNat / 64), octalDigit (c.toNat / 8), octalDigit c.toNat]
    else [c]

/-- `DebugString` of a `MountTree::Node`: its case as a message, with the fields that differ
from their defaults. -/
def MountTree.Node.debugString (node : MountTree.Node) : String :=
  let str (name : String) (value : List Char) : String :=
    if value.isEmpty then "" else "  " ++ name ++ ": \"" ++ String.ofList (cEscape value) ++ "\"\n"
  let bool (name : String) (value : Bool) : String :=
    if value then "  " ++ name ++ ": true\n" else ""
  match node with
  | .fileNode outside writable =>
    "file_node \x7b\n" ++ str "outside" outside ++ bool "writable" writable ++ "\x7d\n"
  | .dirNode outside writable allowMountPropagation =>
    "dir_node \x7b\n" ++ str "outside" outside ++ bool "writable" writable ++
      bool "allow_mount_propagation" allowMountPropagation ++ "\x7d\n"
  | .tmpfsNode tmpfsOptions => "tmpfs_node \x7b\n" ++ str "tmpfs_options" tmpfsOptions ++ "\x7d\n"
  | .rootNode writable => "root_node \x7b\n" ++ bool "writable" writable ++ "\x7d\n"

def MountTree.setEntry (tree : MountTree) (key : List Char) (child : MountTree) : MountTree :=
  { tree with entries := Entries.set tree.entries key child }

def MountTree.fresh (index : Nat) : MountTree := ⟨[], none, index, false⟩

/-- `entries->emplace(part, MountTree())`: the entry at `part`, or a new one, which takes the
next index. The entry is stored back by the caller. -/
def emplace (curtree : MountTree) (part : List Char) (mountIndex : Nat) : MountTree × Nat :=
  match Entries.get? curtree.entries part with
  | some child => (child, mountIndex)
  | none => (MountTree.fresh (mountIndex + 1), mountIndex + 1)

def insertNode (stat : List Char → Option (UInt64 × UInt64)) (path : List Char)
    (newNode : MountTree.Node) (curtree : MountTree) : MountTree × Except Status Unit :=
  match curtree.node with
  | some node =>
    let conflict : Status := ⟨.failedPrecondition, "Inserting " ++ String.ofList path ++
      " twice with conflicting values " ++ node.debugString ++ " vs. " ++ newNode.debugString⟩
    if isEquivalentNode stat node newNode then (curtree, .ok ())
    else if hasSameTarget stat node newNode then
      if !isWritable node && isWritable newNode then
        ({ curtree with node := some newNode }, .ok ())
      else if isWritable node && !isWritable newNode then (curtree, .ok ())
      else (curtree, .error conflict)
    else (curtree, .error conflict)
  | none =>
    if newNode.isFileNode && !curtree.entries.isEmpty then
      (curtree, .error ⟨.failedPrecondition,
        "Trying to mount file over existing directory at " ++ String.ofList path⟩)
    else ({ curtree with node := some newNode }, .ok ())

def insertWalk (stat : List Char → Option (UInt64 × UInt64)) (path : List Char)
    (newNode : MountTree.Node) :
    List (List Char) → MountTree → Nat → MountTree × Nat × Except Status Unit
  | [], curtree, mountIndex => (curtree, mountIndex, .ok ())
  | [part], curtree, mountIndex =>
    let (child, mountIndex) := emplace curtree part mountIndex
    let (child, status) := insertNode stat path newNode child
    (curtree.setEntry part child, mountIndex, status)
  | part :: next :: rest, curtree, mountIndex =>
    let (child, mountIndex) := emplace curtree part mountIndex
    if child.node.any MountTree.Node.isFileNode then
      (curtree.setEntry part child, mountIndex,
        .error ⟨.failedPrecondition, "Cannot insert " ++ String.ofList path ++
          " since a file is mounted as a parent directory"⟩)
    else
      let (child, mountIndex, status) := insertWalk stat path newNode (next :: rest) child mountIndex
      (curtree.setEntry part child, mountIndex, status)

def checkNewNode : MountTree.Node → Except Status Unit
  | .fileNode outside _ | .dirNode outside _ _ =>
    if outside.isEmpty then .error ⟨.invalidArgument, "Outside path cannot be empty"⟩
    else if pathContainsNullByte outside then
      .error ⟨.invalidArgument, "Outside path contains a null byte: " ++ String.ofList outside⟩
    else .ok ()
  | .rootNode _ => .error ⟨.invalidArgument, "Cannot insert a RootNode"⟩
  | .tmpfsNode _ => .ok ()

namespace Mounts

/-- `Mounts()`: a read-only root and nothing mounted below it. -/
def init : Mounts :=
  ⟨⟨⟨[], some (.rootNode false), 0, false⟩, false, false, false⟩, 0⟩

def setTree (m : Mounts) (mountTree : MountTree) : Mounts :=
  { m with mountSpecs := { m.mountSpecs with mountTree := mountTree } }

/-- `Mounts::Insert`. -/
def insert (m : Mounts) (stat : List Char → Option (UInt64 × UInt64)) (path : List Char)
    (newNode : MountTree.Node) : Mounts × Except Status Unit :=
  if pathContainsNullByte path then
    (m, .error ⟨.invalidArgument, "Inside path contains a null byte: " ++ String.ofList path⟩)
  else
    match checkNewNode newNode with
    | .error status => (m, .error status)
    | .ok () =>
      let fixedPath := cleanPath path
      if !isAbsolutePath fixedPath then
        (m, .error ⟨.invalidArgument, "Only absolute paths are supported"⟩)
      else if fixedPath = ['/'] then (m, .error ⟨.invalidArgument, "The root already exists"⟩)
      else
        let parts := (stripPrefix fixedPath ['/']).splitOn '/'
        let (mountTree, mountIndex, status) :=
          insertWalk stat path newNode parts m.mountSpecs.mountTree m.mountIndex
        ({ m.setTree mountTree with mountIndex := mountIndex }, status)

/-- `Mounts::AddFileAt`. -/
def addFileAt (m : Mounts) (stat : List Char → Option (UInt64 × UInt64))
    (outside inside : List Char) (isRo : Bool) : Mounts × Except Status Unit :=
  m.insert stat inside (.fileNode outside (!isRo))

/-- `Mounts::AddDirectoryAt`. -/
def addDirectoryAt (m : Mounts) (stat : List Char → Option (UInt64 × UInt64))
    (outside inside : List Char) (isRo : Bool) : Mounts × Except Status Unit :=
  m.insert stat inside (.dirNode outside (!isRo) false)

/-- `Mounts::AddTmpfs`. -/
def addTmpfs (m : Mounts) (stat : List Char → Option (UInt64 × UInt64)) (inside : List Char)
    (sz : Nat) : Mounts × Except Status Unit :=
  m.insert stat inside (.tmpfsNode ("size=" ++ toString sz).toList)

end Mounts

def removeWalk (path : List Char) : List (List Char) → MountTree → Except Status MountTree
  | [], curtree => .ok { curtree with node := none, entries := [] }
  | part :: rest, curtree =>
    if curtree.node.any MountTree.Node.isFileNode then
      .error ⟨.notFound, "File node is mounted at parent of: " ++ String.ofList path⟩
    else
      match Entries.get? curtree.entries part with
      | none => .error ⟨.notFound, "Path does not exist in mounts: " ++ String.ofList path⟩
      | some child => do
        let child ← removeWalk path rest child
        pure (curtree.setEntry part child)

def getNodeWalk (path : List Char) : List (List Char) → MountTree →
    Except Status (Option MountTree.Node)
  | [], curtree => .ok curtree.node
  | part :: rest, curtree =>
    match Entries.get? curtree.entries part with
    | none => .error ⟨.notFound, "Path does not exist in mounts: " ++ String.ofList path⟩
    | some child => getNodeWalk path rest child

/-- `IsUnderPath`. -/
def isUnderPath (path pre : List Char) : Bool :=
  path == pre || (pre.isPrefixOf path && path[pre.length]? == some '/')

/-- `MaybeGetOutsidePath`. -/
def maybeGetOutsidePath (tree : MountTree) : List Char :=
  match tree.node with
  | some (.fileNode outside _) | some (.dirNode outside _ _) => outside
  | _ => []

/-- `VerifySharedMountNamespace`: no tmpfs and no mount from under `/proc`, anywhere in the tree.
The entries are visited in the order the tree keeps them. -/
def verifySharedMountNamespace (tree : MountTree) : Except Status Unit := do
  if tree.node.any fun node => node matches .tmpfsNode _ then
    throw ⟨.failedPrecondition, "Shared mount namespace cannot be used with tmpfs mounts."⟩
  if isUnderPath (maybeGetOutsidePath tree) "/proc".toList then
    throw ⟨.failedPrecondition, "Shared mount namespace cannot be used with /proc mounts."⟩
  tree.entries.attach.forM fun ⟨(_, subtree), _⟩ => verifySharedMountNamespace subtree
termination_by tree
decreasing_by exact MountTree.sizeOf_lt_of_mem ‹_›

namespace Mounts

/-- `Mounts::Remove`. -/
def remove (m : Mounts) (path : List Char) : Mounts × Except Status Unit :=
  if pathContainsNullByte path then
    (m, .error ⟨.invalidArgument, "Path contains a null byte: " ++ String.ofList path⟩)
  else
    let fixedPath := cleanPath path
    if !isAbsolutePath fixedPath then
      (m, .error ⟨.invalidArgument, "Only absolute paths are supported"⟩)
    else if fixedPath = ['/'] then (m, .error ⟨.invalidArgument, "Cannot remove root"⟩)
    else
      match removeWalk path ((stripPrefix fixedPath ['/']).splitOn '/') m.mountSpecs.mountTree with
      | .error status => (m, .error status)
      | .ok mountTree => (m.setTree mountTree, .ok ())

/-- `Mounts::GetNode`. -/
def getNode (m : Mounts) (path : List Char) : Except Status (Option MountTree.Node) :=
  getNodeWalk path ((stripPrefix path ['/']).splitOn '/') m.mountSpecs.mountTree

/-- `Mounts::AllowMountPropagation(inside)`. The flag is set on a copy of the node that
`GetNode` returned, so the mounts do not change. -/
def allowMountPropagationAt (m : Mounts) (inside : List Char) : Except Status Unit := do
  let node ← m.getNode inside
  match node with
  | some (.dirNode _ _ _) => pure ()
  | _ => throw ⟨.invalidArgument, "Path is not a directory: " ++ String.ofList inside⟩

/-- `Mounts::SetRootWritable`. -/
def setRootWritable (m : Mounts) : Mounts :=
  m.setTree { m.mountSpecs.mountTree with node := some (.rootNode true) }

/-- `Mounts::AllowWriteExecutable`. -/
def allowWriteExecutable (m : Mounts) : Mounts :=
  { m with mountSpecs := { m.mountSpecs with allowWriteExecutable := true } }

/-- `Mounts::AllowMountPropagation()`. -/
def allowMountPropagation (m : Mounts) : Mounts :=
  { m with mountSpecs := { m.mountSpecs with allowMountPropagation := true } }

/-- `Mounts::EnableSharedMountNamespace`. -/
def enableSharedMountNamespace (m : Mounts) : Mounts × Except Status Unit :=
  match verifySharedMountNamespace m.mountSpecs.mountTree with
  | .error status => (m, .error status)
  | .ok () => ({ m with mountSpecs := { m.mountSpecs with useSharedMountNamespace := true } }, .ok ())

end Mounts

inductive MountsCall where
  | addFileAt (outside inside : List Char) (isRo : Bool)
  | addDirectoryAt (outside inside : List Char) (isRo : Bool)
  | addTmpfs (inside : List Char) (sz : Nat)
  | remove (path : List Char)
  | setRootWritable
  | allowMountPropagationAt (inside : List Char)
  | allowWriteExecutable
  | allowMountPropagation
  | enableSharedMountNamespace
  deriving DecidableEq, Repr

def MountsCall.apply (stat : List Char → Option (UInt64 × UInt64)) (m : Mounts) :
    MountsCall → Mounts × Except Status Unit
  | .addFileAt outside inside isRo => m.addFileAt stat outside inside isRo
  | .addDirectoryAt outside inside isRo => m.addDirectoryAt stat outside inside isRo
  | .addTmpfs inside sz => m.addTmpfs stat inside sz
  | .remove path => m.remove path
  | .setRootWritable => (m.setRootWritable, .ok ())
  | .allowMountPropagationAt inside => (m, m.allowMountPropagationAt inside)
  | .allowWriteExecutable => (m.allowWriteExecutable, .ok ())
  | .allowMountPropagation => (m.allowMountPropagation, .ok ())
  | .enableSharedMountNamespace => m.enableSharedMountNamespace

def Mounts.run (stat : List Char → Option (UInt64 × UInt64)) (m : Mounts)
    (calls : List MountsCall) : Mounts :=
  calls.foldl (fun m call => (call.apply stat m).1) m

inductive Mounts.Reachable : Mounts → Prop
  | init : Mounts.Reachable Mounts.init
  | step {m : Mounts} (stat : List Char → Option (UInt64 × UInt64)) (call : MountsCall) :
      Mounts.Reachable m → Mounts.Reachable (call.apply stat m).1

/-- `GetSortedEntries`: the entries by increasing index. `std::sort` gives one of the orders
sorted by index; this is the one a merge sort gives. -/
def getSortedEntries (tree : MountTree) : List (List Char × MountTree) :=
  tree.entries.mergeSort fun a b => a.2.index ≤ b.2.index

def MountTree.mountOrder (tree : MountTree) : List (List (List Char)) :=
  [] :: if tree.node.any MountTree.Node.isFileNode then []
    else (getSortedEntries tree).attach.flatMap fun ⟨(key, value), _⟩ =>
      value.mountOrder.map (key :: ·)
termination_by tree
decreasing_by exact MountTree.sizeOf_lt_of_mem (List.mem_mergeSort.mp ‹_›)

end SandboxedApi

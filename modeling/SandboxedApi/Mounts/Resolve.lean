import SandboxedApi.Mounts.Atomic

namespace SandboxedApi

/-- `absl::StrSplit(tail, absl::MaxSplits('/', 1))`: what comes before the first slash, and what
comes after it. -/
def splitFirst (tail : List Char) : List Char × List Char :=
  (tail.takeWhile (· != '/'), (tail.dropWhile (· != '/')).drop 1)

theorem length_splitFirst_lt {tail : List Char} (h : tail ≠ []) :
    (splitFirst tail).2.length < tail.length := by
  have hle := (List.dropWhile_suffix (l := tail) (· != '/')).length_le
  have hpos := List.length_pos_of_ne_nil h
  simp only [splitFirst, List.length_drop]
  omega

def resolveNotFound : Status :=
  ⟨.notFound, "Path could not be resolved in the mounts"⟩

def resolveWalk (curtree : MountTree) (tail : List Char) : Except Status (List Char) :=
  if tail = [] then
    match curtree.node with
    | some (.fileNode outside _) | some (.dirNode outside _ _) => .ok outside
    | _ => .error resolveNotFound
  else
    match Entries.get? curtree.entries (splitFirst tail).1 with
    | none =>
      match curtree.node with
      | some (.dirNode outside _ _) => .ok (joinPath [outside, tail])
      | _ => .error resolveNotFound
    | some child => resolveWalk child (splitFirst tail).2
termination_by tail.length
decreasing_by exact length_splitFirst_lt ‹_›

/-- `Mounts::ResolvePath`. -/
def Mounts.resolvePath (m : Mounts) (path : List Char) : Except Status (List Char) :=
  if !isAbsolutePath path then .error ⟨.invalidArgument, "Path has to be absolute"⟩
  else resolveWalk m.mountSpecs.mountTree (stripPrefix (cleanPath path) ['/'])

def deepestMount (tree : MountTree) : List (List Char) → Option (MountTree.Node × List (List Char))
  | [] => none
  | part :: rest =>
    match Entries.get? tree.entries part with
    | none => none
    | some child =>
      (deepestMount child rest).or
        (match child.node with
          | some (.rootNode _) | none => none
          | some node => some (node, rest))

def resolveByNearestMount (m : Mounts) (path : List Char) : Option (List Char) :=
  let parts := if cleanPath path = ['/'] then [] else (stripPrefix (cleanPath path) ['/']).splitOn '/'
  match deepestMount m.mountSpecs.mountTree parts with
  | some (.fileNode outside _, []) | some (.dirNode outside _ _, []) => some outside
  | some (.dirNode outside _ _, rest@(_ :: _)) => some (joinPath [outside, ['/'].intercalate rest])
  | _ => none

/-- With `/usr` mounted as a directory and a file mounted below it at `/usr/lib/x.so`, the
nearest mount of `/usr/lib/y.so` is the directory, which maps it to `/usr/lib/y.so`; but the walk
of `ResolvePath` goes on to `/usr/lib`, which `Insert` created for the file and which has no mount
of its own, and there it finds neither the entry nor a directory, and fails. -/
theorem resolvePath_below_directory_not_found :
    resolveByNearestMount (Mounts.init.run (fun _ => none)
        [.addDirectoryAt "/usr".toList "/usr".toList true,
          .addFileAt "/usr/lib/x.so".toList "/usr/lib/x.so".toList true])
        "/usr/lib/y.so".toList = some "/usr/lib/y.so".toList ∧
      (Mounts.init.run (fun _ => none)
        [.addDirectoryAt "/usr".toList "/usr".toList true,
          .addFileAt "/usr/lib/x.so".toList "/usr/lib/x.so".toList true]).resolvePath
        "/usr/lib/y.so".toList = .error resolveNotFound :=
  ⟨by decide +kernel, by decide +kernel⟩

/-- `AllowMountPropagation` on a path where a directory is mounted returns OK, but it set the
flag on the copy of the node that `GetNode` returned: the node at the path is as before, with
`allow_mount_propagation` still false. -/
theorem allowMountPropagationAt_flag_unset :
    ((MountsCall.allowMountPropagationAt "/a".toList).apply (fun _ => none)
        (Mounts.init.run (fun _ => none) [.addDirectoryAt "/a".toList "/a".toList true])).2 =
      .ok () ∧
      (Mounts.init.run (fun _ => none) [.addDirectoryAt "/a".toList "/a".toList true,
          .allowMountPropagationAt "/a".toList]).getNode "/a".toList =
        .ok (some (.dirNode "/a".toList false false)) :=
  ⟨by decide, by decide⟩

end SandboxedApi

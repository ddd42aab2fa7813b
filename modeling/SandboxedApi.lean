import SandboxedApi.Machine.Loop
import SandboxedApi.Bpf.Filter
import SandboxedApi.Bpf.Evaluator
import SandboxedApi.Bpf.Run
import SandboxedApi.Bpf.Helper
import SandboxedApi.Bpf.Block
import SandboxedApi.Bpf.Steps
import SandboxedApi.Policy.Policy
import SandboxedApi.Policy.DefaultProgram
import SandboxedApi.Bpf.Decides
import SandboxedApi.Bpf.Jumps
import SandboxedApi.Bpf.Fragment
import SandboxedApi.Policy.DefaultVerdict
import SandboxedApi.Policy.Dispatch
import SandboxedApi.Policy.DispatchJumps
import SandboxedApi.Policy.DispatchSpec
import SandboxedApi.Policy.Rules
import SandboxedApi.Policy.Builder
import SandboxedApi.Policy.BuilderSpec
import SandboxedApi.Policy.Refinement
import SandboxedApi.Util.Status
import SandboxedApi.Lib.PathWalk
import SandboxedApi.Util.Path
import SandboxedApi.Lib.Entries
import SandboxedApi.Lib.ParentFirst
import SandboxedApi.Lib.OrderedMap
import SandboxedApi.Mounts.Tree
import SandboxedApi.Mounts.WellFormed
import SandboxedApi.Mounts.Atomic
import SandboxedApi.Mounts.Resolve
import SandboxedApi.Bpf.Labels
import SandboxedApi.Bpf.Compare64
import SandboxedApi.Monitor.Unotify
import SandboxedApi.Mounts.Hashable
import SandboxedApi.ForkClient.GlobalData
import SandboxedApi.Util.PathChecks
import SandboxedApi.Sanitizer.CloseFds
import SandboxedApi.Unwind.Symbols
import SandboxedApi.Tools.FileWrapper
import SandboxedApi.Allocator.Client
import SandboxedApi.Allocator.Checks
import SandboxedApi.Network.Rules
import SandboxedApi.Deadline.Invariants
import SandboxedApi.Elf.Safety
import SandboxedApi.Pool.Accounting
import SandboxedApi.Elf.Limits
import SandboxedApi.Elf.ResolverSpec
import SandboxedApi.Util.MapsParser
import SandboxedApi.Util.PidWaiter

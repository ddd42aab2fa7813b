import Mathlib.Data.Nat.Log
import SandboxedApi.Util.Status
import SandboxedApi.Deadline.Manager
import SandboxedApi.Lib.Interleave

namespace SandboxedApi

/-- `absl::Duration`: a count of nanoseconds, or an infinite duration of either sign. -/
inductive Duration where
  | finite (ns : Int)
  | infinite (negative : Bool)
  deriving DecidableEq, Repr

namespace Duration

/-- `now + duration` from a finite time: an infinite duration gives the infinity of its sign. -/
def after (now : Int) : Duration → Time
  | .finite ns => .finite (now + ns)
  | .infinite false => .infiniteFuture
  | .infinite true => .infinitePast

/-- `elapsed >= max_age`, for the finite `elapsed` between two finite times. -/
def reachedBy (maxAge : Duration) (elapsed : Int) : Bool :=
  match maxAge with
  | .finite ns => decide (ns ≤ elapsed)
  | .infinite negative => negative

end Duration

/-- `SandboxPoolOptions`, with its defaults. -/
structure SandboxPoolOptions where
  minSandboxes : Nat := 1
  maxSandboxes : Nat := 1024
  idleTimeout : Duration := .finite 60000000000
  maxSandboxReuse : Nat := 1
  maxMaintenanceThreads : Nat := 0
  deriving DecidableEq, Repr

/-- `PoolEntry`: the sandbox and how many times it has been released. -/
structure PoolEntry where
  sandbox : Nat
  usageCount : Nat
  deriving DecidableEq, Repr

/-- `ExpirableItem`: an entry of `idle_queue_` and the time it was pushed. -/
structure ExpirableItem where
  value : PoolEntry
  lastUsed : Int
  deriving DecidableEq, Repr

inductive Task where
  | createTask (maxSandboxes : Nat)
  | recycleTask (entry : PoolEntry)
  | destroyTask (entry : PoolEntry)
  deriving DecidableEq, Repr

structure Pool where
  now : Int
  idleQueue : List ExpirableItem
  workerQueue : List Task
  activeCount : Nat
  totalCount : Nat
  handles : List PoolEntry
  nextSandbox : Nat
  destroyed : List Nat
  deriving DecidableEq, Repr

/-- `AvailableCount()`. -/
def Pool.availableCount (g : Pool) : Nat := g.idleQueue.length

inductive CreatePc where
  | load
  | loop (totalCount : Nat)
  | factory
  | failed (status : Status)
  | done (result : Except Status Nat)

inductive ClientPc where
  | idle
  | popped (entry : PoolEntry)
  | creating (deadline : Time) (c : CreatePc)
  | waiting (deadline : Time)
  | releasing (entry : PoolEntry) (recycle : Bool)

inductive WorkerPc where
  | waiting
  | create (maxSandboxes : Nat) (c : CreatePc)
  | destroy (entry : PoolEntry)
  | destroying (entry : PoolEntry)
  | recycle (entry : PoolEntry)
  | recycled (entry : PoolEntry) (sandbox : Nat)
  | replaced (entry : PoolEntry)

inductive PrunerPc where
  | waiting
  | popped (entry : PoolEntry)

inductive Thread where
  | client (pc : ClientPc)
  | worker (pc : WorkerPc)
  | pruner (pc : PrunerPc)

inductive PoolEvent where
  | acquire
  | release
  | createSandbox
  | workerRun
  | createTask
  | recycleTask
  | destroyTask
  | pruner
  | clock
  deriving DecidableEq, Repr

def WorkerPc.start : Task → WorkerPc
  | .createTask maxSandboxes => .create maxSandboxes .load
  | .recycleTask entry => .recycle entry
  | .destroyTask entry => .destroy entry

inductive CreateStep (maxSandboxes : Nat) : Pool → CreatePc → Pool → CreatePc → Prop
  | load {g : Pool} : CreateStep maxSandboxes g .load g (.loop g.totalCount)
  | exchange {g : Pool} {c : Nat} (hlt : c < maxSandboxes) (hcount : g.totalCount = c) :
      CreateStep maxSandboxes g (.loop c) { g with totalCount := c + 1 } .factory
  | exchangeFailed {g : Pool} {c : Nat} (hlt : c < maxSandboxes) :
      CreateStep maxSandboxes g (.loop c) g (.loop g.totalCount)
  | full {g : Pool} {c : Nat} (hge : ¬ c < maxSandboxes) :
      CreateStep maxSandboxes g (.loop c) g (.done (.error ⟨.resourceExhausted, "Sandbox pool is full."⟩))
  | factoryOk {g : Pool} :
      CreateStep maxSandboxes g .factory { g with nextSandbox := g.nextSandbox + 1 } (.done (.ok g.nextSandbox))
  | factoryFailed {g : Pool} (status : Status) : CreateStep maxSandboxes g .factory g (.failed status)
  | giveBack {g : Pool} {status : Status} :
      CreateStep maxSandboxes g (.failed status) { g with totalCount := g.totalCount - 1 } (.done (.error status))

inductive ClientStep (options : SandboxPoolOptions) : Pool → ClientPc → PoolEvent → Pool → ClientPc → Prop
  | tryPop {g : Pool} {item : ExpirableItem} {rest : List ExpirableItem} (hq : g.idleQueue = item :: rest) :
      ClientStep options g .idle .acquire { g with idleQueue := rest } (.popped item.value)
  | tryPopEmpty {g : Pool} (timeout : Duration) (hq : g.idleQueue = []) :
      ClientStep options g .idle .acquire g (.creating (timeout.after g.now) .load)
  | handOut {g : Pool} {entry : PoolEntry} :
      ClientStep options g (.popped entry) .acquire
        { g with activeCount := g.activeCount + 1, handles := entry :: g.handles } .idle
  | createSandbox {g g' : Pool} {deadline : Time} {c c' : CreatePc}
      (h : CreateStep options.maxSandboxes g c g' c') :
      ClientStep options g (.creating deadline c) .createSandbox g' (.creating deadline c')
  | created {g : Pool} {deadline : Time} {sandbox : Nat} :
      ClientStep options g (.creating deadline (.done (.ok sandbox))) .acquire
        { g with activeCount := g.activeCount + 1, handles := ⟨sandbox, 0⟩ :: g.handles } .idle
  | createFailed {g : Pool} {deadline : Time} {status : Status} (hcode : status.code ≠ .resourceExhausted) :
      ClientStep options g (.creating deadline (.done (.error status))) .acquire g .idle
  | wait {g : Pool} {deadline : Time} {status : Status} (hcode : status.code = .resourceExhausted) :
      ClientStep options g (.creating deadline (.done (.error status))) .acquire g (.waiting deadline)
  | popWithDeadline {g : Pool} {deadline : Time} {item : ExpirableItem} {rest : List ExpirableItem}
      (hq : g.idleQueue = item :: rest) :
      ClientStep options g (.waiting deadline) .acquire { g with idleQueue := rest } (.popped item.value)
  | deadlineExceeded {g : Pool} {deadline : Time} (hq : g.idleQueue = []) (hpast : deadline ≤ .finite g.now) :
      ClientStep options g (.waiting deadline) .acquire g .idle
  | release {g : Pool} {entry : PoolEntry} (hentry : entry ∈ g.handles) :
      ClientStep options g .idle .release
        { g with handles := g.handles.erase entry, activeCount := g.activeCount - 1 }
        (.releasing ⟨entry.sandbox, entry.usageCount + 1⟩
          (decide (options.maxSandboxReuse ≤ entry.usageCount + 1)))
  | pushRecycle {g : Pool} {entry : PoolEntry} :
      ClientStep options g (.releasing entry true) .release
        { g with workerQueue := g.workerQueue ++ [.recycleTask entry] } .idle
  | pushIdle {g : Pool} {entry : PoolEntry} :
      ClientStep options g (.releasing entry false) .release
        { g with idleQueue := g.idleQueue ++ [⟨entry, g.now⟩] } .idle

inductive WorkerStep (options : SandboxPoolOptions) : Pool → WorkerPc → PoolEvent → Pool → WorkerPc → Prop
  | pop {g : Pool} {task : Task} {rest : List Task} (hq : g.workerQueue = task :: rest) :
      WorkerStep options g .waiting .workerRun { g with workerQueue := rest } (.start task)
  | createSandbox {g g' : Pool} {maxSandboxes : Nat} {c c' : CreatePc}
      (h : CreateStep maxSandboxes g c g' c') :
      WorkerStep options g (.create maxSandboxes c) .createSandbox g' (.create maxSandboxes c')
  | created {g : Pool} {maxSandboxes sandbox : Nat} :
      WorkerStep options g (.create maxSandboxes (.done (.ok sandbox))) .createTask
        { g with idleQueue := g.idleQueue ++ [⟨⟨sandbox, 0⟩, g.now⟩] } .waiting
  | createFailed {g : Pool} {maxSandboxes : Nat} {status : Status} :
      WorkerStep options g (.create maxSandboxes (.done (.error status))) .createTask g .waiting
  | destroy {g : Pool} {entry : PoolEntry} :
      WorkerStep options g (.destroy entry) .destroyTask
        { g with totalCount := g.totalCount - 1 } (.destroying entry)
  | reset {g : Pool} {entry : PoolEntry} :
      WorkerStep options g (.destroying entry) .destroyTask
        { g with destroyed := entry.sandbox :: g.destroyed } .waiting
  | recycleOk {g : Pool} {entry : PoolEntry} :
      WorkerStep options g (.recycle entry) .recycleTask
        { g with nextSandbox := g.nextSandbox + 1 } (.recycled entry g.nextSandbox)
  | recycleFailed {g : Pool} {entry : PoolEntry} (status : Status) :
      WorkerStep options g (.recycle entry) .recycleTask g (.destroy entry)
  | pushReplacement {g : Pool} {entry : PoolEntry} {sandbox : Nat} :
      WorkerStep options g (.recycled entry sandbox) .recycleTask
        { g with idleQueue := g.idleQueue ++ [⟨⟨sandbox, 0⟩, g.now⟩] } (.replaced entry)
  | resetReplaced {g : Pool} {entry : PoolEntry} :
      WorkerStep options g (.replaced entry) .recycleTask
        { g with destroyed := entry.sandbox :: g.destroyed } .waiting

inductive PrunerStep (options : SandboxPoolOptions) : Pool → PrunerPc → PoolEvent → Pool → PrunerPc → Prop
  | popWhenExpired {g : Pool} {item : ExpirableItem} {rest : List ExpirableItem}
      (hq : g.idleQueue = item :: rest) (hsize : options.minSandboxes < g.idleQueue.length)
      (hexpired : options.idleTimeout.reachedBy (g.now - item.lastUsed) = true) :
      PrunerStep options g .waiting .pruner { g with idleQueue := rest } (.popped item.value)
  | pushDestroy {g : Pool} {entry : PoolEntry} :
      PrunerStep options g (.popped entry) .pruner
        { g with workerQueue := g.workerQueue ++ [.destroyTask entry] } .waiting

inductive ThreadStep (options : SandboxPoolOptions) : Pool → Thread → PoolEvent → Pool → Thread → Prop
  | client {g g' : Pool} {c c' : ClientPc} {e : PoolEvent} (h : ClientStep options g c e g' c') :
      ThreadStep options g (.client c) e g' (.client c')
  | worker {g g' : Pool} {w w' : WorkerPc} {e : PoolEvent} (h : WorkerStep options g w e g' w') :
      ThreadStep options g (.worker w) e g' (.worker w')
  | pruner {g g' : Pool} {p p' : PrunerPc} {e : PoolEvent} (h : PrunerStep options g p e g' p') :
      ThreadStep options g (.pruner p) e g' (.pruner p')

/-- `absl::Now()` moves, to any time. -/
inductive Clock : Pool → PoolEvent → Pool → Prop
  | tick {g : Pool} (now : Int) : Clock g .clock { g with now := now }

def PoolStep (options : SandboxPoolOptions) : Pool × List Thread → PoolEvent → Pool × List Thread → Prop :=
  Lts.Interleave (ThreadStep options) Clock

def numWorkers (options : SandboxPoolOptions) : Nat :=
  if options.maxMaintenanceThreads = 0 then max 1 (Nat.log 2 options.maxSandboxes)
  else options.maxMaintenanceThreads

def init (options : SandboxPoolOptions) (now : Int) (clients : Nat) : Pool × List Thread :=
  (⟨now, [], List.replicate options.minSandboxes (.createTask options.minSandboxes), 0, 0, [], 0, []⟩,
    List.replicate clients (.client .idle) ++
      .pruner .waiting :: List.replicate (numWorkers options) (.worker .waiting))

/-- `SandboxPool::Create(options, factory)`. -/
def create (options : SandboxPoolOptions) (now : Int) (clients : Nat) : Except Status (Pool × List Thread) :=
  if options.minSandboxes > options.maxSandboxes then
    .error ⟨.invalidArgument, "min_sandboxes must be less than or equal to max_sandboxes."⟩
  else if options.maxSandboxes = 0 then
    .error ⟨.invalidArgument, "max_sandboxes must be greater than 0."⟩
  else .ok (init options now clients)

def Task.sandboxes : Task → List Nat
  | .createTask _ => []
  | .recycleTask entry | .destroyTask entry => [entry.sandbox]

def Task.holdsEntry : Task → Bool
  | .createTask _ => false
  | .recycleTask _ | .destroyTask _ => true

def Pool.owned (g : Pool) : List Nat :=
  g.idleQueue.map (·.value.sandbox) ++ g.handles.map (·.sandbox) ++ g.workerQueue.flatMap Task.sandboxes

def Pool.queuedEntries (g : Pool) : Nat := g.workerQueue.countP Task.holdsEntry

def CreatePc.reserved : CreatePc → Nat
  | .factory | .failed _ | .done (.ok _) => 1
  | _ => 0

def CreatePc.sandboxes : CreatePc → List Nat
  | .done (.ok sandbox) => [sandbox]
  | _ => []

def Thread.reserved : Thread → Nat
  | .client (.popped _) | .client (.releasing _ _) => 1
  | .client (.creating _ c) | .worker (.create _ c) => c.reserved
  | .worker (.destroy _) | .worker (.recycle _) | .worker (.recycled _ _) => 1
  | .pruner (.popped _) => 1
  | _ => 0

def Thread.sandboxes : Thread → List Nat
  | .client (.popped entry) | .client (.releasing entry _) => [entry.sandbox]
  | .client (.creating _ c) | .worker (.create _ c) => c.sandboxes
  | .worker (.destroy entry) | .worker (.destroying entry) | .worker (.recycle entry)
  | .worker (.replaced entry) => [entry.sandbox]
  | .worker (.recycled entry sandbox) => [entry.sandbox, sandbox]
  | .pruner (.popped entry) => [entry.sandbox]
  | _ => []

def Thread.resting : Thread → Bool
  | .client .idle | .worker .waiting | .pruner .waiting => true
  | _ => false

end SandboxedApi

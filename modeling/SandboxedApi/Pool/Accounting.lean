import Mathlib.Data.Multiset.Range
import Mathlib.Algebra.Order.Group.Multiset
import Mathlib.Tactic.Abel
import Mathlib.Tactic.SplitIfs
import Mathlib.Data.List.Perm.Basic
import SandboxedApi.Pool.Model

namespace SandboxedApi

theorem CreateStep.frame {n : Nat} {g g' : Pool} {c c' : CreatePc} (h : CreateStep n g c g' c') :
    g'.idleQueue = g.idleQueue ∧ g'.workerQueue = g.workerQueue ∧ g'.handles = g.handles ∧
      g'.activeCount = g.activeCount ∧ g'.destroyed = g.destroyed := by
  cases h <;> exact ⟨rfl, rfl, rfl, rfl, rfl⟩

theorem CreateStep.owned_eq {n : Nat} {g g' : Pool} {c c' : CreatePc} (h : CreateStep n g c g' c') :
    g'.owned = g.owned := by
  obtain ⟨hidle, hworker, hhandles, -, -⟩ := h.frame
  simp only [Pool.owned, hidle, hworker, hhandles]

theorem CreateStep.totalCount_balance {n : Nat} {g g' : Pool} {c c' : CreatePc}
    (h : CreateStep n g c g' c') (hc : c.reserved ≤ g.totalCount) :
    g'.totalCount + c.reserved = g.totalCount + c'.reserved := by
  cases h with
  | exchange _ hcount => simp [CreatePc.reserved, hcount]
  | giveBack =>
    simp only [CreatePc.reserved] at hc ⊢
    omega
  | load | exchangeFailed | full | factoryOk | factoryFailed => simp [CreatePc.reserved]

theorem CreateStep.sandboxes_balance {n : Nat} {g g' : Pool} {c c' : CreatePc}
    (h : CreateStep n g c g' c') :
    (c'.sandboxes : Multiset ℕ) + Multiset.range g.nextSandbox =
      c.sandboxes + Multiset.range g'.nextSandbox := by
  cases h with
  | factoryOk => simp [CreatePc.sandboxes, Multiset.range_succ]
  | load | exchange | exchangeFailed | full | factoryFailed | giveBack => simp [CreatePc.sandboxes]

theorem CreateStep.totalCount_le {n max : Nat} {g g' : Pool} {c c' : CreatePc}
    (h : CreateStep n g c g' c') (hn : n ≤ max) (hg : g.totalCount ≤ max) : g'.totalCount ≤ max := by
  cases h with
  | exchange hlt hcount =>
    show _ + 1 ≤ max
    omega
  | giveBack =>
    show g.totalCount - 1 ≤ max
    omega
  | load | exchangeFailed | full | factoryOk | factoryFailed => exact hg

theorem ThreadStep.totalCount_balance {options : SandboxPoolOptions} {g g' : Pool} {t t' : Thread}
    {e : PoolEvent} (h : ThreadStep options g t e g' t') (rest : Nat)
    (hg : g.owned.length + t.reserved + rest = g.totalCount) :
    g'.owned.length + t'.reserved + rest = g'.totalCount := by
  cases h with
  | client h =>
    cases h with
    | tryPop hq =>
      simp only [Pool.owned, hq, Thread.reserved, List.map_cons, List.length_append,
        List.length_cons] at hg ⊢
      omega
    | createSandbox hc =>
      have hbal := hc.totalCount_balance (by simp only [Thread.reserved] at hg; omega)
      simp only [hc.owned_eq, Thread.reserved] at hg ⊢
      omega
    | release hentry =>
      have hlen := List.length_erase_of_mem hentry
      have hpos := List.length_pos_of_mem hentry
      simp only [Pool.owned, Thread.reserved, List.length_append, List.length_map, hlen] at hg ⊢
      omega
    | tryPopEmpty | handOut | created | createFailed | wait | popWithDeadline | deadlineExceeded
    | pushRecycle | pushIdle =>
      simp_all [Pool.owned, Thread.reserved, CreatePc.reserved, Task.sandboxes] <;> omega
  | worker h =>
    cases h with
    | pop hq =>
      rename_i task rest'
      cases task <;>
        simp_all [Pool.owned, Thread.reserved, WorkerPc.start, CreatePc.reserved, Task.sandboxes] <;>
        omega
    | createSandbox hc =>
      have hbal := hc.totalCount_balance (by simp only [Thread.reserved] at hg; omega)
      simp only [hc.owned_eq, Thread.reserved] at hg ⊢
      omega
    | created | createFailed | destroy | reset | recycleOk | recycleFailed | pushReplacement
    | resetReplaced =>
      simp_all [Pool.owned, Thread.reserved, CreatePc.reserved] <;> omega
  | pruner h =>
    cases h with
    | popWhenExpired hq =>
      simp only [Pool.owned, hq, Thread.reserved, List.map_cons, List.length_append,
        List.length_cons] at hg ⊢
      omega
    | pushDestroy =>
      simp_all [Pool.owned, Thread.reserved, Task.sandboxes]
      omega

def Pool.held (g : Pool) : Multiset ℕ := ↑(g.owned ++ g.destroyed)

def Thread.heldBy (t : Thread) : Multiset ℕ := ↑t.sandboxes

theorem sum_heldBy (ts : List Thread) : (ts.map Thread.heldBy).sum = ↑(ts.flatMap Thread.sandboxes) := by
  induction ts with
  | nil => rfl
  | cons t ts ih => simp [Thread.heldBy, ih]

theorem Pool.held_eq (g : Pool) :
    g.held = ↑(g.idleQueue.map (·.value.sandbox)) + ↑(g.handles.map (·.sandbox)) +
      ↑(g.workerQueue.flatMap Task.sandboxes) + ↑g.destroyed := by
  simp only [Pool.held, Pool.owned, Multiset.coe_add]

theorem ThreadStep.held_balance {options : SandboxPoolOptions} {g g' : Pool} {t t' : Thread}
    {e : PoolEvent} (h : ThreadStep options g t e g' t') :
    g'.held + t'.heldBy + Multiset.range g.nextSandbox =
      g.held + t.heldBy + Multiset.range g'.nextSandbox := by
  cases h with
  | client h =>
    cases h with
    | createSandbox hc =>
      obtain ⟨hidle, hworker, hhandles, -, hdestroyed⟩ := hc.frame
      simp only [Pool.held_eq, hidle, hworker, hhandles, hdestroyed, Thread.heldBy,
        Thread.sandboxes, add_assoc, hc.sandboxes_balance]
    | release hentry =>
      have hperm := Multiset.coe_eq_coe.mpr ((List.perm_cons_erase hentry).map (·.sandbox))
      simp only [Pool.held_eq, Thread.heldBy, Thread.sandboxes, hperm, List.map_cons,
        ← Multiset.cons_coe, ← Multiset.singleton_add, Multiset.coe_nil, add_zero]
      abel
    | tryPop hq | popWithDeadline hq =>
      simp only [Pool.held_eq, hq, Thread.heldBy, Thread.sandboxes, List.map_cons,
        ← Multiset.cons_coe, ← Multiset.singleton_add, Multiset.coe_nil, add_zero]
      abel
    | handOut | created | pushRecycle | pushIdle =>
      simp only [Pool.held_eq, Thread.heldBy, Thread.sandboxes, CreatePc.sandboxes, Task.sandboxes,
        List.map_cons, List.map_append, List.map_nil, List.flatMap_append, List.flatMap_cons,
        List.flatMap_nil, ← Multiset.coe_add, ← Multiset.cons_coe, ← Multiset.singleton_add,
        Multiset.coe_nil, add_zero]
      abel
    | tryPopEmpty | createFailed | wait | deadlineExceeded =>
      simp only [Thread.heldBy, Thread.sandboxes, CreatePc.sandboxes]
  | worker h =>
    cases h with
    | pop hq =>
      rename_i task rest
      cases task <;>
        simp only [Pool.held_eq, hq, Thread.heldBy, Thread.sandboxes, CreatePc.sandboxes,
          Task.sandboxes, WorkerPc.start, List.flatMap_cons, ← Multiset.coe_add,
          ← Multiset.cons_coe, ← Multiset.singleton_add, Multiset.coe_nil, add_zero] <;>
        abel
    | createSandbox hc =>
      obtain ⟨hidle, hworker, hhandles, -, hdestroyed⟩ := hc.frame
      simp only [Pool.held_eq, hidle, hworker, hhandles, hdestroyed, Thread.heldBy,
        Thread.sandboxes, add_assoc, hc.sandboxes_balance]
    | recycleOk =>
      simp only [Pool.held_eq, Thread.heldBy, Thread.sandboxes, Multiset.range_succ, ← Multiset.cons_coe,
        ← Multiset.singleton_add, Multiset.coe_nil, add_zero]
      abel
    | created | pushReplacement | reset | resetReplaced =>
      simp only [Pool.held_eq, Thread.heldBy, Thread.sandboxes, CreatePc.sandboxes,
        List.map_append, List.map_cons, List.map_nil, ← Multiset.coe_add, ← Multiset.cons_coe,
        ← Multiset.singleton_add, Multiset.coe_nil, add_zero]
      abel
    | createFailed | destroy | recycleFailed =>
      simp only [Pool.held_eq, Thread.heldBy, Thread.sandboxes, CreatePc.sandboxes]
  | pruner h =>
    cases h with
    | popWhenExpired hq =>
      simp only [Pool.held_eq, hq, Thread.heldBy, Thread.sandboxes, List.map_cons,
        ← Multiset.cons_coe, ← Multiset.singleton_add, Multiset.coe_nil, add_zero]
      abel
    | pushDestroy =>
      simp only [Pool.held_eq, Thread.heldBy, Thread.sandboxes, Task.sandboxes,
        List.flatMap_append, List.flatMap_cons, List.flatMap_nil, ← Multiset.coe_add,
        ← Multiset.cons_coe, ← Multiset.singleton_add, Multiset.coe_nil, add_zero]
      abel

theorem ThreadStep.activeCount_eq {options : SandboxPoolOptions} {g g' : Pool} {t t' : Thread}
    {e : PoolEvent} (h : ThreadStep options g t e g' t') (hact : g.activeCount = g.handles.length) :
    g'.activeCount = g'.handles.length := by
  cases h with
  | client h =>
    cases h with
    | handOut | created => simp [hact]
    | release hentry =>
      show g.activeCount - 1 = (g.handles.erase _).length
      rw [List.length_erase_of_mem hentry, hact]
    | createSandbox hc =>
      obtain ⟨-, -, hhandles, hactive, -⟩ := hc.frame
      rw [hactive, hhandles, hact]
    | tryPop | tryPopEmpty | createFailed | wait | popWithDeadline | deadlineExceeded
    | pushRecycle | pushIdle => exact hact
  | worker h =>
    cases h with
    | createSandbox hc =>
      obtain ⟨-, -, hhandles, hactive, -⟩ := hc.frame
      rw [hactive, hhandles, hact]
    | pop | created | createFailed | destroy | reset | recycleOk | recycleFailed | pushReplacement
    | resetReplaced => exact hact
  | pruner h => cases h <;> exact hact

def Task.Bounded (max : Nat) : Task → Prop
  | .createTask maxSandboxes => maxSandboxes ≤ max
  | _ => True

def Thread.Bounded (max : Nat) : Thread → Prop
  | .worker (.create maxSandboxes _) => maxSandboxes ≤ max
  | _ => True

/-- `total_count_` within `max_sandboxes`, and every `CreateTask` queued with a bound within it. -/
def Pool.Bounded (max : Nat) (g : Pool) : Prop :=
  g.totalCount ≤ max ∧ ∀ task ∈ g.workerQueue, task.Bounded max

theorem ThreadStep.bounded {options : SandboxPoolOptions} {g g' : Pool} {t t' : Thread}
    {e : PoolEvent} (h : ThreadStep options g t e g' t') (hg : g.Bounded options.maxSandboxes)
    (ht : t.Bounded options.maxSandboxes) :
    g'.Bounded options.maxSandboxes ∧ t'.Bounded options.maxSandboxes := by
  obtain ⟨htotal, htasks⟩ := hg
  cases h with
  | client h =>
    cases h with
    | createSandbox hc =>
      obtain ⟨-, hworker, -, -, -⟩ := hc.frame
      exact ⟨⟨hc.totalCount_le le_rfl htotal, hworker ▸ htasks⟩, trivial⟩
    | pushRecycle =>
      refine ⟨⟨htotal, fun task htask => ?_⟩, trivial⟩
      rcases List.mem_append.mp htask with htask | htask
      · exact htasks task htask
      · simp only [List.mem_singleton] at htask
        subst htask
        trivial
    | tryPop | tryPopEmpty | handOut | created | createFailed | wait | popWithDeadline
    | deadlineExceeded | release | pushIdle => exact ⟨⟨htotal, htasks⟩, trivial⟩
  | worker h =>
    cases h with
    | pop hq =>
      rename_i task rest
      have hhead := htasks task (by simp [hq])
      refine ⟨⟨htotal, fun task' htask' => htasks task' (by simp [hq, htask'])⟩, ?_⟩
      cases task with
      | createTask n => exact hhead
      | recycleTask | destroyTask => trivial
    | createSandbox hc =>
      obtain ⟨-, hworker, -, -, -⟩ := hc.frame
      exact ⟨⟨hc.totalCount_le ht htotal, hworker ▸ htasks⟩, ht⟩
    | destroy =>
      refine ⟨⟨?_, htasks⟩, trivial⟩
      show g.totalCount - 1 ≤ _
      omega
    | created | createFailed | reset | recycleOk | recycleFailed | pushReplacement
    | resetReplaced => exact ⟨⟨htotal, htasks⟩, trivial⟩
  | pruner h =>
    cases h with
    | popWhenExpired => exact ⟨⟨htotal, htasks⟩, trivial⟩
    | pushDestroy =>
      refine ⟨⟨htotal, fun task htask => ?_⟩, trivial⟩
      rcases List.mem_append.mp htask with htask | htask
      · exact htasks task htask
      · simp only [List.mem_singleton] at htask
        subst htask
        trivial

structure PoolInvariant (options : SandboxPoolOptions) (s : Pool × List Thread) : Prop where
  totalCount : s.1.owned.length + (s.2.map Thread.reserved).sum = s.1.totalCount
  held : s.1.held + (s.2.map Thread.heldBy).sum = Multiset.range s.1.nextSandbox
  bounded : s.1.Bounded options.maxSandboxes ∧ ∀ t ∈ s.2, t.Bounded options.maxSandboxes
  activeCount : s.1.activeCount = s.1.handles.length

theorem PoolInvariant.step {options : SandboxPoolOptions} {s s' : Pool × List Thread}
    {e : PoolEvent} (hs : PoolInvariant options s) (h : PoolStep options s e s') :
    PoolInvariant options s' where
  totalCount := Lts.Interleave.sum_eq
    (fun _ _ _ _ _ rest hstep hg => hstep.totalCount_balance rest hg)
    (fun _ _ _ _ hclock hg => by cases hclock; exact hg) h hs.totalCount
  held := Lts.Interleave.sum_eq_of_balance (fun _ _ _ _ _ hstep => hstep.held_balance)
    (fun _ _ _ hclock => by cases hclock; rfl) h hs.held
  bounded := Lts.Interleave.forall_mem (fun _ _ _ _ _ hstep hg ht => hstep.bounded hg ht)
    (fun _ _ _ hclock hg => by cases hclock; exact hg) h hs.bounded
  activeCount := (Lts.Interleave.forall_mem (P := fun _ => True)
    (fun _ _ _ _ _ hstep hg _ => ⟨hstep.activeCount_eq hg, trivial⟩)
    (fun _ _ _ hclock hg => by cases hclock; exact hg) h ⟨hs.activeCount, fun _ _ => trivial⟩).1

theorem flatMap_sandboxes_replicate (n maxSandboxes : Nat) :
    (List.replicate n (Task.createTask maxSandboxes)).flatMap Task.sandboxes = [] := by
  induction n with
  | zero => rfl
  | succ n ih => simp [List.replicate_succ, Task.sandboxes, ih]

theorem poolInvariant_create {options : SandboxPoolOptions} {now : Int} {clients : Nat}
    {s : Pool × List Thread} (hcreate : create options now clients = .ok s) :
    PoolInvariant options s := by
  unfold create at hcreate
  split_ifs at hcreate with hmin hmax
  cases hcreate
  have hle : options.minSandboxes ≤ options.maxSandboxes := Nat.le_of_not_gt hmin
  refine ⟨?_, ?_, ⟨⟨Nat.zero_le _, fun task htask => ?_⟩, fun t ht => ?_⟩, rfl⟩
  · simp [init, Pool.owned, flatMap_sandboxes_replicate, List.sum_replicate, Thread.reserved]
  · simp [init, Pool.held, Pool.owned, flatMap_sandboxes_replicate, List.sum_replicate,
      Thread.heldBy, Thread.sandboxes]
  · obtain ⟨-, rfl⟩ := List.mem_replicate.mp htask
    exact hle
  · simp only [init, List.mem_append, List.mem_replicate, List.mem_cons] at ht
    rcases ht with ⟨-, rfl⟩ | rfl | ⟨-, rfl⟩ <;> trivial

theorem PoolInvariant.run {options : SandboxPoolOptions} {now : Int} {clients : Nat}
    {s₀ s : Pool × List Thread} {es : List PoolEvent} (hcreate : create options now clients = .ok s₀)
    (hrun : Lts.Run (PoolStep options) s₀ es s) : PoolInvariant options s :=
  hrun.invariant (fun _ _ _ hs h => hs.step h) (poolInvariant_create hcreate)

def Pool.UsageBelow (bound : Nat) (g : Pool) : Prop :=
  (∀ item ∈ g.idleQueue, item.value.usageCount < bound) ∧ ∀ entry ∈ g.handles, entry.usageCount < bound

def Thread.UsageBelow (bound : Nat) : Thread → Prop
  | .client (.popped entry) | .client (.releasing entry false) => entry.usageCount < bound
  | _ => True

theorem usageBelow_append {bound : Nat} {items : List ExpirableItem} {item : ExpirableItem}
    (hitems : ∀ i ∈ items, i.value.usageCount < bound) (hitem : item.value.usageCount < bound) :
    ∀ i ∈ items ++ [item], i.value.usageCount < bound := by
  intro i hi
  rcases List.mem_append.mp hi with hi | hi
  · exact hitems i hi
  · rw [List.mem_singleton.mp hi]
    exact hitem

theorem ThreadStep.usageBelow {options : SandboxPoolOptions} {g g' : Pool} {t t' : Thread}
    {e : PoolEvent} (h : ThreadStep options g t e g' t')
    (hg : g.UsageBelow (max 1 options.maxSandboxReuse))
    (ht : t.UsageBelow (max 1 options.maxSandboxReuse)) :
    g'.UsageBelow (max 1 options.maxSandboxReuse) ∧ t'.UsageBelow (max 1 options.maxSandboxReuse) := by
  obtain ⟨hidle, hhandles⟩ := hg
  have hfresh : (0 : Nat) < max 1 options.maxSandboxReuse := by omega
  cases h with
  | client h =>
    cases h with
    | tryPop hq | popWithDeadline hq =>
      rw [hq] at hidle
      exact ⟨⟨fun i hi => hidle i (List.mem_cons_of_mem _ hi), hhandles⟩, hidle _ List.mem_cons_self⟩
    | handOut =>
      refine ⟨⟨hidle, fun entry hentry => ?_⟩, trivial⟩
      rcases List.mem_cons.mp hentry with rfl | hentry
      · exact ht
      · exact hhandles entry hentry
    | created =>
      refine ⟨⟨hidle, fun entry hentry => ?_⟩, trivial⟩
      rcases List.mem_cons.mp hentry with rfl | hentry
      · exact hfresh
      · exact hhandles entry hentry
    | createSandbox hc =>
      obtain ⟨hidle', -, hhandles', -, -⟩ := hc.frame
      exact ⟨⟨hidle' ▸ hidle, hhandles' ▸ hhandles⟩, trivial⟩
    | release hentry =>
      refine ⟨⟨hidle, fun entry' hentry' => hhandles entry' (List.mem_of_mem_erase hentry')⟩, ?_⟩
      cases hrecycle : decide (options.maxSandboxReuse ≤ _ + 1)
      · have hlt := of_decide_eq_false hrecycle
        show _ + 1 < max 1 options.maxSandboxReuse
        omega
      · trivial
    | pushIdle => exact ⟨⟨usageBelow_append hidle ht, hhandles⟩, trivial⟩
    | tryPopEmpty | createFailed | wait | deadlineExceeded | pushRecycle =>
      exact ⟨⟨hidle, hhandles⟩, trivial⟩
  | worker h =>
    cases h with
    | createSandbox hc =>
      obtain ⟨hidle', -, hhandles', -, -⟩ := hc.frame
      exact ⟨⟨hidle' ▸ hidle, hhandles' ▸ hhandles⟩, trivial⟩
    | created | pushReplacement => exact ⟨⟨usageBelow_append hidle hfresh, hhandles⟩, trivial⟩
    | pop | createFailed | destroy | reset | recycleOk | recycleFailed | resetReplaced =>
      exact ⟨⟨hidle, hhandles⟩, trivial⟩
  | pruner h =>
    cases h with
    | popWhenExpired hq =>
      rw [hq] at hidle
      exact ⟨⟨fun i hi => hidle i (List.mem_cons_of_mem _ hi), hhandles⟩, trivial⟩
    | pushDestroy => exact ⟨⟨hidle, hhandles⟩, trivial⟩

/-- Over every interleaving, no sandbox the pool can hand out has been released
`max(1, max_sandbox_reuse)` times: every idle entry and every handle's entry has been released
fewer times, so each sandbox serves at most `max(1, max_sandbox_reuse)` acquisitions. -/
theorem sandboxPool_reuse_bound {options : SandboxPoolOptions} {now : Int} {clients : Nat}
    {s₀ s : Pool × List Thread} {es : List PoolEvent}
    (hcreate : create options now clients = .ok s₀) (hrun : Lts.Run (PoolStep options) s₀ es s) :
    (∀ item ∈ s.1.idleQueue, item.value.usageCount < max 1 options.maxSandboxReuse) ∧
      ∀ entry ∈ s.1.handles, entry.usageCount < max 1 options.maxSandboxReuse := by
  have hinit : s₀.1.UsageBelow (max 1 options.maxSandboxReuse) ∧
      ∀ t ∈ s₀.2, t.UsageBelow (max 1 options.maxSandboxReuse) := by
    unfold create at hcreate
    split_ifs at hcreate
    cases hcreate
    refine ⟨⟨(fun _ h => nomatch h), (fun _ h => nomatch h)⟩, fun t ht => ?_⟩
    simp only [init, List.mem_append, List.mem_replicate, List.mem_cons] at ht
    rcases ht with ⟨-, rfl⟩ | rfl | ⟨-, rfl⟩ <;> trivial
  have hstep : ∀ s e s', (s.1.UsageBelow (max 1 options.maxSandboxReuse) ∧
      ∀ t ∈ s.2, t.UsageBelow (max 1 options.maxSandboxReuse)) → PoolStep options s e s' →
      s'.1.UsageBelow (max 1 options.maxSandboxReuse) ∧
        ∀ t ∈ s'.2, t.UsageBelow (max 1 options.maxSandboxReuse) :=
    fun _ _ _ hs h => Lts.Interleave.forall_mem (fun _ _ _ _ _ hstep hg ht => hstep.usageBelow hg ht)
      (fun _ _ _ hclock hg => by cases hclock; exact hg) h hs
  exact (hrun.invariant hstep hinit).1

/-- A run with `max_sandbox_reuse` 2: a client acquires a new sandbox and releases it once, and
the sandbox goes back to the idle queue. -/
theorem sandboxPool_reuse_bound_released :
    create { minSandboxes := 0, maxSandboxes := 1, maxSandboxReuse := 2, maxMaintenanceThreads := 1 } 0 1 =
      .ok (init { minSandboxes := 0, maxSandboxes := 1, maxSandboxReuse := 2, maxMaintenanceThreads := 1 } 0 1) ∧
    Lts.Run (PoolStep { minSandboxes := 0, maxSandboxes := 1, maxSandboxReuse := 2, maxMaintenanceThreads := 1 })
      (init { minSandboxes := 0, maxSandboxes := 1, maxSandboxReuse := 2, maxMaintenanceThreads := 1 } 0 1)
      [.acquire, .createSandbox, .createSandbox, .createSandbox, .acquire, .release, .release]
      (⟨0, [⟨⟨0, 1⟩, 0⟩], [], 0, 1, [], 1, []⟩, [.client .idle, .pruner .waiting, .worker .waiting]) ∧
    (∀ item ∈ [(⟨⟨0, 1⟩, 0⟩ : ExpirableItem)], item.value.usageCount < max 1 2) ∧
      ∀ entry ∈ ([] : List PoolEntry), entry.usageCount < max 1 2 :=
  have hcreate :
      create { minSandboxes := 0, maxSandboxes := 1, maxSandboxReuse := 2, maxMaintenanceThreads := 1 } 0 1 =
        .ok (init { minSandboxes := 0, maxSandboxes := 1, maxSandboxReuse := 2, maxMaintenanceThreads := 1 } 0 1) :=
    rfl
  have hrun :
      Lts.Run (PoolStep { minSandboxes := 0, maxSandboxes := 1, maxSandboxReuse := 2, maxMaintenanceThreads := 1 })
      (init { minSandboxes := 0, maxSandboxes := 1, maxSandboxReuse := 2, maxMaintenanceThreads := 1 } 0 1)
      [.acquire, .createSandbox, .createSandbox, .createSandbox, .acquire, .release, .release]
      (⟨0, [⟨⟨0, 1⟩, 0⟩], [], 0, 1, [], 1, []⟩, [.client .idle, .pruner .waiting, .worker .waiting]) :=
    .cons (.thread [] _ (.client (.tryPopEmpty (.infinite false) rfl)))
      (.cons (.thread [] _ (.client (.createSandbox .load)))
        (.cons (.thread [] _ (.client (.createSandbox (.exchange (by decide) rfl))))
          (.cons (.thread [] _ (.client (.createSandbox .factoryOk)))
            (.cons (.thread [] _ (.client .created))
              (.cons (.thread [] _ (.client (.release List.mem_cons_self)))
                (.cons (.thread [] _ (.client .pushIdle)) (.nil _)))))))
  ⟨hcreate, hrun, sandboxPool_reuse_bound hcreate hrun⟩

theorem Pool.queuedEntries_eq (g : Pool) :
    g.queuedEntries = (g.workerQueue.flatMap Task.sandboxes).length := by
  unfold Pool.queuedEntries
  induction g.workerQueue with
  | nil => rfl
  | cons task tasks ih =>
    rw [List.countP_cons, List.flatMap_cons, List.length_append, ih]
    generalize (tasks.flatMap Task.sandboxes).length = k
    cases task <;> simp [Task.holdsEntry, Task.sandboxes, Nat.add_comm]

theorem Thread.reserved_of_resting {t : Thread} (h : t.resting = true) : t.reserved = 0 := by
  rcases t with (_ | _ | _ | _ | _) | (_ | _ | _ | _ | _ | _ | _) | (_ | _) <;>
    simp_all [Thread.resting, Thread.reserved]

theorem Thread.sandboxes_of_resting {t : Thread} (h : t.resting = true) : t.sandboxes = [] := by
  rcases t with (_ | _ | _ | _ | _) | (_ | _ | _ | _ | _ | _ | _) | (_ | _) <;>
    simp_all [Thread.resting, Thread.sandboxes]

theorem count_of_perm_range {held destroyed : List ℕ} {n : ℕ}
    (h : (held ++ destroyed).Perm (List.range n)) (a : ℕ) :
    held.count a = if a < n ∧ a ∉ destroyed then 1 else 0 := by
  have hcount := h.count_eq a
  rw [List.count_append] at hcount
  have hrange : (List.range n).count a = if a < n then 1 else 0 := by
    split_ifs with ha
    · exact List.count_eq_one_of_mem List.nodup_range (List.mem_range.mpr ha)
    · exact List.count_eq_zero.mpr (by simpa using ha)
  by_cases hd : a ∈ destroyed
  · -- a destroyed sandbox is in the range once, and that once is the destroyed list's
    have hpos := List.count_pos_iff.mpr hd
    have hlt : a < n := List.mem_range.mp (h.subset (List.mem_append_right _ hd))
    rw [hrange, if_pos hlt] at hcount
    rw [if_neg (fun hh => hh.2 hd)]
    omega
  · rw [List.count_eq_zero.mpr hd, hrange] at hcount
    simpa [hd] using hcount

/-- Over every interleaving of the pool's threads from the pool `Create` returns:
`total_count_` stays within `max_sandboxes`; it is the idle sandboxes, the active ones, the
queued `RecycleTask`s and `DestroyTask`s and what the threads inside the pool's functions
account for; and every sandbox the factory made is held exactly once by the idle queue, a
handle, a queued task or a thread, or is destroyed. When every thread is outside the pool's
functions, `total_count_` is the first three alone, and each sandbox not destroyed is held by
exactly one of the idle queue, a handle and a queued task, and each destroyed one by none. -/
theorem sandboxPool_accounting {options : SandboxPoolOptions} {now : Int} {clients : Nat}
    {s₀ s : Pool × List Thread} {es : List PoolEvent}
    (hcreate : create options now clients = .ok s₀) (hrun : Lts.Run (PoolStep options) s₀ es s) :
    s.1.totalCount ≤ options.maxSandboxes ∧
    s.1.totalCount = s.1.availableCount + s.1.activeCount + s.1.queuedEntries +
      (s.2.map Thread.reserved).sum ∧
    (s.1.owned ++ s.2.flatMap Thread.sandboxes ++ s.1.destroyed).Perm (List.range s.1.nextSandbox) ∧
    ((∀ t ∈ s.2, t.resting = true) →
      s.1.totalCount = s.1.availableCount + s.1.activeCount + s.1.queuedEntries ∧
      ∀ sandbox, s.1.owned.count sandbox =
        if sandbox < s.1.nextSandbox ∧ sandbox ∉ s.1.destroyed then 1 else 0) := by
  have hinv := PoolInvariant.run hcreate hrun
  have htotal : s.1.totalCount = s.1.availableCount + s.1.activeCount + s.1.queuedEntries +
      (s.2.map Thread.reserved).sum := by
    have h := hinv.totalCount
    simp only [Pool.owned, List.length_append, List.length_map] at h
    rw [Pool.availableCount, hinv.activeCount, Pool.queuedEntries_eq]
    omega
  have hperm : (s.1.owned ++ s.2.flatMap Thread.sandboxes ++ s.1.destroyed).Perm
      (List.range s.1.nextSandbox) := by
    have h := hinv.held
    rw [Pool.held, sum_heldBy, ← Multiset.coe_range] at h
    rw [← Multiset.coe_eq_coe, ← h]
    simp only [← Multiset.coe_add]
    abel
  refine ⟨hinv.bounded.1.1, htotal, hperm, fun hresting => ⟨?_, fun sandbox => ?_⟩⟩
  · have hzero : (s.2.map Thread.reserved).sum = 0 :=
      List.sum_eq_zero fun x hx => by
        obtain ⟨t, ht, rfl⟩ := List.mem_map.mp hx
        exact Thread.reserved_of_resting (hresting t ht)
    omega
  · have hnil : s.2.flatMap Thread.sandboxes = [] :=
      List.flatMap_eq_nil_iff.mpr fun t ht => Thread.sandboxes_of_resting (hresting t ht)
    rw [hnil, List.append_nil] at hperm
    exact count_of_perm_range hperm sandbox

theorem run_reserving :
    Lts.Run (PoolStep { minSandboxes := 0, maxSandboxes := 1, maxMaintenanceThreads := 1 })
      (init { minSandboxes := 0, maxSandboxes := 1, maxMaintenanceThreads := 1 } 0 1)
      [.acquire, .createSandbox, .createSandbox]
      (⟨0, [], [], 0, 1, [], 0, []⟩,
        [.client (.creating .infiniteFuture .factory), .pruner .waiting, .worker .waiting]) :=
  .cons (.thread [] _ (.client (.tryPopEmpty (.infinite false) rfl)))
    (.cons (.thread [] _ (.client (.createSandbox .load)))
      (.cons (.thread [] _ (.client (.createSandbox (.exchange (by decide) rfl)))) (.nil _)))

theorem sandboxPool_accounting_reserving :
    create { minSandboxes := 0, maxSandboxes := 1, maxMaintenanceThreads := 1 } 0 1 =
      .ok (init { minSandboxes := 0, maxSandboxes := 1, maxMaintenanceThreads := 1 } 0 1) ∧
    Lts.Run (PoolStep { minSandboxes := 0, maxSandboxes := 1, maxMaintenanceThreads := 1 })
      (init { minSandboxes := 0, maxSandboxes := 1, maxMaintenanceThreads := 1 } 0 1)
      [.acquire, .createSandbox, .createSandbox]
      (⟨0, [], [], 0, 1, [], 0, []⟩,
        [.client (.creating .infiniteFuture .factory), .pruner .waiting, .worker .waiting]) ∧
    1 ≤ 1 ∧ 1 = 0 + 0 + 0 + [1, 0, 0].sum ∧ ([] : List ℕ).Perm (List.range 0) ∧
    ((∀ t ∈ [Thread.client (.creating .infiniteFuture .factory), .pruner .waiting, .worker .waiting],
        t.resting = true) →
      1 = 0 + 0 + 0 ∧ ∀ sandbox, ([] : List ℕ).count sandbox =
        if sandbox < 0 ∧ sandbox ∉ ([] : List ℕ) then 1 else 0) :=
  have hcreate : create { minSandboxes := 0, maxSandboxes := 1, maxMaintenanceThreads := 1 } 0 1 =
      .ok (init { minSandboxes := 0, maxSandboxes := 1, maxMaintenanceThreads := 1 } 0 1) := rfl
  ⟨hcreate, run_reserving, sandboxPool_accounting hcreate run_reserving⟩

/-- `Acquire` inside `CreateSandbox`, with its slot reserved and the factory running, while no
maintenance task runs: `total_count_` counts a sandbox that neither queue nor any handle holds. -/
theorem acquire_reservation_unaccounted :
    create { minSandboxes := 0, maxSandboxes := 1, maxMaintenanceThreads := 1 } 0 1 =
      .ok (init { minSandboxes := 0, maxSandboxes := 1, maxMaintenanceThreads := 1 } 0 1) ∧
    ∃ s, Lts.Run (PoolStep { minSandboxes := 0, maxSandboxes := 1, maxMaintenanceThreads := 1 })
        (init { minSandboxes := 0, maxSandboxes := 1, maxMaintenanceThreads := 1 } 0 1)
        [.acquire, .createSandbox, .createSandbox] s ∧
      (∀ w, Thread.worker w ∈ s.2 → (Thread.worker w).resting = true) ∧
      s.1.totalCount ≠ s.1.availableCount + s.1.activeCount + s.1.queuedEntries := by
  refine ⟨rfl, (⟨0, [], [], 0, 1, [], 0, []⟩,
    [.client (.creating .infiniteFuture .factory), .pruner .waiting, .worker .waiting]), ?_, ?_, by decide⟩
  · exact run_reserving
  · intro w hw
    simp only [List.mem_cons, List.not_mem_nil, or_false, reduceCtorEq, false_or, Thread.worker.injEq] at hw
    subst hw
    rfl

end SandboxedApi

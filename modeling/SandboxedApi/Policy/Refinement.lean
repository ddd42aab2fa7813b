import SandboxedApi.Policy.Rules
import SandboxedApi.Policy.Builder
import SandboxedApi.Policy.DefaultVerdict

namespace SandboxedApi

namespace BuilderCall

def userRules : BuilderCall → List Rule
  | .allowSyscall num => [.syscall num allow.k]
  | .blockSyscallWithErrno num error => [.syscall num (errno error).k]
  | .trapPtrace => [.syscall nrPtrace (trap 0).k]
  | .addPolicyOnSyscalls nums policy => [.onSyscalls nums (policy.map rewriteTrace)]
  | _ => []

def overridableRules : BuilderCall → List Rule
  | .overridableAddPolicyOnSyscalls nums policy => [.onSyscalls nums (policy.map rewriteTrace)]
  | .overridableBlockSyscallWithErrno num error => [.syscall num (errno error).k]
  | _ => []

def defaultAction : BuilderCall → Option SockFilter
  | .defaultActionAllowAll => some allow
  | .defaultActionTraceAll => some sandbox2Trace
  | _ => none

def shortDispatch : BuilderCall → Bool
  | .addPolicyOnSyscalls nums _ => decide (nums.length ≤ kMaxShortJump)
  | .overridableAddPolicyOnSyscalls nums _ => decide (nums.length ≤ kMaxShortJump)
  | _ => true

end BuilderCall

def ruleList (calls : List BuilderCall) : List Rule :=
  calls.flatMap BuilderCall.userRules ++
    ((calls.filterMap BuilderCall.defaultAction).getLast?.map fun f => Rule.action f.k).toList ++
    calls.flatMap BuilderCall.overridableRules

def referenceVerdict (calls : List BuilderCall) (data : SeccompData) : Except EvalError UInt32 :=
  (runRules data Carry.init (ruleList calls)).verdict seccompRetKill

structure Refines (calls : List BuilderCall) (b : PolicyBuilder) : Prop where
  user : ∀ d, Implements d b.userPolicy (calls.flatMap BuilderCall.userRules)
  overridable : ∀ d, Implements d b.overridablePolicy (calls.flatMap BuilderCall.overridableRules)
  defaultAction : b.defaultAction = (calls.filterMap BuilderCall.defaultAction).getLast?
  handled : ∀ d : SeccompData, d.nr ∈ b.handledSyscalls →
    Stops d (calls.flatMap BuilderCall.userRules)
  allowed : ∀ n ∈ b.allowedSyscalls, n ∈ b.handledSyscalls
  blocked : ∀ n ∈ b.blockedSyscalls, n ∈ b.handledSyscalls

namespace Refines

variable {calls : List BuilderCall} {b b' : PolicyBuilder} {c : BuilderCall}

theorem init : Refines [] PolicyBuilder.init where
  user _ := implements_nil
  overridable _ := implements_nil
  defaultAction := rfl
  handled _ h := absurd h List.not_mem_nil
  allowed _ h := absurd h List.not_mem_nil
  blocked _ h := absurd h List.not_mem_nil

theorem grow (h : Refines calls b) (hover : c.overridableRules = []) (hdef : c.defaultAction = none)
    (huser : ∀ d, Implements d b'.userPolicy (calls.flatMap BuilderCall.userRules ++ c.userRules))
    (hhandled : ∀ d : SeccompData, d.nr ∈ b'.handledSyscalls →
      Stops d (calls.flatMap BuilderCall.userRules ++ c.userRules))
    (hallowed : ∀ n ∈ b'.allowedSyscalls, n ∈ b'.handledSyscalls)
    (hblocked : ∀ n ∈ b'.blockedSyscalls, n ∈ b'.handledSyscalls)
    (hpolicy : b'.overridablePolicy = b.overridablePolicy)
    (haction : b'.defaultAction = b.defaultAction) : Refines (calls ++ [c]) b' where
  user := by simpa only [List.flatMap_append, List.flatMap_singleton] using huser
  overridable := by
    simpa only [List.flatMap_append, List.flatMap_singleton, hover, List.append_nil, hpolicy]
      using h.overridable
  defaultAction := by simp [List.filterMap_append, hdef, haction, h.defaultAction]
  handled := by simpa only [List.flatMap_append, List.flatMap_singleton] using hhandled
  allowed := hallowed
  blocked := hblocked

theorem extend {block : List SockFilter} (h : Refines calls b) (huser : c.userRules = [])
    (hdef : c.defaultAction = none) (hblock : ∀ d, Implements d block c.overridableRules) :
    Refines (calls ++ [c]) { b with overridablePolicy := b.overridablePolicy ++ block } where
  user := by simpa only [List.flatMap_append, List.flatMap_singleton, huser, List.append_nil]
    using h.user
  overridable d := by
    simpa only [List.flatMap_append, List.flatMap_singleton] using (h.overridable d).append (hblock d)
  defaultAction := by simp [List.filterMap_append, hdef, h.defaultAction]
  handled := by simpa only [List.flatMap_append, List.flatMap_singleton, huser, List.append_nil]
    using h.handled
  allowed := h.allowed
  blocked := h.blocked

theorem frame (h : Refines calls b) (huser : c.userRules = []) (hover : c.overridableRules = [])
    (hdef : c.defaultAction = none) (hu : b'.userPolicy = b.userPolicy)
    (ho : b'.overridablePolicy = b.overridablePolicy) (ha : b'.defaultAction = b.defaultAction)
    (hh : b'.handledSyscalls = b.handledSyscalls) (hal : b'.allowedSyscalls = b.allowedSyscalls)
    (hbl : b'.blockedSyscalls = b.blockedSyscalls) : Refines (calls ++ [c]) b' :=
  h.grow hover hdef (fun d => by simpa [huser, hu] using h.user d)
    (fun d hd => by simpa [huser] using h.handled d (hh ▸ hd))
    (fun n hn => hh ▸ h.allowed n (hal ▸ hn)) (fun n hn => hh ▸ h.blocked n (hbl ▸ hn)) ho ha

theorem setDefault {f : SockFilter} (h : Refines calls b) (huser : c.userRules = [])
    (hover : c.overridableRules = []) (hdef : c.defaultAction = some f) :
    Refines (calls ++ [c]) { b with defaultAction := some f } where
  user := by simpa only [List.flatMap_append, List.flatMap_singleton, huser, List.append_nil]
    using h.user
  overridable := by
    simpa only [List.flatMap_append, List.flatMap_singleton, hover, List.append_nil]
      using h.overridable
  defaultAction := by simp [List.filterMap_append, hdef]
  handled := by simpa only [List.flatMap_append, List.flatMap_singleton, huser, List.append_nil]
    using h.handled
  allowed := h.allowed
  blocked := h.blocked

theorem skip {num r : UInt32} (h : Refines calls b) (hrule : c.userRules = [.syscall num r])
    (hover : c.overridableRules = []) (hdef : c.defaultAction = none)
    (hnum : num ∈ b.handledSyscalls) : Refines (calls ++ [c]) b := by
  refine h.grow hover hdef (fun d => ?_) (fun d hd => ?_) h.allowed h.blocked rfl rfl
  · rw [hrule]
    refine (h.user d).append_redundant ?_
    by_cases hn : d.nr = num
    · exact .inl (h.handled d (hn ▸ hnum))
    · exact .inr fun _ => by simp [Rule.apply, hn]
  · rw [hrule]
    exact (h.handled d hd).append_left _

theorem handle {num r : UInt32} (h : Refines calls b) (hrule : c.userRules = [.syscall num r])
    (hover : c.overridableRules = []) (hdef : c.defaultAction = none)
    (huser : b'.userPolicy = b.userPolicy ++ syscall num (bpfStmt (bpfRet + bpfK) r))
    (hhandled : b'.handledSyscalls = num :: b.handledSyscalls)
    (hallowed : b'.allowedSyscalls ⊆ num :: b.allowedSyscalls)
    (hblocked : b'.blockedSyscalls ⊆ num :: b.blockedSyscalls)
    (hpolicy : b'.overridablePolicy = b.overridablePolicy)
    (haction : b'.defaultAction = b.defaultAction) : Refines (calls ++ [c]) b' := by
  have hnew : ∀ {l : List UInt32}, (∀ n ∈ l, n ∈ b.handledSyscalls) →
      ∀ n ∈ num :: l, n ∈ b'.handledSyscalls := by
    intro l hl n hn
    rw [hhandled]
    rcases List.mem_cons.mp hn with rfl | hn
    · exact List.mem_cons_self
    · exact List.mem_cons_of_mem _ (hl n hn)
  refine h.grow hover hdef (fun d => ?_) (fun d hd => ?_) (fun n hn => hnew h.allowed n (hallowed hn))
    (fun n hn => hnew h.blocked n (hblocked hn)) hpolicy haction
  · rw [hrule, huser]
    exact (h.user d).append (implements_syscall num r)
  · rw [hrule]
    rw [hhandled] at hd
    rcases List.mem_cons.mp hd with hn | hn
    · exact Stops.append_right _ (stops_syscall hn r)
    · exact (h.handled d hn).append_left _

theorem allowSyscall (h : Refines calls b) (num : UInt32)
    (hst : (b.allowSyscall num).lastStatus = none) :
    Refines (calls ++ [.allowSyscall num]) (b.allowSyscall num) := by
  unfold PolicyBuilder.allowSyscall at hst ⊢
  dsimp only at hst ⊢
  split_ifs at hst ⊢ with hhandled hallowed hmap
  · exact h.skip rfl rfl rfl hhandled
  · exact absurd (h.allowed num hallowed) hhandled
  · simp [PolicyBuilder.setError] at hst
  · exact h.handle rfl rfl rfl rfl rfl (List.Subset.refl _) (List.subset_cons_self _ _) rfl rfl

theorem blockSyscallWithErrno (h : Refines calls b) (num error : UInt32) :
    Refines (calls ++ [.blockSyscallWithErrno num error]) (b.blockSyscallWithErrno num error) := by
  unfold PolicyBuilder.blockSyscallWithErrno
  dsimp only
  split_ifs with hhandled hblocked
  · exact h.skip rfl rfl rfl hhandled
  · exact absurd (h.blocked num hblocked) hhandled
  all_goals
    exact h.handle rfl rfl rfl rfl rfl (List.subset_cons_self _ _) (List.Subset.refl _) rfl rfl

theorem trapPtrace (h : Refines calls b) : Refines (calls ++ [.trapPtrace]) b.trapPtrace := by
  unfold PolicyBuilder.trapPtrace
  split_ifs with hhandled
  · exact h.skip rfl rfl rfl hhandled
  · exact h.handle rfl rfl rfl rfl rfl (List.subset_cons_self _ _) (List.subset_cons_self _ _)
      rfl rfl

theorem addPolicyOnSyscalls (h : Refines calls b) (nums : List UInt32) (policy : List SockFilter)
    (hshort : nums.length ≤ kMaxShortJump)
    (hst : (b.addPolicyOnSyscalls nums policy).lastStatus = none) :
    Refines (calls ++ [.addPolicyOnSyscalls nums policy]) (b.addPolicyOnSyscalls nums policy) := by
  unfold PolicyBuilder.addPolicyOnSyscalls at hst ⊢
  cases hc : createPolicyOnSyscalls nums policy with
  | error status =>
    rw [hc] at hst
    simp [PolicyBuilder.setError] at hst
  | ok out =>
    exact h.grow rfl rfl (fun d => (h.user d).append (implements_createPolicyOnSyscalls hc hshort))
      (fun d hd => (h.handled d hd).append_left _) h.allowed h.blocked rfl rfl

theorem overridableAddPolicyOnSyscalls (h : Refines calls b) (nums : List UInt32)
    (policy : List SockFilter) (hshort : nums.length ≤ kMaxShortJump)
    (hst : (b.overridableAddPolicyOnSyscalls nums policy).lastStatus = none) :
    Refines (calls ++ [.overridableAddPolicyOnSyscalls nums policy])
      (b.overridableAddPolicyOnSyscalls nums policy) := by
  unfold PolicyBuilder.overridableAddPolicyOnSyscalls at hst ⊢
  cases hc : createPolicyOnSyscalls nums policy with
  | error status =>
    rw [hc] at hst
    simp [PolicyBuilder.setError] at hst
  | ok out => exact h.extend rfl rfl fun _ => implements_createPolicyOnSyscalls hc hshort

theorem apply (h : Refines calls b) (c : BuilderCall) (hshort : c.shortDispatch = true)
    (hst : (b.apply c).lastStatus = none) : Refines (calls ++ [c]) (b.apply c) := by
  cases c with
  | allowSyscall num => exact h.allowSyscall num hst
  | blockSyscallWithErrno num error => exact h.blockSyscallWithErrno num error
  | trapPtrace => exact h.trapPtrace
  | addPolicyOnSyscalls nums policy =>
    exact h.addPolicyOnSyscalls nums policy (of_decide_eq_true hshort) hst
  | overridableAddPolicyOnSyscalls nums policy =>
    exact h.overridableAddPolicyOnSyscalls nums policy (of_decide_eq_true hshort) hst
  | overridableBlockSyscallWithErrno num error =>
    exact h.extend rfl rfl fun _ => implements_syscall num (errno error).k
  | defaultActionAllowAll => exact h.setDefault rfl rfl rfl
  | defaultActionTraceAll => exact h.setDefault rfl rfl rfl
  | allowMapExec => exact h.frame rfl rfl rfl rfl rfl rfl rfl rfl rfl
  | allowSafeBpf => exact h.frame rfl rfl rfl rfl rfl rfl rfl rfl rfl
  | setError status => simp [PolicyBuilder.apply, PolicyBuilder.setError] at hst

theorem run_from : ∀ (calls pre : List BuilderCall) (b : PolicyBuilder),
    (b.lastStatus = none → Refines pre b) → (∀ c ∈ calls, c.shortDispatch = true) →
      (b.run calls).lastStatus = none → Refines (pre ++ calls) (b.run calls)
  | [], pre, b, h, _, hst => by simpa using h hst
  | c :: calls, pre, b, h, hshort, hst => by
    have hstep : (b.apply c).lastStatus = none → Refines (pre ++ [c]) (b.apply c) := fun hc =>
      (h (PolicyBuilder.lastStatus_of_apply hc)).apply c (hshort c List.mem_cons_self) hc
    have hrest := run_from calls (pre ++ [c]) (b.apply c) hstep
      (fun c' hc' => hshort c' (List.mem_cons_of_mem _ hc')) hst
    simpa using hrest

theorem run (calls : List BuilderCall) (hshort : ∀ c ∈ calls, c.shortDispatch = true)
    (hst : (PolicyBuilder.init.run calls).lastStatus = none) :
    Refines calls (PolicyBuilder.init.run calls) := by
  simpa using run_from calls [] PolicyBuilder.init (fun _ => init) hshort hst

end Refines

section

variable {p : Policy} {continueSupported userNotif preExecve : Bool} {d : SeccompData}

end

section

variable {calls : List BuilderCall} {p : Policy} {b' : PolicyBuilder}

end

-- The rules run a fragment as `CreatePolicyOnSyscalls` rewrote it: alone, `RET TRACE(5)` returns
-- `TRACE(5)`, in the built policy `SANDBOX2_TRACE`.
example :
    ∃ p b' prog, (PolicyBuilder.init.run [.addPolicyOnSyscalls [1] [trace 5]]).tryBuild =
        .ok (p, b') ∧
      p.getPolicy false false false false = some prog ∧
      (runRules ⟨1, hostAuditArch, 0, fun _ => 0⟩ Carry.init [.onSyscalls [1] [trace 5]]).verdict
        seccompRetKill = .ok (trace 5).k ∧
      evaluate prog ⟨1, hostAuditArch, 0, fun _ => 0⟩ = .ok sandbox2Trace.k :=
  ⟨_, _, _, rfl, getPolicy_eq _ _ _ _, by decide, by decide +kernel⟩

set_option maxRecDepth 20000 in
/-- A call of `AddPolicyOnSyscalls` with more than 255 numbers breaks the refinement: the helper
jump lands one past the fragment. With the 257 numbers from 1000 and the fragment
`ARG_32(0), JEQ32(5, DENY), ALLOW`, the reference kills the call of number 1000 whose first
argument is 5, and the built policy allows it. -/
theorem tryBuild_long_dispatch_fails_open :
    ∃ p b' prog, (PolicyBuilder.init.run
        [.addPolicyOnSyscalls ((List.range 257).map fun i => UInt32.ofNat (1000 + i))
          (arg32 0 :: jeq32 5 deny ++ [allow])]).tryBuild = .ok (p, b') ∧
      p.getPolicy false false false false = some prog ∧
      p.defaultVerdict false false false ⟨1000, hostAuditArch, 0, fun _ => 5⟩ = none ∧
      referenceVerdict [.addPolicyOnSyscalls ((List.range 257).map fun i => UInt32.ofNat (1000 + i))
          (arg32 0 :: jeq32 5 deny ++ [allow])] ⟨1000, hostAuditArch, 0, fun _ => 5⟩ =
        .ok seccompRetKill ∧
      evaluate prog ⟨1000, hostAuditArch, 0, fun _ => 5⟩ = .ok seccompRetAllow :=
  ⟨_, _, _, rfl, getPolicy_eq _ _ _ _, by decide, by decide +kernel, by decide +kernel⟩

end SandboxedApi

import SandboxedApi.Policy.Builder
import SandboxedApi.Policy.DefaultVerdict
import SandboxedApi.Policy.DispatchSpec

namespace SandboxedApi

/-- `block` passes a call of `nr` on: entered with `nr` in the accumulator, it reaches its end
with nothing changed. -/
def PassesOn (nr : UInt32) (block : List SockFilter) : Prop :=
  ∀ d : SeccompData, d.nr = nr → BlockDecides d block d.nr none

/-- `block` returns `r` for a call of `nr`. -/
def ReturnsOn (nr : UInt32) (block : List SockFilter) (r : UInt32) : Prop :=
  ∀ d : SeccompData, d.nr = nr → BlockDecides d block d.nr (some r)

section

variable {nr r : UInt32} {b₁ b₂ : List SockFilter}

theorem passesOn_nil : PassesOn nr [] := fun _ _ => BlockDecides.nil

theorem PassesOn.append (h₁ : PassesOn nr b₁) (h₂ : PassesOn nr b₂) : PassesOn nr (b₁ ++ b₂) :=
  fun d hd => BlockDecides.append (h₁ d hd) (h₂ d hd)

theorem PassesOn.append_returns (h₁ : PassesOn nr b₁) (h₂ : ReturnsOn nr b₂ r) :
    ReturnsOn nr (b₁ ++ b₂) r :=
  fun d hd => BlockDecides.append (h₁ d hd) (h₂ d hd)

theorem ReturnsOn.append (h : ReturnsOn nr b₁ r) (b₂ : List SockFilter) :
    ReturnsOn nr (b₁ ++ b₂) r :=
  fun d hd => BlockDecides.append_some (h d hd) d.nr

theorem returnsOn_syscall (n r : UInt32) : ReturnsOn n (syscall n (bpfStmt (bpfRet + bpfK) r)) r := by
  intro d hd
  show BlockDecides d (jeq32 n (bpfStmt (bpfRet + bpfK) r)) d.nr (some r)
  have h : BlockDecides d (jeq32 n (bpfStmt (bpfRet + bpfK) r)) d.nr (nrVerdict n r d) :=
    blockDecides_nr n r
  simpa [nrVerdict, hd] using h

theorem passesOn_syscall {n : UInt32} (hn : n ≠ nr) (r : UInt32) :
    PassesOn nr (syscall n (bpfStmt (bpfRet + bpfK) r)) := by
  intro d hd
  show BlockDecides d (jeq32 n (bpfStmt (bpfRet + bpfK) r)) d.nr none
  have h : BlockDecides d (jeq32 n (bpfStmt (bpfRet + bpfK) r)) d.nr (nrVerdict n r d) :=
    blockDecides_nr n r
  have hne : d.nr ≠ n := fun h => hn (h ▸ hd)
  simpa [nrVerdict, hne] using h

theorem passesOn_createPolicyOnSyscalls {nums : List UInt32} {policy out : List SockFilter}
    (h : createPolicyOnSyscalls nums policy = .ok out) (hnr : nr = nrBpf ∨ nr = nrPtrace) :
    PassesOn nr out := by
  have hres := createPolicyOnSyscalls_reserved h
  have hnot : nr ∉ nums := by
    rcases hnr with rfl | rfl
    · exact hres.1
    · exact hres.2
  exact fun d hd => createPolicyOnSyscalls_passes h (hd ▸ hnot)

end

structure Guarded (nr : UInt32) (flag : Bool) (b : PolicyBuilder) : Prop where
  passes : nr ∉ b.handledSyscalls → PassesOn nr b.userPolicy
  handled : flag = true → nr ∈ b.handledSyscalls
  returns : flag = true → ∃ r, r ≠ seccompRetAllow ∧ ReturnsOn nr b.userPolicy r

section

variable {nr : UInt32} {flag : Bool} {b b' : PolicyBuilder}

theorem Guarded.grow {block : List SockFilter} (h : Guarded nr flag b)
    (hpolicy : b'.userPolicy = b.userPolicy ++ block)
    (hhandled : b.handledSyscalls ⊆ b'.handledSyscalls)
    (hblock : nr ∉ b'.handledSyscalls → PassesOn nr block) : Guarded nr flag b' where
  passes hnr := hpolicy ▸ (h.passes fun h' => hnr (hhandled h')).append (hblock hnr)
  handled hf := hhandled (h.handled hf)
  returns hf := by
    obtain ⟨r, hr, hret⟩ := h.returns hf
    exact ⟨r, hr, hpolicy ▸ hret.append block⟩

theorem Guarded.claim {r : UInt32} (h : Guarded nr flag b) (hnr : nr ∉ b.handledSyscalls)
    (hpolicy : b'.userPolicy = b.userPolicy ++ syscall nr (bpfStmt (bpfRet + bpfK) r))
    (hhandled : nr ∈ b'.handledSyscalls) (hr : r ≠ seccompRetAllow) : Guarded nr true b' where
  passes h' := absurd hhandled h'
  handled _ := hhandled
  returns _ := ⟨r, hr, hpolicy ▸ (h.passes hnr).append_returns (returnsOn_syscall nr r)⟩

end

structure BuilderInv (b : PolicyBuilder) : Prop where
  bpf : Guarded nrBpf b.userPolicyHandlesBpf b
  ptrace : Guarded nrPtrace b.userPolicyHandlesPtrace b

namespace BuilderInv

variable {b : PolicyBuilder}

theorem init : BuilderInv PolicyBuilder.init where
  bpf := ⟨fun _ => passesOn_nil, fun h => absurd h Bool.false_ne_true,
    fun h => absurd h Bool.false_ne_true⟩
  ptrace := ⟨fun _ => passesOn_nil, fun h => absurd h Bool.false_ne_true,
    fun h => absurd h Bool.false_ne_true⟩

theorem grow {b' : PolicyBuilder} {block : List SockFilter} (h : BuilderInv b)
    (hpolicy : b'.userPolicy = b.userPolicy ++ block)
    (hhandled : b.handledSyscalls ⊆ b'.handledSyscalls)
    (hbpf : b'.userPolicyHandlesBpf = b.userPolicyHandlesBpf)
    (hptrace : b'.userPolicyHandlesPtrace = b.userPolicyHandlesPtrace)
    (hblock : ∀ nr, nr = nrBpf ∨ nr = nrPtrace → nr ∉ b'.handledSyscalls → PassesOn nr block) :
    BuilderInv b' where
  bpf := hbpf ▸ h.bpf.grow hpolicy hhandled (hblock nrBpf (.inl rfl))
  ptrace := hptrace ▸ h.ptrace.grow hpolicy hhandled (hblock nrPtrace (.inr rfl))

theorem keep {b' : PolicyBuilder} (h : BuilderInv b) (hpolicy : b'.userPolicy = b.userPolicy)
    (hhandled : b.handledSyscalls ⊆ b'.handledSyscalls)
    (hbpf : b'.userPolicyHandlesBpf = b.userPolicyHandlesBpf)
    (hptrace : b'.userPolicyHandlesPtrace = b.userPolicyHandlesPtrace) : BuilderInv b' :=
  h.grow (by rw [hpolicy, List.append_nil] : b'.userPolicy = b.userPolicy ++ []) hhandled hbpf
    hptrace fun _ _ _ => passesOn_nil

theorem passesOn_syscall_of_handled {num nr r : UInt32} {handled : List UInt32}
    (hnum : num ∈ handled) (hnr : nr ∉ handled) :
    PassesOn nr (syscall num (bpfStmt (bpfRet + bpfK) r)) :=
  passesOn_syscall (fun (h : num = nr) => hnr (h ▸ hnum)) r

theorem allowSyscall (h : BuilderInv b) (num : UInt32) : BuilderInv (b.allowSyscall num) := by
  unfold PolicyBuilder.allowSyscall
  dsimp only
  split_ifs with hhandled hallowed hmap
  · exact h
  · exact h.keep rfl (List.subset_cons_self _ _) rfl rfl
  · -- the `Allow(MapExec)` error leaves the user policy as it was
    exact h.keep rfl (List.subset_cons_self _ _) rfl rfl
  · exact h.grow rfl (List.subset_cons_self _ _) rfl rfl
      fun _ _ hnr => passesOn_syscall_of_handled List.mem_cons_self hnr

theorem blockSyscallWithErrno (h : BuilderInv b) (num error : UInt32) :
    BuilderInv (b.blockSyscallWithErrno num error) := by
  unfold PolicyBuilder.blockSyscallWithErrno
  dsimp only
  split_ifs with hhandled hblocked hbpf hptrace
  · exact h
  · exact h.keep rfl (List.subset_cons_self _ _) rfl rfl
  · -- `ERRNO` for `bpf` sets its flag; `ptrace` is passed on
    subst hbpf
    exact ⟨h.bpf.claim hhandled rfl List.mem_cons_self (errno_k_ne_allow error),
      h.ptrace.grow rfl (List.subset_cons_self _ _) fun hnr =>
        passesOn_syscall_of_handled List.mem_cons_self hnr⟩
  · subst hptrace
    exact ⟨h.bpf.grow rfl (List.subset_cons_self _ _) fun hnr =>
        passesOn_syscall_of_handled List.mem_cons_self hnr,
      h.ptrace.claim hhandled rfl List.mem_cons_self (errno_k_ne_allow error)⟩
  · exact h.grow rfl (List.subset_cons_self _ _) rfl rfl
      fun _ _ hnr => passesOn_syscall_of_handled List.mem_cons_self hnr

theorem trapPtrace (h : BuilderInv b) : BuilderInv b.trapPtrace := by
  unfold PolicyBuilder.trapPtrace
  split_ifs with hhandled
  · exact h
  · exact ⟨h.bpf.grow rfl (List.subset_cons_self _ _) fun hnr =>
        passesOn_syscall_of_handled List.mem_cons_self hnr,
      h.ptrace.claim hhandled rfl List.mem_cons_self (by decide)⟩

theorem addPolicyOnSyscalls (h : BuilderInv b) (nums : List UInt32) (policy : List SockFilter) :
    BuilderInv (b.addPolicyOnSyscalls nums policy) := by
  unfold PolicyBuilder.addPolicyOnSyscalls
  cases hc : createPolicyOnSyscalls nums policy with
  | error status => exact h.keep rfl (List.Subset.refl _) rfl rfl
  | ok out =>
    exact h.grow rfl (fun _ hx => hx) rfl rfl
      fun _ hnr _ => passesOn_createPolicyOnSyscalls hc hnr

theorem apply (h : BuilderInv b) (c : BuilderCall) : BuilderInv (b.apply c) := by
  cases c with
  | allowSyscall num => exact h.allowSyscall num
  | blockSyscallWithErrno num error => exact h.blockSyscallWithErrno num error
  | trapPtrace => exact h.trapPtrace
  | addPolicyOnSyscalls nums policy => exact h.addPolicyOnSyscalls nums policy
  | overridableAddPolicyOnSyscalls nums policy =>
    simp only [PolicyBuilder.apply, PolicyBuilder.overridableAddPolicyOnSyscalls]
    split <;> exact h.keep rfl (List.Subset.refl _) rfl rfl
  | overridableBlockSyscallWithErrno num error => exact h.keep rfl (List.Subset.refl _) rfl rfl
  | defaultActionAllowAll => exact h.keep rfl (List.Subset.refl _) rfl rfl
  | defaultActionTraceAll => exact h.keep rfl (List.Subset.refl _) rfl rfl
  | allowMapExec => exact h.keep rfl (List.Subset.refl _) rfl rfl
  | allowSafeBpf => exact h.keep rfl (List.Subset.refl _) rfl rfl
  | setError status => exact h.keep rfl (List.Subset.refl _) rfl rfl

theorem run (calls : List BuilderCall) : BuilderInv (PolicyBuilder.init.run calls) :=
  PolicyBuilder.run_induction BuilderInv (fun _ c h => h.apply c) calls init

end BuilderInv

section

variable {calls : List BuilderCall} {p : Policy} {b b' : PolicyBuilder}
  {continueSupported userNotif preExecve : Bool} {d : SeccompData}

theorem Guarded.evaluate_getPolicy {nr : UInt32} {flag : Bool} (hg : Guarded nr flag b)
    (hbuild : b.tryBuild = .ok (p, b')) (hflag : flag = true)
    (hdef : p.defaultVerdict continueSupported userNotif preExecve d = none) (hd : d.nr = nr) :
    ∃ r, r ≠ seccompRetAllow ∧ evaluate (p.defaultProgram continueSupported userNotif preExecve ++
      [loadSyscallNr] ++ p.userPolicy ++ [kill]) d = .ok r := by
  obtain ⟨-, hlen, -, rfl, -⟩ := PolicyBuilder.tryBuild_eq_ok hbuild
  obtain ⟨r, hr, hret⟩ := hg.returns hflag
  have huser : b.userPolicy ++ b.defaultAction.toList ++ b.overridablePolicy =
      b.userPolicy ++ (b.defaultAction.toList ++ b.overridablePolicy) := List.append_assoc _ _ _
  have hsmall : b.userPolicy.length < 2 ^ 31 := by
    unfold kMaxUserPolicyLength at hlen
    omega
  exact ⟨r, hr, evaluate_getPolicy_of_user hdef (hret d hd) huser hsmall⟩

theorem tryBuild_ptrace_not_allowed (hbuild : (PolicyBuilder.init.run calls).tryBuild = .ok (p, b'))
    (harch : d.arch = hostAuditArch) (hnr : d.nr = nrPtrace) :
    ∃ r, evaluate (p.defaultProgram continueSupported userNotif preExecve ++ [loadSyscallNr] ++
      p.userPolicy ++ [kill]) d = .ok r ∧ r ≠ seccompRetAllow := by
  have hv : p.defaultVerdict continueSupported userNotif preExecve d =
      if p.userPolicyHandlesPtrace then none else some deny.k := defaultVerdict_ptrace harch hnr
  have hflag : p.userPolicyHandlesPtrace = (PolicyBuilder.init.run calls).userPolicyHandlesPtrace := by
    rw [(PolicyBuilder.tryBuild_eq_ok hbuild).2.2.2.1]
  cases hp : p.userPolicyHandlesPtrace with
  | false =>
    rw [hp, if_neg Bool.false_ne_true] at hv
    exact ⟨deny.k, evaluate_getPolicy_of_default hv, by decide⟩
  | true =>
    rw [hp, if_pos rfl] at hv
    obtain ⟨r, hr, he⟩ := (BuilderInv.run calls).ptrace.evaluate_getPolicy hbuild
      (hflag ▸ hp) hv hnr
    exact ⟨r, he, hr⟩

theorem tryBuild_bpf_allowed (hbuild : (PolicyBuilder.init.run calls).tryBuild = .ok (p, b'))
    (hnr : d.nr = nrBpf)
    (hallow : evaluate (p.defaultProgram continueSupported userNotif preExecve ++ [loadSyscallNr] ++
      p.userPolicy ++ [kill]) d = .ok seccompRetAllow) :
    BuilderCall.allowSafeBpf ∈ calls ∧ lo32 (d.args 0) ∈ safeBpfCommands := by
  obtain ⟨-, -, -, hp, -⟩ := PolicyBuilder.tryBuild_eq_ok hbuild
  by_cases harch : d.arch = hostAuditArch
  · have hv : p.defaultVerdict continueSupported userNotif preExecve d =
        if p.allowSafeBpf ∧ lo32 (d.args 0) ∈ safeBpfCommands then some allow.k
        else if p.userPolicyHandlesBpf then none else some deny.k := defaultVerdict_bpf harch hnr
    by_cases hsafe : p.allowSafeBpf = true ∧ lo32 (d.args 0) ∈ safeBpfCommands
    · -- the safe commands: `allow_safe_bpf_` was set, and only `AllowSafeBpf` sets it
      refine ⟨?_, hsafe.2⟩
      have hset : (PolicyBuilder.init.run calls).allowSafeBpf = true := by
        rw [hp] at hsafe
        exact hsafe.1
      rcases PolicyBuilder.run_allowSafeBpf hset with hinit | hmem
      · exact absurd hinit Bool.false_ne_true
      · exact hmem
    · -- otherwise the default policy denies `bpf` or the user policy blocks it
      exfalso
      rw [if_neg hsafe] at hv
      cases hb : p.userPolicyHandlesBpf with
      | false =>
        rw [hb, if_neg Bool.false_ne_true] at hv
        rw [evaluate_getPolicy_of_default hv] at hallow
        exact absurd (Except.ok.inj hallow) (by decide)
      | true =>
        rw [hb, if_pos rfl] at hv
        have hflag : (PolicyBuilder.init.run calls).userPolicyHandlesBpf = true := by
          rw [hp] at hb
          exact hb
        obtain ⟨r, hr, he⟩ := (BuilderInv.run calls).bpf.evaluate_getPolicy hbuild hflag hv hnr
        rw [he] at hallow
        exact absurd (Except.ok.inj hallow) hr
  · -- a foreign arch is killed or traced
    exfalso
    rw [evaluate_getPolicy_foreignArch harch] at hallow
    have hne : (if userNotif then seccompRetKill
        else if d.arch = auditArchI386 then (trace cpuX86).k else (trace cpuUnknown).k) ≠
          seccompRetAllow := by
      split_ifs <;> decide
    exact hne (Except.ok.inj hallow)

end

/-- What the default policy guarantees for every policy a builder returns, with the permit-all
flags off and whatever the user policy: a foreign arch is killed in unotify mode and traced with
its cpu otherwise; on the host arch `ptrace` is never allowed; `bpf` is allowed only for a
read-only command after `AllowSafeBpf`; and on the host arch `clone` with a namespace flag (or,
under ptrace, `CLONE_UNTRACED`) is killed. -/
theorem tryBuild_getPolicy_guarantees {calls : List BuilderCall} {p : Policy} {b' : PolicyBuilder}
    (hbuild : (PolicyBuilder.init.run calls).tryBuild = .ok (p, b'))
    (continueSupported userNotif preExecve : Bool) (d : SeccompData) :
    ∃ prog, p.getPolicy false continueSupported userNotif preExecve = some prog ∧
      (d.arch ≠ hostAuditArch → evaluate prog d = .ok
        (if userNotif then seccompRetKill
          else if d.arch = auditArchI386 then (trace cpuX86).k else (trace cpuUnknown).k)) ∧
      (d.arch = hostAuditArch → d.nr = nrPtrace →
        ∃ r, evaluate prog d = .ok r ∧ r ≠ seccompRetAllow) ∧
      (d.nr = nrBpf → evaluate prog d = .ok seccompRetAllow →
        BuilderCall.allowSafeBpf ∈ calls ∧ lo32 (d.args 0) ∈ safeBpfCommands) ∧
      (d.arch = hostAuditArch → d.nr = nrClone →
        lo32 (d.args 0) &&& unsafeCloneFlags userNotif ≠ 0 → evaluate prog d = .ok seccompRetKill) :=
  ⟨_, getPolicy_eq p continueSupported userNotif preExecve, evaluate_getPolicy_foreignArch,
    tryBuild_ptrace_not_allowed hbuild, tryBuild_bpf_allowed hbuild, evaluate_getPolicy_clone⟩

theorem tryBuild_getPolicy_guarantees_fresh :
    (PolicyBuilder.init.run []).tryBuild =
        .ok (⟨true, false, [], false, false⟩, { PolicyBuilder.init with alreadyBuilt := true }) ∧
      ∃ prog, (⟨true, false, [], false, false⟩ : Policy).getPolicy false false true false = some prog ∧
        (hostAuditArch ≠ hostAuditArch → evaluate prog ⟨nrPtrace, hostAuditArch, 0, fun _ => 0⟩ =
          .ok (if true then seccompRetKill
            else if hostAuditArch = auditArchI386 then (trace cpuX86).k else (trace cpuUnknown).k)) ∧
        (hostAuditArch = hostAuditArch → nrPtrace = nrPtrace →
          ∃ r, evaluate prog ⟨nrPtrace, hostAuditArch, 0, fun _ => 0⟩ = .ok r ∧
            r ≠ seccompRetAllow) ∧
        (nrPtrace = nrBpf →
          evaluate prog ⟨nrPtrace, hostAuditArch, 0, fun _ => 0⟩ = .ok seccompRetAllow →
            BuilderCall.allowSafeBpf ∈ ([] : List BuilderCall) ∧ lo32 0 ∈ safeBpfCommands) ∧
        (hostAuditArch = hostAuditArch → nrPtrace = nrClone →
          lo32 0 &&& unsafeCloneFlags true ≠ 0 →
            evaluate prog ⟨nrPtrace, hostAuditArch, 0, fun _ => 0⟩ = .ok seccompRetKill) :=
  have hbuild : (PolicyBuilder.init.run []).tryBuild =
      .ok (⟨true, false, [], false, false⟩, { PolicyBuilder.init with alreadyBuilt := true }) := rfl
  ⟨hbuild, tryBuild_getPolicy_guarantees hbuild false true false ⟨nrPtrace, hostAuditArch, 0, fun _ => 0⟩⟩

/-- `allow_map_exec_` starts set and no call clears it, so no built policy has the `PROT_EXEC`
check, whether `Allow(MapExec)` was called or not: once `mmap` is allowed, an executable mapping
on the host arch is allowed, not killed. -/
theorem tryBuild_mmap_exec_allowed :
    (∀ calls, (PolicyBuilder.init.run calls).allowMapExec = true) ∧
      BuilderCall.allowMapExec ∉ [BuilderCall.allowSyscall nrMmap] ∧
      ∃ p b' prog, (PolicyBuilder.init.run [.allowSyscall nrMmap]).tryBuild = .ok (p, b') ∧
        p.getPolicy false false true false = some prog ∧
        lo32 4 &&& protExec ≠ 0 ∧
        evaluate prog ⟨nrMmap, hostAuditArch, 0, fun _ => 4⟩ = .ok seccompRetAllow :=
  ⟨PolicyBuilder.run_allowMapExec, by simp, _, _, _, rfl, getPolicy_eq _ _ _ _, by decide,
    by decide +kernel⟩

end SandboxedApi

import SandboxedApi.Policy.Dispatch

namespace SandboxedApi

/-- `kMmapSyscalls` of the x86-64 build, which has no `mmap2`. -/
def kMmapSyscalls : List UInt32 := [nrMmap]

/-- `CheckMapExec`: the calls that can map or remap executable pages. -/
def checkMapExec (num : UInt32) : Bool :=
  decide (num = nrMprotect) || decide (num = nrPkeyMprotect) || kMmapSyscalls.contains num

/-- `PolicyBuilder::kMaxUserPolicyLength`. -/
def kMaxUserPolicyLength : Nat := 30000

structure PolicyBuilder where
  allowMapExec : Bool
  allowSafeBpf : Bool
  userPolicy : List SockFilter
  overridablePolicy : List SockFilter
  defaultAction : Option SockFilter
  userPolicyHandlesBpf : Bool
  userPolicyHandlesPtrace : Bool
  handledSyscalls : List UInt32
  allowedSyscalls : List UInt32
  blockedSyscalls : List UInt32
  lastStatus : Option Status
  alreadyBuilt : Bool

namespace PolicyBuilder

def init : PolicyBuilder where
  allowMapExec := true
  allowSafeBpf := false
  userPolicy := []
  overridablePolicy := []
  defaultAction := none
  userPolicyHandlesBpf := false
  userPolicyHandlesPtrace := false
  handledSyscalls := []
  allowedSyscalls := []
  blockedSyscalls := []
  lastStatus := none
  alreadyBuilt := false

def setError (b : PolicyBuilder) (status : Status) : PolicyBuilder :=
  { b with lastStatus := some status }

def allowSyscall (b : PolicyBuilder) (num : UInt32) : PolicyBuilder :=
  if num ∈ b.handledSyscalls then b
  else if num ∈ b.allowedSyscalls then { b with handledSyscalls := num :: b.handledSyscalls }
  else
    let b := { b with
      handledSyscalls := num :: b.handledSyscalls
      allowedSyscalls := num :: b.allowedSyscalls }
    if !b.allowMapExec && checkMapExec num then
      b.setError ⟨.failedPrecondition,
        "Allowing unrestricted mmap/mprotect/pkey_mprotect requires Allow(MapExec)."⟩
    else { b with userPolicy := b.userPolicy ++ syscall num allow }

/-- `BlockSyscallWithErrno`; `error` is the bit pattern of the `int`. -/
def blockSyscallWithErrno (b : PolicyBuilder) (num error : UInt32) : PolicyBuilder :=
  if num ∈ b.handledSyscalls then b
  else if num ∈ b.blockedSyscalls then { b with handledSyscalls := num :: b.handledSyscalls }
  else
    let b := { b with
      handledSyscalls := num :: b.handledSyscalls
      blockedSyscalls := num :: b.blockedSyscalls
      userPolicy := b.userPolicy ++ syscall num (errno error) }
    if num = nrBpf then { b with userPolicyHandlesBpf := true }
    else if num = nrPtrace then { b with userPolicyHandlesPtrace := true }
    else b

def trapPtrace (b : PolicyBuilder) : PolicyBuilder :=
  if nrPtrace ∈ b.handledSyscalls then b
  else { b with
    handledSyscalls := nrPtrace :: b.handledSyscalls
    userPolicy := b.userPolicy ++ syscall nrPtrace (trap 0)
    userPolicyHandlesPtrace := true }

/-- `AddPolicyOnSyscalls`; the set `custom_policy_syscalls_` it also fills is read nowhere. -/
def addPolicyOnSyscalls (b : PolicyBuilder) (nums : List UInt32) (policy : List SockFilter) :
    PolicyBuilder :=
  match createPolicyOnSyscalls nums policy with
  | .error status => b.setError status
  | .ok out => { b with userPolicy := b.userPolicy ++ out }

def overridableAddPolicyOnSyscalls (b : PolicyBuilder) (nums : List UInt32)
    (policy : List SockFilter) : PolicyBuilder :=
  match createPolicyOnSyscalls nums policy with
  | .error status => b.setError status
  | .ok out => { b with overridablePolicy := b.overridablePolicy ++ out }

def overridableBlockSyscallWithErrno (b : PolicyBuilder) (num error : UInt32) : PolicyBuilder :=
  { b with overridablePolicy := b.overridablePolicy ++ syscall num (errno error) }

/-- `TryBuild`, with its checks of the seccomp fields: the policy, and the builder it leaves
(its user policy moved out). -/
def tryBuild (b : PolicyBuilder) : Except Status (Policy × PolicyBuilder) :=
  match b.lastStatus with
  | some status => .error status
  | none =>
    if b.userPolicy.length > kMaxUserPolicyLength then
      .error ⟨.failedPrecondition, "User syscall policy is to long (" ++
        toString b.userPolicy.length ++ " > " ++ toString kMaxUserPolicyLength ++ ")."⟩
    else if b.alreadyBuilt then .error ⟨.failedPrecondition, "Can only build policy once."⟩
    else
      .ok (⟨b.allowMapExec, b.allowSafeBpf,
          b.userPolicy ++ b.defaultAction.toList ++ b.overridablePolicy,
          b.userPolicyHandlesBpf, b.userPolicyHandlesPtrace⟩,
        { b with userPolicy := [], alreadyBuilt := true })

end PolicyBuilder

inductive BuilderCall where
  | allowSyscall (num : UInt32)
  | blockSyscallWithErrno (num error : UInt32)
  | trapPtrace
  | addPolicyOnSyscalls (nums : List UInt32) (policy : List SockFilter)
  | overridableAddPolicyOnSyscalls (nums : List UInt32) (policy : List SockFilter)
  | overridableBlockSyscallWithErrno (num error : UInt32)
  | defaultActionAllowAll
  | defaultActionTraceAll
  | allowMapExec
  | allowSafeBpf
  | setError (status : Status)

namespace PolicyBuilder

def apply (b : PolicyBuilder) : BuilderCall → PolicyBuilder
  | .allowSyscall num => b.allowSyscall num
  | .blockSyscallWithErrno num error => b.blockSyscallWithErrno num error
  | .trapPtrace => b.trapPtrace
  | .addPolicyOnSyscalls nums policy => b.addPolicyOnSyscalls nums policy
  | .overridableAddPolicyOnSyscalls nums policy => b.overridableAddPolicyOnSyscalls nums policy
  | .overridableBlockSyscallWithErrno num error => b.overridableBlockSyscallWithErrno num error
  | .defaultActionAllowAll => { b with defaultAction := some allow }
  | .defaultActionTraceAll => { b with defaultAction := some sandbox2Trace }
  | .allowMapExec => { b with allowMapExec := true }
  | .allowSafeBpf => { b with allowSafeBpf := true }
  | .setError status => b.setError status

def run (b : PolicyBuilder) (calls : List BuilderCall) : PolicyBuilder :=
  calls.foldl apply b

@[simp] theorem run_nil (b : PolicyBuilder) : b.run [] = b := rfl

@[simp] theorem run_cons (b : PolicyBuilder) (c : BuilderCall) (calls : List BuilderCall) :
    b.run (c :: calls) = (b.apply c).run calls := rfl

theorem run_induction (P : PolicyBuilder → Prop) (hstep : ∀ b c, P b → P (b.apply c)) :
    ∀ (calls : List BuilderCall) {b : PolicyBuilder}, P b → P (b.run calls)
  | [], _, hb => hb
  | c :: calls, b, hb => run_induction P hstep calls (hstep b c hb)

theorem tryBuild_eq_ok {b b' : PolicyBuilder} {p : Policy} (h : b.tryBuild = .ok (p, b')) :
    b.lastStatus = none ∧ b.userPolicy.length ≤ kMaxUserPolicyLength ∧ b.alreadyBuilt = false ∧
      p = ⟨b.allowMapExec, b.allowSafeBpf,
        b.userPolicy ++ b.defaultAction.toList ++ b.overridablePolicy,
        b.userPolicyHandlesBpf, b.userPolicyHandlesPtrace⟩ ∧
      b' = { b with userPolicy := [], alreadyBuilt := true } := by
  unfold tryBuild at h
  split at h
  · cases h
  · rename_i hst
    by_cases hlong : b.userPolicy.length > kMaxUserPolicyLength
    · simp [hlong] at h
    · by_cases hbuilt : b.alreadyBuilt = true
      · simp [hlong, hbuilt] at h
      · simp only [hlong, hbuilt, if_false, Bool.false_eq_true, Except.ok.injEq, Prod.mk.injEq] at h
        exact ⟨hst, by omega, by simpa using hbuilt, h.1.symm, h.2.symm⟩

structure Keeps (b b' : PolicyBuilder) : Prop where
  allowMapExec : b'.allowMapExec = b.allowMapExec
  allowSafeBpf : b'.allowSafeBpf = b.allowSafeBpf
  alreadyBuilt : b'.alreadyBuilt = b.alreadyBuilt
  lastStatus : b.lastStatus ≠ none → b'.lastStatus ≠ none

section

variable (b : PolicyBuilder)

theorem Keeps.refl : Keeps b b := ⟨rfl, rfl, rfl, id⟩

theorem keeps_setError (status : Status) : Keeps b (b.setError status) :=
  ⟨rfl, rfl, rfl, fun _ => by simp [setError]⟩

theorem keeps_allowSyscall (num : UInt32) : Keeps b (b.allowSyscall num) := by
  unfold allowSyscall
  dsimp only
  split_ifs
  · exact Keeps.refl b
  · exact ⟨rfl, rfl, rfl, id⟩
  · exact ⟨rfl, rfl, rfl, fun _ => by simp [setError]⟩
  · exact ⟨rfl, rfl, rfl, id⟩

theorem keeps_blockSyscallWithErrno (num error : UInt32) :
    Keeps b (b.blockSyscallWithErrno num error) := by
  unfold blockSyscallWithErrno
  dsimp only
  split_ifs
  · exact Keeps.refl b
  all_goals exact ⟨rfl, rfl, rfl, id⟩

theorem keeps_trapPtrace : Keeps b b.trapPtrace := by
  unfold trapPtrace
  split_ifs
  · exact Keeps.refl b
  · exact ⟨rfl, rfl, rfl, id⟩

theorem keeps_addPolicyOnSyscalls (nums : List UInt32) (policy : List SockFilter) :
    Keeps b (b.addPolicyOnSyscalls nums policy) := by
  unfold addPolicyOnSyscalls
  split
  · exact keeps_setError b _
  · exact ⟨rfl, rfl, rfl, id⟩

theorem keeps_overridableAddPolicyOnSyscalls (nums : List UInt32) (policy : List SockFilter) :
    Keeps b (b.overridableAddPolicyOnSyscalls nums policy) := by
  unfold overridableAddPolicyOnSyscalls
  split
  · exact keeps_setError b _
  · exact ⟨rfl, rfl, rfl, id⟩

theorem apply_keeps_or (c : BuilderCall) :
    Keeps b (b.apply c) ∨ (c = .allowMapExec ∧ b.apply c = { b with allowMapExec := true }) ∨
      (c = .allowSafeBpf ∧ b.apply c = { b with allowSafeBpf := true }) := by
  cases c with
  | allowSyscall num => exact .inl (keeps_allowSyscall b num)
  | blockSyscallWithErrno num error => exact .inl (keeps_blockSyscallWithErrno b num error)
  | trapPtrace => exact .inl (keeps_trapPtrace b)
  | addPolicyOnSyscalls nums policy => exact .inl (keeps_addPolicyOnSyscalls b nums policy)
  | overridableAddPolicyOnSyscalls nums policy =>
    exact .inl (keeps_overridableAddPolicyOnSyscalls b nums policy)
  | overridableBlockSyscallWithErrno num error => exact .inl ⟨rfl, rfl, rfl, id⟩
  | defaultActionAllowAll => exact .inl ⟨rfl, rfl, rfl, id⟩
  | defaultActionTraceAll => exact .inl ⟨rfl, rfl, rfl, id⟩
  | allowMapExec => exact .inr (.inl ⟨rfl, rfl⟩)
  | allowSafeBpf => exact .inr (.inr ⟨rfl, rfl⟩)
  | setError status => exact .inl (keeps_setError b status)

end

theorem lastStatus_of_apply {b : PolicyBuilder} {c : BuilderCall}
    (h : (b.apply c).lastStatus = none) : b.lastStatus = none := by
  rcases apply_keeps_or b c with hk | ⟨-, he⟩ | ⟨-, he⟩
  · by_contra hne
    exact hk.lastStatus hne h
  · rwa [he] at h
  · rwa [he] at h

theorem run_allowMapExec (calls : List BuilderCall) : (init.run calls).allowMapExec = true := by
  refine run_induction (·.allowMapExec = true) (fun b c h => ?_) calls rfl
  rcases apply_keeps_or b c with hk | ⟨-, he⟩ | ⟨-, he⟩
  · exact hk.allowMapExec.trans h
  · rw [he]
  · rw [he]
    exact h

theorem run_allowSafeBpf {calls : List BuilderCall} :
    ∀ {b : PolicyBuilder}, (b.run calls).allowSafeBpf = true →
      b.allowSafeBpf = true ∨ .allowSafeBpf ∈ calls := by
  induction calls with
  | nil => exact fun h => .inl h
  | cons c calls ih =>
    intro b h
    rcases ih h with hb | hmem
    · rcases apply_keeps_or b c with hk | ⟨-, he⟩ | ⟨rfl, -⟩
      · exact .inl (hk.allowSafeBpf.symm.trans hb)
      · rw [he] at hb
        exact .inl hb
      · exact .inr List.mem_cons_self
    · exact .inr (List.mem_cons_of_mem c hmem)

end PolicyBuilder

end SandboxedApi

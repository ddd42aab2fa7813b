import SandboxedApi.Policy.Policy

namespace SandboxedApi

def ja (k : UInt32) : SockFilter := bpfStmt (bpfJmp + bpfJa) k

def unotifyArchProgram : List SockFilter :=
  [loadArch] ++ jne32 hostAuditArch deny ++ [loadSyscallNr]

def seccompMagicProgram : List SockFilter :=
  jne32 nrSeccomp (ja 4) ++ [arg32 3] ++ jne32 kExecveMagic (ja 1) ++ [allow, ja 0, loadSyscallNr]

def execveatProgram (action : SockFilter) : List SockFilter :=
  jne32 nrExecveat (ja 7) ++ [arg32 4] ++ jne32 atEmptyPath (ja 4) ++ [arg32 5] ++
    jne32 kExecveMagic (ja 1) ++ [action, ja 0, loadSyscallNr]

/-- `SECCOMP_RET_USER_NOTIF` for `execveat` when the kernel can continue notified calls. -/
def execveAction (continueSupported : Bool) : SockFilter :=
  if continueSupported then bpfStmt (bpfRet + bpfK) seccompRetUserNotif else allow

def traceArchProgram : List SockFilter :=
  [loadArch] ++ jeq32 auditArchI386 (trace cpuX86) ++ jne32 hostAuditArch (trace cpuUnknown) ++
    [loadSyscallNr]

def archProgram (continueSupported userNotif preExecve : Bool) : List SockFilter :=
  if userNotif then
    unotifyArchProgram ++ seccompMagicProgram ++
      (if preExecve then execveatProgram (execveAction continueSupported) else [])
  else
    traceArchProgram ++ (if preExecve then execveatProgram sandbox2Trace else [])

def safeBpfProgram : List SockFilter :=
  jne32 nrBpf (ja 13) ++ [arg32 0] ++ jeq32 bpfMapLookupElem allow ++ jeq32 bpfObjGet allow ++
    jeq32 bpfMapGetNextKey allow ++ jeq32 bpfMapGetNextId allow ++ jeq32 bpfMapGetFdById allow ++
    jeq32 bpfObjGetInfoByFd allow ++ [ja 0, loadSyscallNr]

def mmapProgram : List SockFilter :=
  jeq32 nrMmap (ja 5) ++ jeq32 nrMprotect (ja 3) ++ jeq32 nrPkeyMprotect (ja 1) ++
    [ja 5, ja 0, arg32 2] ++ ja32 protExec deny ++ [loadSyscallNr, ja 0]

/-- `DENY` for syscall `nr` with any of `flags` in the low half of argument `i`; the accumulator
keeps that argument when the call is `nr`. -/
def argFlagsProgram (nr : UInt32) (i : Fin 6) (flags : UInt32) : List SockFilter :=
  jne32 nr (ja 3) ++ [arg32 i] ++ ja32 flags deny ++ [ja 0]

def mapExecProgram : List SockFilter :=
  mmapProgram ++ argFlagsProgram nrShmat 2 shmExec ++ [loadSyscallNr]

def unsafeCloneFlags (userNotif : Bool) : UInt32 :=
  kNewNamespacesFlags ||| (if userNotif then 0 else cloneUntraced)

def cloneProgram (userNotif : Bool) : List SockFilter :=
  jeq32 nrClone3 (errno enosys) ++ argFlagsProgram nrClone 0 (unsafeCloneFlags userNotif) ++
    [loadSyscallNr] ++ argFlagsProgram nrUnshare 0 kNewNamespacesFlags ++ [loadSyscallNr] ++
    argFlagsProgram nrSeccomp 1 seccompFilterFlagNewListener

def Policy.defaultProgram (p : Policy) (continueSupported userNotif preExecve : Bool) :
    List SockFilter :=
  archProgram continueSupported userNotif preExecve ++ syscall kMagicSyscallNo (errno kMagicSyscallErr) ++
    (if p.userPolicyHandlesPtrace then [] else jeq32 nrPtrace deny) ++
    (if p.allowSafeBpf then safeBpfProgram else []) ++
    (if p.userPolicyHandlesBpf then [] else jeq32 nrBpf deny) ++
    (if p.allowMapExec then [] else mapExecProgram) ++ cloneProgram userNotif

@[simp] theorem unotifyArchProgram_length : unotifyArchProgram.length = 4 := rfl
@[simp] theorem seccompMagicProgram_length : seccompMagicProgram.length = 8 := rfl
@[simp] theorem execveatProgram_length (action : SockFilter) : (execveatProgram action).length = 11 :=
  rfl
@[simp] theorem traceArchProgram_length : traceArchProgram.length = 6 := rfl
@[simp] theorem safeBpfProgram_length : safeBpfProgram.length = 17 := rfl
@[simp] theorem mmapProgram_length : mmapProgram.length = 13 := rfl
@[simp] theorem argFlagsProgram_length (nr : UInt32) (i : Fin 6) (flags : UInt32) :
    (argFlagsProgram nr i flags).length = 6 := rfl
@[simp] theorem mapExecProgram_length : mapExecProgram.length = 20 := rfl
@[simp] theorem cloneProgram_length (userNotif : Bool) : (cloneProgram userNotif).length = 22 := rfl

theorem defaultProgram_length_le (p : Policy) (continueSupported userNotif preExecve : Bool) :
    (p.defaultProgram continueSupported userNotif preExecve).length ≤ 88 := by
  simp only [Policy.defaultProgram, archProgram, List.length_append]
  split_ifs <;> simp

theorem getDefaultPolicy_eq (p : Policy) (continueSupported userNotif preExecve : Bool) :
    p.getDefaultPolicy continueSupported userNotif preExecve =
      some (p.defaultProgram continueSupported userNotif preExecve) := by
  have hall : ∀ cs un pe mapExec safeBpf handlesBpf handlesPtrace : Bool,
      (Policy.mk mapExec safeBpf [] handlesBpf handlesPtrace).getDefaultPolicy cs un pe =
        some ((Policy.mk mapExec safeBpf [] handlesBpf handlesPtrace).defaultProgram cs un pe) := by
    decide +kernel
  exact hall continueSupported userNotif preExecve p.allowMapExec p.allowSafeBpf
    p.userPolicyHandlesBpf p.userPolicyHandlesPtrace

theorem getPolicy_eq (p : Policy) (continueSupported userNotif preExecve : Bool) :
    p.getPolicy false continueSupported userNotif preExecve =
      some (p.defaultProgram continueSupported userNotif preExecve ++ [loadSyscallNr] ++
        p.userPolicy ++ [kill]) := by
  simp [Policy.getPolicy, getDefaultPolicy_eq]

end SandboxedApi

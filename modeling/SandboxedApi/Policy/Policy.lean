import SandboxedApi.Bpf.Helper

namespace SandboxedApi

def nrMmap : UInt32 := 9
def nrMprotect : UInt32 := 10
def nrShmat : UInt32 := 30
def nrClone : UInt32 := 56
def nrPtrace : UInt32 := 101
def nrUnshare : UInt32 := 272
def nrSeccomp : UInt32 := 317
def nrBpf : UInt32 := 321
def nrExecveat : UInt32 := 322
def nrPkeyMprotect : UInt32 := 329
def nrClone3 : UInt32 := 435

def auditArchX8664 : UInt32 := 0xc000003e
def auditArchI386 : UInt32 := 0x40000003

def cpuUnknown : UInt32 := 0xcaf0
def cpuX8664 : UInt32 := 0xcaf1
def cpuX86 : UInt32 := 0xcaf2

/-- `Syscall::GetHostArch()` and `Syscall::GetHostAuditArch()`. -/
def hostArch : UInt32 := cpuX8664
def hostAuditArch : UInt32 := auditArchX8664

/-- `SANDBOX2_TRACE`. -/
def sandbox2Trace : SockFilter :=
  bpfStmt (bpfRet + bpfK) (seccompRetTrace ||| (hostArch &&& seccompRetData))

def kMagicSyscallNo : UInt32 := 0x2f000fdb
def kMagicSyscallErr : UInt32 := 0xfdb
def kExecveMagic : UInt32 := 0x921c2c34
def atEmptyPath : UInt32 := 0x1000

def bpfMapLookupElem : UInt32 := 1
def bpfMapGetNextKey : UInt32 := 4
def bpfObjGet : UInt32 := 7
def bpfMapGetNextId : UInt32 := 12
def bpfMapGetFdById : UInt32 := 14
def bpfObjGetInfoByFd : UInt32 := 15

def protExec : UInt32 := 0x4
def shmExec : UInt32 := 0x8000
def cloneUntraced : UInt32 := 0x00800000
def seccompFilterFlagNewListener : UInt32 := 0x8
def enosys : UInt32 := 38

/-- `kNewNamespacesFlags`: `CLONE_NEWNS | CLONE_NEWUSER | CLONE_NEWNET | CLONE_NEWUTS |
CLONE_NEWCGROUP | CLONE_NEWIPC | CLONE_NEWPID`. -/
def kNewNamespacesFlags : UInt32 :=
  0x00020000 ||| 0x10000000 ||| 0x40000000 ||| 0x04000000 ||| 0x02000000 ||| 0x08000000 ||| 0x20000000

structure Policy where
  allowMapExec : Bool
  allowSafeBpf : Bool
  userPolicy : List SockFilter
  userPolicyHandlesBpf : Bool
  userPolicyHandlesPtrace : Bool

def execveatCheck (action : SockFilter) : StateM BpfLabels (List SockFilter) := do
  let j1 ← jump "past_execveat_l"
  let j2 ← jump "past_execveat_l"
  let j3 ← jump "past_execveat_l"
  let l ← label "past_execveat_l"
  return jne32 nrExecveat j1 ++ [arg32 4] ++ jne32 atEmptyPath j2 ++ [arg32 5] ++
    jne32 kExecveMagic j3 ++ [action, l, loadSyscallNr]

def Policy.defaultPolicyUnresolved (p : Policy) (continueSupported userNotif
    enableSandboxingPreExecve : Bool) : StateM BpfLabels (List SockFilter) := do
  let head ← if userNotif then do
      let execveAction :=
        if continueSupported then bpfStmt (bpfRet + bpfK) seccompRetUserNotif else allow
      let j1 ← jump "past_seccomp_l"
      let j2 ← jump "past_seccomp_l"
      let l1 ← label "past_seccomp_l"
      let base := [loadArch] ++ jne32 hostAuditArch deny ++ [loadSyscallNr] ++
        jne32 nrSeccomp j1 ++ [arg32 3] ++ jne32 kExecveMagic j2 ++ [allow, l1, loadSyscallNr]
      if enableSandboxingPreExecve then pure (base ++ (← execveatCheck execveAction))
      else pure base
    else do
      let base := [loadArch] ++ jeq32 auditArchI386 (trace cpuX86) ++
        jne32 hostAuditArch (trace cpuUnknown) ++ [loadSyscallNr]
      if enableSandboxingPreExecve then pure (base ++ (← execveatCheck sandbox2Trace))
      else pure base
  let magic := syscall kMagicSyscallNo (errno kMagicSyscallErr)
  let ptrace := if p.userPolicyHandlesPtrace then [] else jeq32 nrPtrace deny
  let safeBpf ← if p.allowSafeBpf then do
      let j ← jump "past_bpf_l"
      let l ← label "past_bpf_l"
      pure <| jne32 nrBpf j ++ [arg32 0] ++ jeq32 bpfMapLookupElem allow ++ jeq32 bpfObjGet allow ++
        jeq32 bpfMapGetNextKey allow ++ jeq32 bpfMapGetNextId allow ++ jeq32 bpfMapGetFdById allow ++
        jeq32 bpfObjGetInfoByFd allow ++ [l, loadSyscallNr]
    else pure []
  let bpfDeny := if p.userPolicyHandlesBpf then [] else jeq32 nrBpf deny
  let mapExec ← if p.allowMapExec then pure [] else do
      let c1 ← jump "check_prot_arg_l"
      let c2 ← jump "check_prot_arg_l"
      let c3 ← jump "check_prot_arg_l"
      let pm ← jump "past_map_exec_l"
      let lc ← label "check_prot_arg_l"
      let lpm ← label "past_map_exec_l"
      let ps ← jump "past_shmat_l"
      let lps ← label "past_shmat_l"
      pure <| jeq32 nrMmap c1 ++ jeq32 nrMprotect c2 ++ jeq32 nrPkeyMprotect c3 ++ [pm, lc, arg32 2] ++
        ja32 protExec deny ++ [loadSyscallNr, lpm] ++ jne32 nrShmat ps ++ [arg32 2] ++
        ja32 shmExec deny ++ [lps, loadSyscallNr]
  let unsafeCloneFlags := kNewNamespacesFlags ||| (if userNotif then 0 else cloneUntraced)
  let jc ← jump "past_clone_unsafe_l"
  let lc ← label "past_clone_unsafe_l"
  let ju ← jump "past_unshare_unsafe_l"
  let lu ← label "past_unshare_unsafe_l"
  let js ← jump "past_seccomp_new_listener"
  let ls ← label "past_seccomp_new_listener"
  let clone := jeq32 nrClone3 (errno enosys) ++ jne32 nrClone jc ++ [arg32 0] ++
    ja32 unsafeCloneFlags deny ++ [lc, loadSyscallNr] ++ jne32 nrUnshare ju ++ [arg32 0] ++
    ja32 kNewNamespacesFlags deny ++ [lu, loadSyscallNr] ++ jne32 nrSeccomp js ++ [arg32 1] ++
    ja32 seccompFilterFlagNewListener deny ++ [ls]
  return head ++ magic ++ ptrace ++ safeBpf ++ bpfDeny ++ mapExec ++ clone

/-- `Policy::GetDefaultPolicy`; `none` is its `LOG(FATAL)` when the jumps do not resolve. -/
def Policy.getDefaultPolicy (p : Policy) (continueSupported userNotif
    enableSandboxingPreExecve : Bool) : Option (List SockFilter) :=
  let (policy, l) :=
    (p.defaultPolicyUnresolved continueSupported userNotif enableSandboxingPreExecve).run
      BpfLabels.empty
  let (rc, _, resolved) := bpfResolveJumps l policy
  if rc = 0 then some resolved else none

/-- `Policy::GetTrackingPolicy`. -/
def getTrackingPolicy : List SockFilter :=
  [loadArch, bpfJump (bpfJmp + bpfJeq + bpfK) hostAuditArch 0 3, loadSyscallNr,
    bpfJump (bpfJmp + bpfJeq + bpfK) kMagicSyscallNo 0 1, errno kMagicSyscallErr, loadArch] ++
  jeq32 auditArchX8664 (trace cpuX8664) ++ jeq32 auditArchI386 (trace cpuX86) ++ [trace cpuUnknown]

/-- `Policy::GetPolicy`; `permitAll` stands for the two `sandbox2_danger_danger_permit_all`
flags. The default policy, a reload of the syscall number, the user policy, then `KILL`. -/
def Policy.getPolicy (p : Policy) (permitAll continueSupported userNotif
    enableSandboxingPreExecve : Bool) : Option (List SockFilter) :=
  if permitAll then some getTrackingPolicy
  else (p.getDefaultPolicy continueSupported userNotif enableSandboxingPreExecve).map
    fun policy => policy ++ [loadSyscallNr] ++ p.userPolicy ++ [kill]

end SandboxedApi

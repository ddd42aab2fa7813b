import SandboxedApi.Bpf.Filter

namespace SandboxedApi

def jumpJt : UInt8 := 0xff
def jumpJf : UInt8 := 0xff
def labelJt : UInt8 := 0xfe
def labelJf : UInt8 := 0xfe

/-- `BPF_LABELS_MAX`. -/
def bpfLabelsMax : Nat := 256

/-- `BPF_MAXINSNS` of `linux/filter.h`. -/
def bpfMaxInsns : Nat := 4096

/-- `DENY` and its synonym `KILL`. -/
def kill : SockFilter := bpfStmt (bpfRet + bpfK) seccompRetKill
def deny : SockFilter := kill
def allow : SockFilter := bpfStmt (bpfRet + bpfK) seccompRetAllow

/-- `TRAP(val)`, `ERRNO(val)` and `TRACE(val)`, with `val` as its 32-bit pattern. -/
def trap (val : UInt32) : SockFilter := bpfStmt (bpfRet + bpfK) (seccompRetTrap ||| (val &&& seccompRetData))
def errno (val : UInt32) : SockFilter := bpfStmt (bpfRet + bpfK) (seccompRetErrno ||| (val &&& seccompRetData))
def trace (val : UInt32) : SockFilter := bpfStmt (bpfRet + bpfK) (seccompRetTrace ||| (val &&& seccompRetData))

@[simp] theorem kill_k : kill.k = seccompRetKill := rfl
@[simp] theorem deny_k : deny.k = seccompRetKill := rfl
@[simp] theorem allow_k : allow.k = seccompRetAllow := rfl
@[simp] theorem trap_k (val : UInt32) : (trap val).k = seccompRetTrap ||| (val &&& seccompRetData) := rfl
@[simp] theorem errno_k (val : UInt32) : (errno val).k = seccompRetErrno ||| (val &&& seccompRetData) :=
  rfl
@[simp] theorem trace_k (val : UInt32) : (trace val).k = seccompRetTrace ||| (val &&& seccompRetData) :=
  rfl

theorem errno_k_ne_allow (val : UInt32) : (errno val).k ≠ seccompRetAllow := by
  intro h
  have hbit := congrArg (fun x : UInt32 => x.toBitVec.getLsbD 17) h
  simp [seccompRetErrno, seccompRetAllow, seccompRetData] at hbit

/-- `SYSCALL(nr, jt)`. -/
def syscall (nr : UInt32) (jt : SockFilter) : List SockFilter :=
  [bpfJump (bpfJmp + bpfJeq + bpfK) nr 0 1, jt]

def jeq32 (value : UInt32) (jt : SockFilter) : List SockFilter :=
  [bpfJump (bpfJmp + bpfJeq + bpfK) value 0 1, jt]
def jne32 (value : UInt32) (jt : SockFilter) : List SockFilter :=
  [bpfJump (bpfJmp + bpfJeq + bpfK) value 1 0, jt]
def ja32 (value : UInt32) (jt : SockFilter) : List SockFilter :=
  [bpfJump (bpfJmp + bpfJset + bpfK) value 0 1, jt]
def jge32 (value : UInt32) (jt : SockFilter) : List SockFilter :=
  [bpfJump (bpfJmp + bpfJge + bpfK) value 0 1, jt]
def jgt32 (value : UInt32) (jt : SockFilter) : List SockFilter :=
  [bpfJump (bpfJmp + bpfJgt + bpfK) value 0 1, jt]
def jle32 (value : UInt32) (jt : SockFilter) : List SockFilter :=
  [bpfJump (bpfJmp + bpfJgt + bpfK) value 1 0, jt]
def jlt32 (value : UInt32) (jt : SockFilter) : List SockFilter :=
  [bpfJump (bpfJmp + bpfJge + bpfK) value 1 0, jt]

@[simp] theorem syscall_length (nr : UInt32) (jt : SockFilter) : (syscall nr jt).length = 2 := rfl
@[simp] theorem jeq32_length (value : UInt32) (jt : SockFilter) : (jeq32 value jt).length = 2 := rfl
@[simp] theorem jne32_length (value : UInt32) (jt : SockFilter) : (jne32 value jt).length = 2 := rfl
@[simp] theorem ja32_length (value : UInt32) (jt : SockFilter) : (ja32 value jt).length = 2 := rfl

def jeq64 (lo hi : UInt32) (jt : SockFilter) : List SockFilter :=
  [bpfJump (bpfJmp + bpfJeq + bpfK) hi 0 5, bpfStmt (bpfLd + bpfMem) 0,
    bpfJump (bpfJmp + bpfJeq + bpfK) lo 0 2, bpfStmt (bpfLd + bpfMem) 1, jt,
    bpfStmt (bpfLd + bpfMem) 1]

def jne64 (lo hi : UInt32) (jt : SockFilter) : List SockFilter :=
  [bpfJump (bpfJmp + bpfJeq + bpfK) hi 0 3, bpfStmt (bpfLd + bpfMem) 0,
    bpfJump (bpfJmp + bpfJeq + bpfK) lo 2 0, bpfStmt (bpfLd + bpfMem) 1, jt,
    bpfStmt (bpfLd + bpfMem) 1]

def ja64 (lo hi : UInt32) (jt : SockFilter) : List SockFilter :=
  [bpfJump (bpfJmp + bpfJset + bpfK) hi 3 0, bpfStmt (bpfLd + bpfMem) 0,
    bpfJump (bpfJmp + bpfJset + bpfK) lo 0 2, bpfStmt (bpfLd + bpfMem) 1, jt,
    bpfStmt (bpfLd + bpfMem) 1]

def jge64 (lo hi : UInt32) (jt : SockFilter) : List SockFilter :=
  [bpfJump (bpfJmp + bpfJgt + bpfK) hi 4 0, bpfJump (bpfJmp + bpfJeq + bpfK) hi 0 5,
    bpfStmt (bpfLd + bpfMem) 0, bpfJump (bpfJmp + bpfJge + bpfK) lo 0 2,
    bpfStmt (bpfLd + bpfMem) 1, jt, bpfStmt (bpfLd + bpfMem) 1]

def jgt64 (lo hi : UInt32) (jt : SockFilter) : List SockFilter :=
  [bpfJump (bpfJmp + bpfJgt + bpfK) hi 4 0, bpfJump (bpfJmp + bpfJeq + bpfK) hi 0 5,
    bpfStmt (bpfLd + bpfMem) 0, bpfJump (bpfJmp + bpfJgt + bpfK) lo 0 2,
    bpfStmt (bpfLd + bpfMem) 1, jt, bpfStmt (bpfLd + bpfMem) 1]

def jle64 (lo hi : UInt32) (jt : SockFilter) : List SockFilter :=
  [bpfJump (bpfJmp + bpfJge + bpfK) hi 0 4, bpfJump (bpfJmp + bpfJeq + bpfK) hi 0 5,
    bpfStmt (bpfLd + bpfMem) 0, bpfJump (bpfJmp + bpfJgt + bpfK) lo 2 0,
    bpfStmt (bpfLd + bpfMem) 1, jt, bpfStmt (bpfLd + bpfMem) 1]

def jlt64 (lo hi : UInt32) (jt : SockFilter) : List SockFilter :=
  [bpfJump (bpfJmp + bpfJge + bpfK) hi 0 4, bpfJump (bpfJmp + bpfJeq + bpfK) hi 0 5,
    bpfStmt (bpfLd + bpfMem) 0, bpfJump (bpfJmp + bpfJge + bpfK) lo 2 0,
    bpfStmt (bpfLd + bpfMem) 1, jt, bpfStmt (bpfLd + bpfMem) 1]

/-- `ARG_32(idx)`: the low half of an argument on a little-endian host. -/
def arg32 (idx : Fin 6) : SockFilter := bpfStmt (bpfLd + bpfW + bpfAbs) (offsetArg idx)

/-- `HI_ARG(idx)` on a little-endian host: the word after `LO_ARG(idx)`. -/
def hiArg (idx : Fin 6) : UInt32 := offsetArg idx + 4

/-- `ARG_64(idx)`: the low half of an argument into `M[0]`, its high half into `M[1]`, and the
high half left in the accumulator. -/
def arg64 (idx : Fin 6) : List SockFilter :=
  [bpfStmt (bpfLd + bpfW + bpfAbs) (offsetArg idx), bpfStmt bpfSt 0,
    bpfStmt (bpfLd + bpfW + bpfAbs) (hiArg idx), bpfStmt bpfSt 1]

def loadSyscallNr : SockFilter := bpfStmt (bpfLd + bpfW + bpfAbs) offsetNr
def loadArch : SockFilter := bpfStmt (bpfLd + bpfW + bpfAbs) offsetArch

structure BpfLabel where
  label : String
  location : UInt32
  deriving DecidableEq, Repr

/-- `struct bpf_labels`: `count` and the entries it covers. -/
structure BpfLabels where
  count : Nat
  labels : List BpfLabel
  deriving DecidableEq, Repr

/-- `bpf_labels l = {0}`. -/
def BpfLabels.empty : BpfLabels := ⟨0, []⟩

/-- `seccomp_bpf_label`: the index of `label`, added as unresolved if new. Past the table's
capacity it hands out `count` and bumps it without storing, which `bpf_resolve_jumps` rejects. -/
def seccompBpfLabel (label : String) : StateM BpfLabels UInt32 := fun l =>
  if l.count > bpfLabelsMax then (UInt32.ofNat l.count, l)
  else match l.labels.findIdx? (·.label == label) with
    | some id => (UInt32.ofNat id, l)
    | none =>
      if l.count = bpfLabelsMax then (UInt32.ofNat l.count, { l with count := l.count + 1 })
      else (UInt32.ofNat l.count, ⟨l.count + 1, l.labels ++ [⟨label, 0xffffffff⟩]⟩)

/-- `JUMP(labels, label)`. -/
def jump (label : String) : StateM BpfLabels SockFilter := do
  let id ← seccompBpfLabel label
  return bpfJump (bpfJmp + bpfJa) id jumpJt jumpJf

/-- `LABEL(labels, label)`. -/
def label (label : String) : StateM BpfLabels SockFilter := do
  let id ← seccompBpfLabel label
  return bpfJump (bpfJmp + bpfJa) id labelJt labelJf

def resolveJumpsFrom (l : BpfLabels) (filter : List SockFilter) :
    Nat → Int × BpfLabels × List SockFilter
  | 0 => (0, l, filter)
  | offset + 1 =>
    match filter[offset]? with
    | none => resolveJumpsFrom l filter offset
    | some instr =>
      if instr.code ≠ bpfJmp + bpfJa then resolveJumpsFrom l filter offset
      else if instr.k.toNat ≥ l.count then (1, l, filter)
      else
        let entry := l.labels[instr.k.toNat]?.getD ⟨"", 0xffffffff⟩
        if instr.jt = jumpJt ∧ instr.jf = jumpJf then
          if entry.location = 0xffffffff then (1, l, filter)
          else resolveJumpsFrom l (filter.set offset
            { instr with k := entry.location - UInt32.ofNat (offset + 1), jt := 0, jf := 0 }) offset
        else if instr.jt = labelJt ∧ instr.jf = labelJf then
          if entry.location ≠ 0xffffffff then (1, l, filter)
          else resolveJumpsFrom
            { l with labels := l.labels.set instr.k.toNat { entry with location := UInt32.ofNat offset } }
            (filter.set offset { instr with k := 0, jt := 0, jf := 0 }) offset
        else resolveJumpsFrom l filter offset

/-- `bpf_resolve_jumps`: its status (`0` on success) and the rewritten labels and filter. -/
def bpfResolveJumps (l : BpfLabels) (filter : List SockFilter) : Int × BpfLabels × List SockFilter :=
  if filter.length < 1 ∨ filter.length > bpfMaxInsns then (-1, l, filter)
  else if l.count > bpfLabelsMax then (-1, l, filter)
  else resolveJumpsFrom l filter filter.length

end SandboxedApi

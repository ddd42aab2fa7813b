import Mathlib.Data.List.Basic
import Mathlib.Algebra.Group.Nat.Defs
import Mathlib.Algebra.Group.Int.Defs

namespace SandboxedApi

structure SockFilter where
  code : UInt16
  jt : UInt8
  jf : UInt8
  k : UInt32
  deriving DecidableEq, Repr

def bpfLd : UInt16 := 0x00
def bpfLdx : UInt16 := 0x01
def bpfSt : UInt16 := 0x02
def bpfStx : UInt16 := 0x03
def bpfAlu : UInt16 := 0x04
def bpfJmp : UInt16 := 0x05
def bpfRet : UInt16 := 0x06
def bpfMisc : UInt16 := 0x07
def bpfW : UInt16 := 0x00
def bpfImm : UInt16 := 0x00
def bpfAbs : UInt16 := 0x20
def bpfMem : UInt16 := 0x60
def bpfLen : UInt16 := 0x80
def bpfK : UInt16 := 0x00
def bpfX : UInt16 := 0x08
def bpfA : UInt16 := 0x10
def bpfJa : UInt16 := 0x00
def bpfJeq : UInt16 := 0x10
def bpfJgt : UInt16 := 0x20
def bpfJge : UInt16 := 0x30
def bpfJset : UInt16 := 0x40

/-- `BPF_CLASS(code)`. -/
def bpfClass (code : UInt16) : UInt16 := code &&& 0x07

/-- `BPF_OP(code)`. -/
def bpfOp (code : UInt16) : UInt16 := code &&& 0xf0

/-- `BPF_SRC(code)`. -/
def bpfSrc (code : UInt16) : UInt16 := code &&& 0x08

/-- `BPF_STMT(code, k)`. -/
def bpfStmt (code : UInt16) (k : UInt32) : SockFilter := ⟨code, 0, 0, k⟩

theorem bpfStmt_eq (code : UInt16) (k : UInt32) : bpfStmt code k = ⟨code, 0, 0, k⟩ := rfl

/-- `BPF_JUMP(code, k, jt, jf)`. -/
def bpfJump (code : UInt16) (k : UInt32) (jt jf : UInt8) : SockFilter := ⟨code, jt, jf, k⟩

theorem bpfJump_eq (code : UInt16) (k : UInt32) (jt jf : UInt8) :
    bpfJump code k jt jf = ⟨code, jt, jf, k⟩ := rfl

def seccompRetKill : UInt32 := 0x00000000
def seccompRetTrap : UInt32 := 0x00030000
def seccompRetErrno : UInt32 := 0x00050000
def seccompRetUserNotif : UInt32 := 0x7fc00000
def seccompRetTrace : UInt32 := 0x7ff00000
def seccompRetAllow : UInt32 := 0x7fff0000
def seccompRetAction : UInt32 := 0x7fff0000
def seccompRetData : UInt32 := 0x0000ffff

/-- `struct seccomp_data`: `nr` is the bit pattern of the `int` field. -/
structure SeccompData where
  nr : UInt32
  arch : UInt32
  instructionPointer : UInt64
  args : Fin 6 → UInt64

instance instNeZeroArgCount : @NeZero Nat Zero.ofOfNat0 6 := ⟨by decide⟩

/-- `sizeof(struct seccomp_data)`. -/
def seccompDataSize : Nat := 64

def lo32 (v : UInt64) : UInt32 := v.toUInt32

def hi32 (v : UInt64) : UInt32 := (v >>> 32).toUInt32

def SeccompData.word (d : SeccompData) (i : Nat) : UInt32 :=
  match i with
  | 0 => d.nr
  | 1 => d.arch
  | 2 => lo32 d.instructionPointer
  | 3 => hi32 d.instructionPointer
  | i + 4 => if h : i / 2 < 6 then
      (if i % 2 = 0 then lo32 (d.args ⟨i / 2, h⟩) else hi32 (d.args ⟨i / 2, h⟩)) else 0

def SeccompData.load (d : SeccompData) (k : UInt32) : UInt32 := d.word (k.toNat / 4)

/-- `offsetof(struct seccomp_data, nr)`, `arch` and `args[i]` (low half). -/
def offsetNr : UInt32 := 0
def offsetArch : UInt32 := 4
def offsetArg (i : Fin 6) : UInt32 := UInt32.ofNat (16 + 8 * i.val)

theorem load_offsetNr (d : SeccompData) : d.load offsetNr = d.nr := rfl

theorem load_offsetArch (d : SeccompData) : d.load offsetArch = d.arch := rfl

theorem load_offsetArg (d : SeccompData) (i : Fin 6) : d.load (offsetArg i) = lo32 (d.args i) := by
  rcases i with ⟨_ | _ | _ | _ | _ | _ | i, hi⟩
  all_goals first | omega | simp [SeccompData.load, offsetArg, SeccompData.word]

end SandboxedApi

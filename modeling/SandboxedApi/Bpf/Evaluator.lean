import SandboxedApi.Bpf.Filter
import SandboxedApi.Machine.Loop
import Mathlib.Logic.Function.Basic

namespace SandboxedApi

inductive EvalError
  | divisionByZero
  | invalidAluOperation
  | invalidJumpOperation
  | outOfBoundsExecution
  | misalignedRead (k : UInt32)
  | outOfBoundsRead (k : UInt32)
  | outOfBoundsMemoryLoad (k : UInt32)
  | uninitializedMemoryLoad (k : UInt32)
  | outOfBoundsMemoryStore (k : UInt32)
  | invalidInstruction (code : UInt16)
  | fallThroughOutOfBounds
  | outOfBoundsJump
  deriving DecidableEq, Repr

def EvalError.message : EvalError → String
  | .divisionByZero => "Division by zero"
  | .invalidAluOperation => "Invalid ALU operation"
  | .invalidJumpOperation => "Invalid jump operation"
  | .outOfBoundsExecution => "Out of bounds execution"
  | .misalignedRead k => "Misaligned read (" ++ toString k ++ ")"
  | .outOfBoundsRead k => "Out of bounds read (" ++ toString k ++ ")"
  | .outOfBoundsMemoryLoad k => "Out of bounds memory load (" ++ toString k ++ " >= 16)"
  | .uninitializedMemoryLoad k => "Uninitialized memory load at M[" ++ toString k ++ "]"
  | .outOfBoundsMemoryStore k => "Out of bounds memory store (" ++ toString k ++ " >= 16)"
  | .invalidInstruction code => "Invalid instruction " ++ toString code
  | .fallThroughOutOfBounds => "Fall through to out of bounds execution"
  | .outOfBoundsJump => "Out of bounds jump"

/-- `EvaluateAlu`. The shifts are Lean's, which reduce the amount modulo 32 where C++ leaves
amounts of 32 and more undefined. -/
def evaluateAlu (op : UInt16) (a b : UInt32) : Except EvalError UInt32 :=
  match op.toNat with
  | 0x00 => .ok (a + b)
  | 0x10 => .ok (a - b)
  | 0x20 => .ok (a * b)
  | 0x30 => if b = 0 then .error .divisionByZero else .ok (a / b)
  | 0x40 => .ok (a ||| b)
  | 0x50 => .ok (a &&& b)
  | 0xa0 => .ok (a ^^^ b)
  | 0x60 => .ok (a <<< b)
  | 0x70 => .ok (a >>> b)
  | 0x80 => .ok (-a)
  | _ => .error .invalidAluOperation

/-- `EvaluateCmp`. -/
def evaluateCmp (cmp : UInt16) (a b : UInt32) : Except EvalError Bool :=
  match cmp.toNat with
  | 0x10 => .ok (a == b)
  | 0x20 => .ok (decide (a > b))
  | 0x30 => .ok (decide (a ≥ b))
  | 0x40 => .ok ((a &&& b) != 0)
  | _ => .error .invalidJumpOperation

structure Interpreter where
  pc : Nat
  accumulator : UInt32
  xReg : UInt32
  mem : Fin 16 → Option UInt32
  result : Option UInt32

def Interpreter.init : Interpreter := ⟨0, 0, 0, fun _ => none, none⟩

def advance (prog : List SockFilter) (s : Interpreter) (offset : UInt32) :
    Except EvalError Interpreter :=
  if s.pc > UInt32.size - 1 - 1 ∨ s.pc + 1 ≥ prog.length then .error .fallThroughOutOfBounds
  else if offset ≠ 0 ∧ (s.pc + 1 > UInt32.size - 1 - offset.toNat ∨
      s.pc + 1 + offset.toNat ≥ prog.length) then .error .outOfBoundsJump
  else .ok { s with pc := s.pc + 1 + offset.toNat }

/-- `Interpreter::EvaluateSingleInstruction`, with the `switch` over the exact opcodes it accepts. -/
def evaluateSingleInstruction (prog : List SockFilter) (data : SeccompData) (s : Interpreter) :
    Except EvalError Interpreter :=
  match prog[s.pc]? with
  | none => .error .outOfBoundsExecution
  | some inst =>
    match inst.code.toNat with
    | 0x20 =>
      if inst.k &&& 3 ≠ 0 then .error (.misalignedRead inst.k)
      else if inst.k.toNat + 4 > seccompDataSize then .error (.outOfBoundsRead inst.k)
      else advance prog { s with accumulator := data.load inst.k } 0
    | 0x80 => advance prog { s with accumulator := UInt32.ofNat seccompDataSize } 0
    | 0x81 => advance prog { s with xReg := UInt32.ofNat seccompDataSize } 0
    | 0x00 => advance prog { s with accumulator := inst.k } 0
    | 0x01 => advance prog { s with xReg := inst.k } 0
    | 0x07 => advance prog { s with xReg := s.accumulator } 0
    | 0x87 => advance prog { s with accumulator := s.xReg } 0
    | 0x60 =>
      if h : inst.k.toNat < 16 then
        match s.mem ⟨inst.k.toNat, h⟩ with
        | none => .error (.uninitializedMemoryLoad inst.k)
        | some v => advance prog { s with accumulator := v } 0
      else .error (.outOfBoundsMemoryLoad inst.k)
    | 0x61 =>
      if h : inst.k.toNat < 16 then
        match s.mem ⟨inst.k.toNat, h⟩ with
        | none => .error (.uninitializedMemoryLoad inst.k)
        | some v => advance prog { s with xReg := v } 0
      else .error (.outOfBoundsMemoryLoad inst.k)
    | 0x02 =>
      if h : inst.k.toNat < 16 then
        advance prog { s with mem := Function.update s.mem ⟨inst.k.toNat, h⟩ (some s.accumulator) } 0
      else .error (.outOfBoundsMemoryStore inst.k)
    | 0x03 =>
      if h : inst.k.toNat < 16 then
        advance prog { s with mem := Function.update s.mem ⟨inst.k.toNat, h⟩ (some s.xReg) } 0
      else .error (.outOfBoundsMemoryStore inst.k)
    | 0x06 => .ok { s with result := some inst.k }
    | 0x16 => .ok { s with result := some s.accumulator }
    | 0x04 | 0x14 | 0x24 | 0x34 | 0x54 | 0x44 | 0xa4 | 0x64 | 0x74
    | 0x0c | 0x1c | 0x2c | 0x3c | 0x5c | 0x4c | 0xac | 0x6c | 0x7c | 0x84 =>
      let val := if bpfSrc inst.code = bpfK then inst.k else s.xReg
      match evaluateAlu (bpfOp inst.code) s.accumulator val with
      | .error e => .error e
      | .ok a => advance prog { s with accumulator := a } 0
    | 0x05 => advance prog s inst.k
    | 0x15 | 0x35 | 0x25 | 0x45 | 0x1d | 0x3d | 0x2d | 0x4d =>
      let val := if bpfSrc inst.code = bpfK then inst.k else s.xReg
      match evaluateCmp (bpfOp inst.code) s.accumulator val with
      | .error e => .error e
      | .ok cond => advance prog s (if cond then inst.jt.toUInt32 else inst.jf.toUInt32)
    | _ => .error (.invalidInstruction inst.code)

/-- `Interpreter::Evaluate`: `while (!result_.has_value())` one instruction. Every round that
leaves no result moves `pc` forward inside the program, so `prog.length + 1` rounds are always
enough (`evaluate_outcome`). -/
def evaluate (prog : List SockFilter) (data : SeccompData) : Except EvalError UInt32 :=
  Machine.loop (evaluateSingleInstruction prog data) Interpreter.result .outOfBoundsExecution
    (prog.length + 1) Interpreter.init

end SandboxedApi

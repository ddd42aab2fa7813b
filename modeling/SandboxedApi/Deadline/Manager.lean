import Mathlib.Order.WithBot
import Mathlib.Data.Prod.Lex
import Mathlib.Logic.Function.Basic
import SandboxedApi.Lib.SortedSet
import SandboxedApi.Lib.Trace

namespace SandboxedApi

/-- `absl::Time`: a count of nanoseconds, or one of the two infinities. -/
inductive Time where
  | infinitePast
  | finite (ns : Int)
  | infiniteFuture
  deriving DecidableEq, Repr

def Time.rank : Time → WithBot (WithTop Int)
  | .infinitePast => ⊥
  | .finite t => ((t : WithTop Int) : WithBot (WithTop Int))
  | .infiniteFuture => ((⊤ : WithTop Int) : WithBot (WithTop Int))

theorem Time.rank_injective : Function.Injective Time.rank := by
  intro a b h
  cases a <;> cases b <;> simp_all [Time.rank]

instance : LinearOrder Time := LinearOrder.lift' Time.rank Time.rank_injective

/-- `kResolution`: 10 ms. -/
def kResolution : Int := 10000000

/-- `RoundUpTo(time, resolution)`: up to a multiple of the resolution. `absl::Ceil` leaves an
infinite duration as it is, so both infinities stay. -/
def roundUpTo (time : Time) (resolution : Int) : Time :=
  match time with
  | .infinitePast => .infinitePast
  | .finite t => .finite ((t + resolution - 1) / resolution * resolution)
  | .infiniteFuture => .infiniteFuture

example : roundUpTo (.finite 10000001) kResolution = .finite 20000000 ∧
    roundUpTo (.finite (-5)) kResolution = .finite 0 := by decide

/-- `DeadlineRegistration::Data`. -/
structure Data where
  deadline : Time
  tid : Int
  inBlockingFn : Bool
  notificationAttempt : Nat
  deriving DecidableEq, Repr

def Data.init : Data := ⟨.infiniteFuture, -1, false, 0⟩

structure Registration where
  lastDeadline : Time
  data : Data
  inSyscall : Bool
  deriving DecidableEq, Repr

def Registration.init : Registration := ⟨.infiniteFuture, .init, false⟩

structure QueueKey where
  deadline : Time
  data : Nat
  deriving DecidableEq, Repr

/-- `ByDeadline`: by deadline, then by address. -/
def QueueKey.lexKey (k : QueueKey) : Time ×ₗ Nat := toLex (k.deadline, k.data)

theorem QueueKey.lexKey_injective : Function.Injective QueueKey.lexKey := by
  intro a b h
  cases a
  cases b
  simp_all [QueueKey.lexKey]

instance : LinearOrder QueueKey := LinearOrder.lift' QueueKey.lexKey QueueKey.lexKey_injective

theorem QueueKey.lt_iff {a b : QueueKey} :
    a < b ↔ a.deadline < b.deadline ∨ (a.deadline = b.deadline ∧ a.data < b.data) :=
  Prod.Lex.toLex_lt_toLex

inductive ManagerPc where
  | loop
  | awaiting (nextDeadline : Time)
  | notifying (nextDeadline : Time)
  deriving DecidableEq, Repr

structure DeadlineState where
  now : Int
  registrations : Nat → Option Registration
  queue : List QueueKey
  pc : ManagerPc

namespace DeadlineState

def init (now : Int) : DeadlineState := ⟨now, fun _ => none, [], .loop⟩

/-- `data->deadline` read through an address in `queue_`; no reachable state queues an address
without a live registration. -/
def deadlineOf (s : DeadlineState) (r : Nat) : Time :=
  match s.registrations r with
  | some reg => reg.data.deadline
  | none => .infiniteFuture

def setRegistration (s : DeadlineState) (r : Nat) (reg : Registration) : DeadlineState :=
  { s with registrations := Function.update s.registrations r (some reg) }

/-- `DeadlineManager::Register`, for a new registration whose `Data` is at `r`. -/
def register (s : DeadlineState) (r : Nat) : DeadlineState := s.setRegistration r .init

def adjustDeadline (queue : List QueueKey) (r : Nat) (data : Data) (deadline : Time) :
    List QueueKey × Data :=
  let queue := queue.erase ⟨data.deadline, r⟩
  let data := { data with notificationAttempt := 0, deadline := roundUpTo deadline kResolution }
  (if deadline ≠ .infiniteFuture then SortedSet.insert ⟨data.deadline, r⟩ queue else queue, data)

/-- `DeadlineRegistration::SetDeadline` on the registration `reg` at `r`. -/
def setDeadline (s : DeadlineState) (r : Nat) (reg : Registration) (deadline : Time) :
    DeadlineState :=
  if deadline ≠ reg.lastDeadline then
    let adjusted := adjustDeadline s.queue r reg.data deadline
    { s with
      queue := adjusted.1
      registrations :=
        Function.update s.registrations r (some { reg with data := adjusted.2, lastDeadline := deadline }) }
  else s

def enterBlockingSyscall (data : Data) (now tid : Int) : Data × Bool :=
  let data := { data with tid := tid }
  if data.notificationAttempt > 0 ∨ data.deadline ≤ .finite now then (data, false)
  else ({ data with inBlockingFn := true }, true)

/-- `ExecuteBlockingSyscall` on the registration `reg` at `r` up to `blocking_fn`. -/
def enter (s : DeadlineState) (r : Nat) (reg : Registration) (tid : Int) : DeadlineState :=
  let entered := enterBlockingSyscall reg.data s.now tid
  s.setRegistration r { reg with data := entered.1, inSyscall := entered.2 }

def exit (s : DeadlineState) (r : Nat) (reg : Registration) : DeadlineState :=
  s.setRegistration r { reg with data := { reg.data with inBlockingFn := false }, inSyscall := false }

/-- `DeadlineManager::Unregister`, from the destructor of the registration `reg` at `r`; its
`Data` is freed. -/
def unregister (s : DeadlineState) (r : Nat) (reg : Registration) : DeadlineState :=
  { s with
    queue := s.queue.erase ⟨reg.data.deadline, r⟩
    registrations := Function.update s.registrations r none }

def nextDeadline (s : DeadlineState) : Time :=
  match s.queue with
  | [] => .infiniteFuture
  | k :: _ => s.deadlineOf k.data

/-- `next_deadline_changed_or_cancelled`; `cancelled_` stays false until the destructor. -/
def nextDeadlineChanged (s : DeadlineState) (nextDeadline : Time) : Bool :=
  match s.queue with
  | [] => false
  | k :: _ => nextDeadline ≠ s.deadlineOf k.data

def expBackoff (attempt : Nat) : Int := 2 ^ min (attempt / 8) 10

def notifyFirst (s : DeadlineState) (nextDeadline : Time) : DeadlineState × Option (Nat × Int) :=
  match s.queue with
  | [] => ({ s with pc := .loop }, none)
  | k :: rest =>
    match s.registrations k.data with
    | none => ({ s with pc := .loop }, none)
    | some reg =>
      if reg.data.deadline ≤ nextDeadline then
        let data := { reg.data with notificationAttempt := reg.data.notificationAttempt + 1 }
        if data.inBlockingFn then
          let next := roundUpTo (.finite (s.now + kResolution * expBackoff data.notificationAttempt))
            kResolution
          let data := { data with deadline := next }
          ({ s with
              queue := SortedSet.insert ⟨next, k.data⟩ rest
              registrations := Function.update s.registrations k.data (some { reg with data := data }) },
            some (k.data, data.tid))
        else
          ({ s with
              queue := rest
              registrations := Function.update s.registrations k.data (some { reg with data := data }) },
            none)
      else ({ s with pc := .loop }, none)

end DeadlineState

inductive DeadlineEvent where
  | register (r : Nat)
  | setDeadline (r : Nat) (deadline : Time) (changed : Bool)
  | enter (r : Nat) (tid : Int) (started : Bool)
  | exit (r : Nat)
  | unregister (r : Nat)
  | await
  | wake
  | timeout
  | notify (signalled : Option (Nat × Int))
  | clock (now : Int)
  deriving DecidableEq, Repr

open DeadlineState in
inductive DeadlineStep : DeadlineState → DeadlineEvent → DeadlineState → Prop
  | register {s : DeadlineState} {r : Nat} (hfree : s.registrations r = none) :
      DeadlineStep s (.register r) (s.register r)
  | setDeadline {s : DeadlineState} {r : Nat} {reg : Registration} (deadline : Time)
      (hreg : s.registrations r = some reg) :
      DeadlineStep s (.setDeadline r deadline (deadline ≠ reg.lastDeadline)) (s.setDeadline r reg deadline)
  | enter {s : DeadlineState} {r : Nat} {reg : Registration} (tid : Int)
      (hreg : s.registrations r = some reg) (hout : reg.inSyscall = false) :
      DeadlineStep s (.enter r tid (enterBlockingSyscall reg.data s.now tid).2) (s.enter r reg tid)
  | exit {s : DeadlineState} {r : Nat} {reg : Registration} (hreg : s.registrations r = some reg)
      (hin : reg.inSyscall = true) : DeadlineStep s (.exit r) (s.exit r reg)
  | unregister {s : DeadlineState} {r : Nat} {reg : Registration}
      (hreg : s.registrations r = some reg) (hout : reg.inSyscall = false) :
      DeadlineStep s (.unregister r) (s.unregister r reg)
  | await {s : DeadlineState} (hpc : s.pc = .loop) :
      DeadlineStep s .await { s with pc := .awaiting s.nextDeadline }
  | wake {s : DeadlineState} {nextDeadline : Time} (hpc : s.pc = .awaiting nextDeadline)
      (hchanged : s.nextDeadlineChanged nextDeadline = true) :
      DeadlineStep s .wake { s with pc := .loop }
  | timeout {s : DeadlineState} {nextDeadline : Time} (hpc : s.pc = .awaiting nextDeadline)
      (hexpired : nextDeadline ≤ .finite s.now)
      (hchanged : s.nextDeadlineChanged nextDeadline = false) :
      DeadlineStep s .timeout { s with pc := .notifying nextDeadline }
  | notify {s : DeadlineState} {nextDeadline : Time} (hpc : s.pc = .notifying nextDeadline) :
      DeadlineStep s (.notify (s.notifyFirst nextDeadline).2) (s.notifyFirst nextDeadline).1
  | clock {s : DeadlineState} (now : Int) : DeadlineStep s (.clock now) { s with now := now }

end SandboxedApi

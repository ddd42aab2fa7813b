import SandboxedApi.Deadline.Manager

namespace SandboxedApi

variable {σ ρ : Type}

/-- `WaitResult`: a pid that needs attention, its status and its `rusage`. -/
structure PidWaiter.WaitResult (ρ : Type) where
  pid : Int
  status : Int
  rusage : ρ

/-- `PidWaiter`. `registration` is `deadline_registration_` once it is made, with the deadline
last set on it. -/
structure PidWaiter (ρ : Type) where
  priorityPid : Int
  statuses : List (PidWaiter.WaitResult ρ)
  lastErrno : Int
  deadline : Time
  registration : Option Time
  notified : Bool

namespace PidWaiter

/-- `PidWaiter(priority_pid)`: `deadline_` is `absl::InfinitePast()`. -/
def init (priorityPid : Int) : PidWaiter ρ := ⟨priorityPid, [], 0, .infinitePast, none, false⟩

structure WaitPidAnswer (ρ : Type) where
  ret : Int
  status : Int
  rusage : ρ
  errno : Int

structure Env (σ ρ : Type) where
  waitPid : σ → Int → Nat → WaitPidAnswer ρ × σ
  executesBlockingFn : σ → Time → Bool × σ

def wnohang : Nat := 1
def wuntraced : Nat := 2
def wnothread : Nat := 0x20000000
def wall : Nat := 0x40000000

def waitFlags (blocking : Bool) : Nat :=
  if blocking then wnothread ||| wall ||| wuntraced else wnothread ||| wall ||| wuntraced ||| wnohang

def kMaxIterations : Nat := 1000
def kPriorityCheckPeriod : Nat := 100

section

variable (env : Env σ ρ)

/-- `CheckStatus(pid, blocking)`: whether `WaitPid` reaped a status, which goes to the back of
`statuses_`, or failed, which leaves its `errno` in `last_errno_`. -/
def checkStatus (pid : Int) (blocking : Bool) (s : PidWaiter ρ × σ) : Bool × PidWaiter ρ × σ :=
  let (a, k) := env.waitPid s.2 pid (waitFlags blocking)
  if a.ret < 0 then (true, { s.1 with lastErrno := a.errno }, k)
  else if a.ret = 0 then (false, s.1, k)
  else (true, { s.1 with statuses := s.1.statuses ++ [⟨a.ret, a.status, a.rusage⟩] }, k)

def refillLoop (i : Nat) (s : PidWaiter ρ × σ) : Bool × PidWaiter ρ × σ :=
  if h : s.1.lastErrno = 0 ∧ i < kMaxIterations then
    let shouldCheckPriority := s.1.priorityPid ≠ -1 ∧ i % kPriorityCheckPeriod = 0
    let checked := if shouldCheckPriority then checkStatus env s.1.priorityPid false s else (false, s)
    if checked.1 then (true, checked.2)
    else
      let found := checkStatus env (-1) false checked.2
      if found.1 then refillLoop (i + 1) found.2 else (false, found.2)
  else (false, s)
termination_by kMaxIterations - i
decreasing_by omega

def clearNotified (s : PidWaiter ρ × σ) : PidWaiter ρ × σ := ({ s.1 with notified := false }, s.2)

/-- `RefillStatuses`. -/
def refillStatuses (s : PidWaiter ρ × σ) : PidWaiter ρ × σ :=
  clearNotified <|
    if !s.1.statuses.isEmpty then s
    else
      let looped := refillLoop env 0 s
      if looped.1 ∨ !looped.2.1.statuses.isEmpty then looped.2
      else if looped.2.1.deadline = .infinitePast ∨ looped.2.1.notified then looped.2
      else
        let w := { looped.2.1 with registration := some looped.2.1.deadline }
        let (runs, k) := env.executesBlockingFn looped.2.2 w.deadline
        if runs then (checkStatus env (-1) true (w, k)).2 else (w, k)

inductive WaitOutcome (ρ : Type) where
  | reaped (r : WaitResult ρ)
  | nothing
  | failed (errno : Int)

/-- `Wait(status, rusage)`. -/
def wait (s : PidWaiter ρ × σ) : WaitOutcome ρ × PidWaiter ρ × σ :=
  let s := refillStatuses env s
  match s.1.statuses with
  | [] =>
    if s.1.lastErrno = 0 then (.nothing, s)
    else (.failed s.1.lastErrno, ({ s.1 with lastErrno := 0 }, s.2))
  | entry :: rest => (.reaped entry, ({ s.1 with statuses := rest }, s.2))

/-- `Notify()`: the registration, once made, is given a deadline in the past. -/
def notify (w : PidWaiter ρ) : PidWaiter ρ :=
  { w with registration := w.registration.map fun _ => .infinitePast, notified := true }

inductive Call where
  | wait
  | setPriorityPid (pid : Int)
  | setDeadline (deadline : Time)
  | notify

def Call.apply : Call → PidWaiter ρ × σ → Option (WaitOutcome ρ) × PidWaiter ρ × σ
  | .wait, s => let r := PidWaiter.wait env s; (some r.1, r.2)
  | .setPriorityPid pid, s => (none, { s.1 with priorityPid := pid }, s.2)
  | .setDeadline deadline, s => (none, { s.1 with deadline := deadline }, s.2)
  | .notify, s => (none, PidWaiter.notify s.1, s.2)

def run : List Call → PidWaiter ρ × σ → List (WaitOutcome ρ) × PidWaiter ρ × σ
  | [], s => ([], s)
  | c :: cs, s =>
    let r := Call.apply env c s
    let rest := run cs r.2
    (r.1.toList ++ rest.1, rest.2)

end

def WaitOutcome.reapedList : WaitOutcome ρ → List (WaitResult ρ)
  | .reaped r => [r]
  | _ => []

def Env.logged (env : Env σ ρ) : Env (σ × List (WaitResult ρ)) ρ where
  waitPid k pid flags :=
    let (a, k') := env.waitPid k.1 pid flags
    (a, k', if 0 < a.ret then k.2 ++ [⟨a.ret, a.status, a.rusage⟩] else k.2)
  executesBlockingFn k deadline :=
    let (runs, k') := env.executesBlockingFn k.1 deadline
    (runs, k', k.2)

def Accounts (handedOut : List (WaitResult ρ)) (s : PidWaiter ρ × σ × List (WaitResult ρ)) :
    Prop :=
  handedOut ++ s.1.statuses = s.2.2

section

variable (env : Env σ ρ) {handedOut : List (WaitResult ρ)}

theorem checkStatus_accounts {s : PidWaiter ρ × σ × List (WaitResult ρ)} (pid : Int)
    (blocking : Bool) (h : Accounts handedOut s) :
    Accounts handedOut (checkStatus env.logged pid blocking s).2 := by
  obtain ⟨w, k, log⟩ := s
  simp only [Accounts] at h
  obtain ⟨⟨a, k'⟩, hr⟩ : ∃ r, env.waitPid k pid (waitFlags blocking) = r := ⟨_, rfl⟩
  by_cases hneg : a.ret < 0
  · simp [checkStatus, Env.logged, hr, Accounts, hneg, h, show ¬ 0 < a.ret by omega]
  · by_cases hzero : a.ret = 0
    · simp [checkStatus, Env.logged, hr, Accounts, hzero, h]
    · simp [checkStatus, Env.logged, hr, Accounts, hneg, hzero, show 0 < a.ret by omega, ← h]

theorem checkPriority_accounts {s : PidWaiter ρ × σ × List (WaitResult ρ)} (due : Prop)
    [Decidable due] (h : Accounts handedOut s) :
    Accounts handedOut
      (if due then checkStatus env.logged s.1.priorityPid false s else (false, s)).2 := by
  split
  · exact checkStatus_accounts env _ false h
  · exact h

theorem refillLoop_accounts {s : PidWaiter ρ × σ × List (WaitResult ρ)} (i : Nat)
    (h : Accounts handedOut s) : Accounts handedOut (refillLoop env.logged i s).2 := by
  fun_induction refillLoop env.logged i s with
  | case1 i s _ due checked _ => exact checkPriority_accounts env due h
  | case2 i s _ due checked _ found _ ih =>
    exact ih (checkStatus_accounts env (-1) false (checkPriority_accounts env due h))
  | case3 i s _ due checked _ found _ =>
    exact checkStatus_accounts env (-1) false (checkPriority_accounts env due h)
  | case4 => exact h

theorem clearNotified_accounts {s : PidWaiter ρ × σ × List (WaitResult ρ)} :
    Accounts handedOut (clearNotified s) ↔ Accounts handedOut s :=
  Iff.rfl

theorem refillStatuses_accounts {s : PidWaiter ρ × σ × List (WaitResult ρ)}
    (h : Accounts handedOut s) : Accounts handedOut (refillStatuses env.logged s) := by
  have hloop := refillLoop_accounts env 0 h
  rw [refillStatuses, clearNotified_accounts]
  dsimp only
  generalize refillLoop env.logged 0 s = looped at hloop
  obtain ⟨_, w, k, log⟩ := looped
  split_ifs
  · exact h
  · exact hloop
  · exact hloop
  · exact checkStatus_accounts env (-1) true hloop
  · exact hloop

theorem wait_accounts {s : PidWaiter ρ × σ × List (WaitResult ρ)} (h : Accounts handedOut s) :
    Accounts (handedOut ++ (wait env.logged s).1.reapedList) (wait env.logged s).2 := by
  have hr := refillStatuses_accounts env h
  dsimp only [wait]
  generalize refillStatuses env.logged s = r at hr
  obtain ⟨w, k, log⟩ := r
  cases hst : w.statuses with
  | nil =>
    split_ifs <;> simpa [Accounts, WaitOutcome.reapedList, hst] using hr
  | cons entry rest =>
    simpa [Accounts, WaitOutcome.reapedList, hst] using hr

theorem apply_accounts (c : Call) {s : PidWaiter ρ × σ × List (WaitResult ρ)}
    (h : Accounts handedOut s) :
    Accounts (handedOut ++ (Call.apply env.logged c s).1.toList.flatMap WaitOutcome.reapedList)
      (Call.apply env.logged c s).2 := by
  cases c with
  | wait => simpa [Call.apply] using wait_accounts env h
  | setPriorityPid pid => simpa [Call.apply, Accounts] using h
  | setDeadline deadline => simpa [Call.apply, Accounts] using h
  | notify => simpa [Call.apply, Accounts, notify] using h

theorem run_accounts (calls : List Call) {s : PidWaiter ρ × σ × List (WaitResult ρ)}
    (h : Accounts handedOut s) :
    Accounts (handedOut ++ (run env.logged calls s).1.flatMap WaitOutcome.reapedList)
      (run env.logged calls s).2 := by
  induction calls generalizing handedOut s with
  | nil => simpa [run] using h
  | cons c cs ih =>
    have hc := apply_accounts env c h
    simpa [run, List.flatMap_append, List.append_assoc] using ih hc

/-- Over any run of the waiter's calls from its constructor, the statuses the `Wait`s handed out,
then those it still holds, are those `WaitPid` reaped, in the order it reaped them: none is lost,
none is handed out twice, and they come out first in, first out. -/
theorem run_hands_out_reaped_in_order (calls : List Call) (priorityPid : Int) (k : σ) :
    let r := run env.logged calls (init priorityPid, k, [])
    r.1.flatMap WaitOutcome.reapedList ++ r.2.1.statuses = r.2.2.2 := by
  have h : Accounts ([] : List (WaitResult ρ)) (init priorityPid, k, []) := rfl
  simpa [Accounts] using run_accounts env calls h

end

def Env.counted (env : Env σ ρ) : Env (σ × Nat) ρ where
  waitPid k pid flags :=
    let (a, k') := env.waitPid k.1 pid flags
    (a, k', k.2 + 1)
  executesBlockingFn k deadline :=
    let (runs, k') := env.executesBlockingFn k.1 deadline
    (runs, k', k.2)

section

variable (env : Env σ ρ)

theorem checkStatus_counted (pid : Int) (blocking : Bool) (s : PidWaiter ρ × σ × Nat) :
    (checkStatus env.counted pid blocking s).2.2.2 = s.2.2 + 1 := by
  obtain ⟨w, k, n⟩ := s
  obtain ⟨⟨a, k'⟩, hr⟩ : ∃ r, env.waitPid k pid (waitFlags blocking) = r := ⟨_, rfl⟩
  simp only [checkStatus, Env.counted, hr]
  split_ifs <;> rfl

theorem checkPriority_counted (due : Prop) [Decidable due] (s : PidWaiter ρ × σ × Nat) :
    (if due then checkStatus env.counted s.1.priorityPid false s else (false, s)).2.2.2 ≤
      s.2.2 + 1 := by
  split
  · exact (checkStatus_counted env _ false s).le
  · exact Nat.le_succ _

theorem round_counted (due : Prop) [Decidable due] (s : PidWaiter ρ × σ × Nat) :
    (checkStatus env.counted (-1) false
        (if due then checkStatus env.counted s.1.priorityPid false s else (false, s)).2).2.2.2 ≤
      s.2.2 + 2 := by
  rw [checkStatus_counted]
  have hc := checkPriority_counted env due s
  omega

theorem refillLoop_counted (i : Nat) (s : PidWaiter ρ × σ × Nat) :
    (refillLoop env.counted i s).2.2.2 ≤ s.2.2 + 2 * (kMaxIterations - i) := by
  fun_induction refillLoop env.counted i s with
  | case1 i s hgo due checked _ =>
    have hc : checked.2.2.2 ≤ s.2.2 + 1 := checkPriority_counted env due s
    have hlt := hgo.2
    dsimp only
    omega
  | case2 i s hgo due checked _ found _ ih =>
    have hround : found.2.2.2 ≤ s.2.2 + 2 := round_counted env due s
    have hlt := hgo.2
    omega
  | case3 i s hgo due checked _ found _ =>
    have hround : found.2.2.2 ≤ s.2.2 + 2 := round_counted env due s
    have hlt := hgo.2
    dsimp only
    omega
  | case4 => simp

theorem refillStatuses_counted (s : PidWaiter ρ × σ × Nat) :
    (refillStatuses env.counted s).2.2 ≤ s.2.2 + 2 * kMaxIterations + 1 := by
  have hloop := refillLoop_counted env 0 s
  dsimp only [refillStatuses, clearNotified]
  generalize refillLoop env.counted 0 s = looped at hloop
  obtain ⟨_, w, k, n⟩ := looped
  simp only [Nat.sub_zero] at hloop
  split_ifs
  · omega
  · exact hloop.trans (by omega)
  · exact hloop.trans (by omega)
  · rw [checkStatus_counted]
    exact Nat.add_le_add_right hloop 1
  · exact hloop.trans (by omega)

/-- `Wait` calls `WaitPid` at most twice in each of the `kMaxIterations` rounds of
`RefillStatuses`, and once more to block. -/
theorem wait_calls_waitPid_at_most (s : PidWaiter ρ × σ × Nat) :
    (wait env.counted s).2.2.2 ≤ s.2.2 + 2 * kMaxIterations + 1 := by
  have hr := refillStatuses_counted env s
  dsimp only [wait]
  generalize refillStatuses env.counted s = r at hr
  split
  · split_ifs <;> exact hr
  · exact hr

end

section

variable (env : Env σ ρ)

theorem checkStatus_notified (pid : Int) (blocking : Bool) (s : PidWaiter ρ × σ) :
    (checkStatus env pid blocking s).2.1.notified = s.1.notified := by
  obtain ⟨w, k⟩ := s
  obtain ⟨⟨a, k'⟩, hr⟩ : ∃ r, env.waitPid k pid (waitFlags blocking) = r := ⟨_, rfl⟩
  simp only [checkStatus, hr]
  split_ifs <;> rfl

@[simp] theorem checkStatus_executesBlockingFn (f : σ → Time → Bool × σ) :
    checkStatus { env with executesBlockingFn := f } = checkStatus env :=
  rfl

theorem checkPriority_notified (due : Prop) [Decidable due] (s : PidWaiter ρ × σ) :
    (if due then checkStatus env s.1.priorityPid false s else (false, s)).2.1.notified =
      s.1.notified := by
  split
  · exact checkStatus_notified env _ false s
  · rfl

theorem refillLoop_notified (i : Nat) (s : PidWaiter ρ × σ) :
    (refillLoop env i s).2.1.notified = s.1.notified := by
  fun_induction refillLoop env i s with
  | case1 i s _ due checked _ => exact checkPriority_notified env due s
  | case2 i s _ due checked _ found _ ih =>
    rw [ih, checkStatus_notified]
    exact checkPriority_notified env due s
  | case3 i s _ due checked _ found _ =>
    rw [checkStatus_notified]
    exact checkPriority_notified env due s
  | case4 => rfl

theorem refillLoop_executesBlockingFn (f : σ → Time → Bool × σ) (i : Nat)
    (s : PidWaiter ρ × σ) :
    refillLoop { env with executesBlockingFn := f } i s = refillLoop env i s := by
  fun_induction refillLoop env i s with
  | case1 i s hgo due checked hc =>
    have hc' : checked.1 = true := hc
    simp only [checked, due, dite_eq_ite] at hc'
    rw [refillLoop, dif_pos hgo]
    simp only [checkStatus_executesBlockingFn, hc', ↓reduceIte]
    rfl
  | case2 i s hgo due checked hc found hf ih =>
    have hc' : ¬checked.1 = true := hc
    have hf' : (checkStatus env (-1) false checked.2).1 = true := hf
    simp only [checked, due, dite_eq_ite] at hc' hf'
    rw [refillLoop, dif_pos hgo]
    simp only [checkStatus_executesBlockingFn, hc', hf', ↓reduceIte, Bool.false_eq_true]
    exact ih
  | case3 i s hgo due checked hc found hf =>
    have hc' : ¬checked.1 = true := hc
    have hf' : ¬(checkStatus env (-1) false checked.2).1 = true := hf
    simp only [checked, due, dite_eq_ite] at hc' hf'
    rw [refillLoop, dif_pos hgo]
    simp only [checkStatus_executesBlockingFn, hc', hf', ↓reduceIte, Bool.false_eq_true]
    rfl
  | case4 i s hgo => rw [refillLoop, dif_neg hgo]

theorem refillStatuses_of_notified {s : PidWaiter ρ × σ} (h : s.1.notified = true) :
    refillStatuses env s =
      clearNotified (if !s.1.statuses.isEmpty then s else (refillLoop env 0 s).2) := by
  have hloop : (refillLoop env 0 s).2.1.notified = true := (refillLoop_notified env 0 s).trans h
  simp only [refillStatuses]
  split_ifs with hheld hdone hpast
  · rfl
  · rfl
  · rfl
  · exact absurd (Or.inr hloop) hpast
  · exact absurd (Or.inr hloop) hpast

/-- After `Notify`, the next `Wait` does not block: what it returns and leaves does not depend on
`ExecuteBlockingSyscall`. -/
theorem wait_after_notify_never_blocks (f : σ → Time → Bool × σ) (w : PidWaiter ρ) (k : σ) :
    wait { env with executesBlockingFn := f } (notify w, k) = wait env (notify w, k) := by
  have hn : (notify w, k).1.notified = true := rfl
  simp only [wait, refillStatuses_of_notified env hn,
    refillStatuses_of_notified { env with executesBlockingFn := f } hn,
    refillLoop_executesBlockingFn]

end

end PidWaiter

end SandboxedApi

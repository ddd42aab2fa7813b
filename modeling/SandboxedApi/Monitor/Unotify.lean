import SandboxedApi.Bpf.Steps
import SandboxedApi.Policy.Policy

namespace SandboxedApi

/-- `DO_USER_NOTIF`. -/
def doUserNotif : SockFilter := bpfStmt (bpfRet + bpfK) seccompRetUserNotif

def SockFilter.IsNotified (filter : SockFilter) : Prop :=
  (filter.code = bpfRet + bpfK ∧ filter.k = seccompRetKill) ∨
    (filter.code = sandbox2Trace.code ∧ filter.k = sandbox2Trace.k)

instance (filter : SockFilter) : Decidable filter.IsNotified :=
  inferInstanceAs (Decidable (_ ∨ _))

structure UnotifyMonitor where
  originalPolicy : List SockFilter

/-- `UnotifyMonitor::ModifyPolicy`: the monitor with `original_policy_` set, and the policy as the
loop leaves it. -/
def UnotifyMonitor.modifyPolicy (m : UnotifyMonitor) (policy : List SockFilter) :
    UnotifyMonitor × List SockFilter :=
  ({ m with originalPolicy := policy },
    policy.map fun filter => if filter.IsNotified then doUserNotif else filter)

def notifyVerdict (r : UInt32) : UInt32 :=
  if r = seccompRetKill ∨ r = sandbox2Trace.k then seccompRetUserNotif else r

theorem notifyVerdict_eq_userNotif_iff (r : UInt32) :
    notifyVerdict r = seccompRetUserNotif ↔
      r = seccompRetKill ∨ r = sandbox2Trace.k ∨ r = seccompRetUserNotif := by
  unfold notifyVerdict
  split_ifs with h
  · simp only [true_iff]
    rcases h with h | h
    · exact .inl h
    · exact .inr (.inl h)
  · simp only [not_or] at h
    simp [h.1, h.2]

theorem notifyVerdict_of_ne {r : UInt32} (hkill : r ≠ seccompRetKill) (htrace : r ≠ sandbox2Trace.k) :
    notifyVerdict r = r := by
  simp [notifyVerdict, hkill, htrace]

namespace UnotifyMonitor

variable (m : UnotifyMonitor) (policy : List SockFilter)

@[simp] theorem originalPolicy_modifyPolicy : (m.modifyPolicy policy).1.originalPolicy = policy :=
  rfl

@[simp] theorem length_modifyPolicy : (m.modifyPolicy policy).2.length = policy.length := by
  simp [modifyPolicy]

theorem getElem?_modifyPolicy (i : Nat) :
    (m.modifyPolicy policy).2[i]? =
      policy[i]?.map fun filter => if filter.IsNotified then doUserNotif else filter := by
  simp [modifyPolicy]

end UnotifyMonitor

theorem SockFilter.isNotified_iff (filter : SockFilter) :
    filter.IsNotified ↔
      filter.code = bpfRet + bpfK ∧ (filter.k = seccompRetKill ∨ filter.k = sandbox2Trace.k) := by
  have hcode : sandbox2Trace.code = bpfRet + bpfK := rfl
  simp only [SockFilter.IsNotified, hcode]
  tauto

section

variable {m : UnotifyMonitor} {policy : List SockFilter} {data : SeccompData} {s : Interpreter}

theorem Interpreter.update_result_of_eq {r : Option UInt32} (h : s.result = r) :
    { s with result := r } = s := by
  subst h
  rfl

theorem evaluateSingleInstruction_modifyPolicy
    (hret : ∀ filter ∈ policy, filter.code ≠ bpfRet + bpfA) (hs : s.result = none) :
    evaluateSingleInstruction (m.modifyPolicy policy).2 data s =
      (evaluateSingleInstruction policy data s).map
        fun t => { t with result := t.result.map notifyVerdict } := by
  have hlen := UnotifyMonitor.length_modifyPolicy m policy
  have hpc := UnotifyMonitor.getElem?_modifyPolicy m policy s.pc
  cases hi : policy[s.pc]? with
  | none =>
    rw [hi, Option.map_none] at hpc
    rw [evaluateSingleInstruction_congr hlen (hpc.trans hi.symm)]
    cases hstep : evaluateSingleInstruction policy data s with
    | error e => rfl
    | ok t =>
      have hlt := (evaluateSingleInstruction_progress hstep).1
      have hle := List.getElem?_eq_none_iff.mp hi
      omega
  | some inst =>
    rw [hi, Option.map_some] at hpc
    by_cases hn : inst.IsNotified
    · -- a rewritten `RET`: the original returns `KILL` or the trace value
      obtain ⟨hcode, hk⟩ := (SockFilter.isNotified_iff inst).mp hn
      rw [if_pos hn] at hpc
      have hv : notifyVerdict inst.k = doUserNotif.k := by
        rw [notifyVerdict, if_pos hk]
        rfl
      rw [evaluateSingleInstruction_ret hpc rfl, evaluateSingleInstruction_ret hi hcode]
      show Except.ok { s with result := some doUserNotif.k } =
        Except.ok { s with result := some (notifyVerdict inst.k) }
      rw [hv]
    · rw [if_neg hn] at hpc
      rw [evaluateSingleInstruction_congr hlen (hpc.trans hi.symm)]
      cases hstep : evaluateSingleInstruction policy data s with
      | error e => rfl
      | ok t =>
        have hfix : t.result.map notifyVerdict = t.result := by
          rcases evaluateSingleInstruction_result hstep with hres | ⟨i, hi', hk | ha⟩
          · rw [hres, hs, Option.map_none]
          · obtain ⟨hcode, rfl⟩ := hk
            have hii : i = inst := Option.some.inj (hi'.symm.trans hi)
            rw [hii] at hcode ⊢
            have hc : inst.code = bpfRet + bpfK := UInt16.toNat_inj.mp hcode
            have hnk : ¬(inst.k = seccompRetKill ∨ inst.k = sandbox2Trace.k) := fun h =>
              hn ((SockFilter.isNotified_iff inst).mpr ⟨hc, h⟩)
            simp only [not_or] at hnk
            simp [notifyVerdict_of_ne hnk.1 hnk.2]
          · obtain ⟨hcode, -⟩ := ha
            exact absurd (UInt16.toNat_inj.mp hcode) (hret i (List.mem_of_getElem? hi'))
        show Except.ok t = Except.ok { t with result := t.result.map notifyVerdict }
        rw [hfix]

theorem evaluate_modifyPolicy (hret : ∀ filter ∈ policy, filter.code ≠ bpfRet + bpfA) :
    evaluate (m.modifyPolicy policy).2 data = (evaluate policy data).map notifyVerdict := by
  unfold evaluate
  rw [UnotifyMonitor.length_modifyPolicy]
  refine Machine.loop_map_of_simulation
    (fun s s' => s' = { s with result := s.result.map notifyVerdict }) notifyVerdict
    (fun s s' hR => by rw [hR]) ?_ ?_ _ _ _ rfl
  · intro s s' e hR hs herr
    have hs' : s' = s := by rw [hR, hs, Option.map_none]; exact Interpreter.update_result_of_eq hs
    rw [hs', evaluateSingleInstruction_modifyPolicy hret hs, herr]
    rfl
  · intro s s' t hR hs hstep
    have hs' : s' = s := by rw [hR, hs, Option.map_none]; exact Interpreter.update_result_of_eq hs
    rw [hs', evaluateSingleInstruction_modifyPolicy hret hs, hstep]
    exact ⟨_, rfl, rfl⟩

end

/-- The kernel notifies the monitor, running the rewritten policy, exactly where the original
policy returns `KILL`, the trace value, or `RET_USER_NOTIF` of its own; every other verdict and
every failure is the original's. -/
theorem modifyPolicy_notifies (m : UnotifyMonitor) (policy : List SockFilter)
    (hret : ∀ filter ∈ policy, filter.code ≠ bpfRet + bpfA) (data : SeccompData) :
    (evaluate (m.modifyPolicy policy).2 data = .ok seccompRetUserNotif ↔
        evaluate (m.modifyPolicy policy).1.originalPolicy data = .ok seccompRetKill ∨
          evaluate (m.modifyPolicy policy).1.originalPolicy data = .ok sandbox2Trace.k ∨
          evaluate (m.modifyPolicy policy).1.originalPolicy data = .ok seccompRetUserNotif) ∧
      (∀ r, r ≠ seccompRetKill → r ≠ sandbox2Trace.k → r ≠ seccompRetUserNotif →
        (evaluate (m.modifyPolicy policy).2 data = .ok r ↔
          evaluate (m.modifyPolicy policy).1.originalPolicy data = .ok r)) ∧
      ∀ e, evaluate (m.modifyPolicy policy).2 data = .error e ↔
        evaluate (m.modifyPolicy policy).1.originalPolicy data = .error e := by
  rw [evaluate_modifyPolicy hret, UnotifyMonitor.originalPolicy_modifyPolicy]
  cases evaluate policy data with
  | error e => simp [Except.map]
  | ok v =>
    refine ⟨?_, fun r hkill htrace hnotif => ?_, fun e => by simp [Except.map]⟩
    · simp only [Except.map, Except.ok.injEq]
      exact notifyVerdict_eq_userNotif_iff v
    · simp only [Except.map, Except.ok.injEq]
      by_cases hv : v = seccompRetKill ∨ v = sandbox2Trace.k
      · -- the original verdict is rewritten, so neither side holds
        have hn : notifyVerdict v = seccompRetUserNotif := by rw [notifyVerdict, if_pos hv]
        rw [hn]
        constructor
        · intro h
          exact absurd h.symm hnotif
        · rintro rfl
          rcases hv with hv | hv
          · exact absurd hv hkill
          · exact absurd hv htrace
      · simp only [not_or] at hv
        rw [notifyVerdict_of_ne hv.1 hv.2]

theorem modifyPolicy_notifies_deny :
    (∀ filter ∈ [deny], filter.code ≠ bpfRet + bpfA) ∧
      ((evaluate ((⟨[]⟩ : UnotifyMonitor).modifyPolicy [deny]).2 ⟨0, 0, 0, fun _ => 0⟩ =
            .ok seccompRetUserNotif ↔
          evaluate ((⟨[]⟩ : UnotifyMonitor).modifyPolicy [deny]).1.originalPolicy
              ⟨0, 0, 0, fun _ => 0⟩ = .ok seccompRetKill ∨
            evaluate ((⟨[]⟩ : UnotifyMonitor).modifyPolicy [deny]).1.originalPolicy
              ⟨0, 0, 0, fun _ => 0⟩ = .ok sandbox2Trace.k ∨
            evaluate ((⟨[]⟩ : UnotifyMonitor).modifyPolicy [deny]).1.originalPolicy
              ⟨0, 0, 0, fun _ => 0⟩ = .ok seccompRetUserNotif) ∧
        (∀ r, r ≠ seccompRetKill → r ≠ sandbox2Trace.k → r ≠ seccompRetUserNotif →
          (evaluate ((⟨[]⟩ : UnotifyMonitor).modifyPolicy [deny]).2 ⟨0, 0, 0, fun _ => 0⟩ = .ok r ↔
            evaluate ((⟨[]⟩ : UnotifyMonitor).modifyPolicy [deny]).1.originalPolicy
              ⟨0, 0, 0, fun _ => 0⟩ = .ok r)) ∧
        ∀ e, evaluate ((⟨[]⟩ : UnotifyMonitor).modifyPolicy [deny]).2 ⟨0, 0, 0, fun _ => 0⟩ =
            .error e ↔
          evaluate ((⟨[]⟩ : UnotifyMonitor).modifyPolicy [deny]).1.originalPolicy
            ⟨0, 0, 0, fun _ => 0⟩ = .error e) :=
  ⟨by decide, modifyPolicy_notifies _ _ (by decide) _⟩

/-- A policy without `RET | A` that returns `RET_USER_NOTIF` of its own: the rewritten policy
notifies the monitor, and the original policy returns neither `KILL` nor the trace value. -/
theorem modifyPolicy_notifies_own_userNotif :
    (∀ filter ∈ [doUserNotif], filter.code ≠ bpfRet + bpfA) ∧
      evaluate ((⟨[]⟩ : UnotifyMonitor).modifyPolicy [doUserNotif]).2 ⟨0, 0, 0, fun _ => 0⟩ =
        .ok seccompRetUserNotif ∧
      evaluate [doUserNotif] ⟨0, 0, 0, fun _ => 0⟩ = .ok seccompRetUserNotif ∧
      seccompRetUserNotif ≠ seccompRetKill ∧ seccompRetUserNotif ≠ sandbox2Trace.k := by
  decide

end SandboxedApi

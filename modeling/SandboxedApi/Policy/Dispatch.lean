import SandboxedApi.Policy.Policy
import SandboxedApi.Machine.Loop
import SandboxedApi.Util.Status

namespace SandboxedApi

/-- `CheckBpfBounds`: a jump of the fragment goes at most `maxJmp` instructions forward. -/
def checkBpfBounds (filter : SockFilter) (maxJmp : Nat) : Bool :=
  if bpfClass filter.code = bpfJmp then
    if bpfOp filter.code = bpfJa then decide (filter.k.toNat ≤ maxJmp)
    else decide (filter.jt.toNat ≤ maxJmp) && decide (filter.jf.toNat ≤ maxJmp)
  else true

def rewriteTrace (filter : SockFilter) : SockFilter :=
  if filter.code = bpfRet ||| bpfK ∧ filter.k &&& seccompRetAction = seccompRetTrace ∧
      filter.k &&& seccompRetData ≠ hostArch then sandbox2Trace
  else filter

def checkPolicyFrom (size : Nat) : Nat → List SockFilter → Except Status (List SockFilter)
  | _, [] => .ok []
  | i, filter :: rest =>
    if checkBpfBounds filter (size - i - 1) then
      (rewriteTrace filter :: ·) <$> checkPolicyFrom size (i + 1) rest
    else .error ⟨.invalidArgument, "bpf jump out of bounds"⟩

/-- `kMaxShortJump`. -/
def kMaxShortJump : Nat := 255

structure DispatchState where
  out : List SockFilter
  doPolicyLoc : Nat
  last : Bool

def dispatchStep (policySize : Nat) (st : DispatchState) (nr : UInt32) :
    Except Status DispatchState :=
  if nr = nrBpf ∨ nr = nrPtrace then
    .error ⟨.invalidArgument, "cannot add policy for bpf/ptrace syscall"⟩
  else
    let (out₁, jf₁) : List SockFilter × UInt8 :=
      if st.last then
        if st.out.length > kMaxShortJump then
          (bpfStmt (bpfJmp + bpfJa) (UInt32.ofNat st.out.length) :: st.out, 0)
        else (st.out, UInt8.ofNat st.out.length)
      else (st.out, 0)
    let (out₂, loc₂, jf₂) : List SockFilter × Nat × UInt8 :=
      if out₁.length - st.doPolicyLoc > kMaxShortJump then
        (bpfStmt (bpfJmp + bpfJa) (UInt32.ofNat (out₁.length - policySize)) :: out₁,
          out₁.length + 1, jf₁ + 1)
      else (out₁, st.doPolicyLoc, jf₁)
    let jt := UInt8.ofNat (out₂.length - loc₂)
    .ok ⟨bpfJump (bpfJmp + bpfJeq + bpfK) nr jt jf₂ :: out₂, loc₂, false⟩

/-- `CreatePolicyOnSyscalls`: the block that runs `policy` for the syscalls `nums` and passes
every other call on. -/
def createPolicyOnSyscalls (nums : List UInt32) (policy : List SockFilter) :
    Except Status (List SockFilter) := do
  if nums = [] then
    throw ⟨.invalidArgument, "Cannot add a policy for empty list of syscalls"⟩
  let checked ← checkPolicyFrom policy.length 0 policy
  let out := checked ++ [loadSyscallNr]
  if out.length > UInt32.size - 1 then
    throw ⟨.invalidArgument, "syscall policy is too long"⟩
  let st ← nums.reverse.foldlM (dispatchStep policy.length) ⟨out, out.length, true⟩
  pure st.out

theorem checkPolicyFrom_eq_ok {size : Nat} : ∀ {i : Nat} {l c : List SockFilter},
    checkPolicyFrom size i l = .ok c →
      c = l.map rewriteTrace ∧
        ∀ j (hj : j < l.length), checkBpfBounds l[j] (size - (i + j) - 1) = true
  | _, [], c, h => by
    cases h
    exact ⟨rfl, fun j hj => absurd hj (Nat.not_lt_zero _)⟩
  | i, filter :: rest, c, h => by
    unfold checkPolicyFrom at h
    split at h
    · obtain ⟨c', hc', rfl⟩ := Machine.map_eq_ok h
      obtain ⟨hmap, hb⟩ := checkPolicyFrom_eq_ok hc'
      refine ⟨by simp [hmap], fun j hj => ?_⟩
      cases j with
      | zero => simpa using ‹checkBpfBounds filter (size - i - 1) = true›
      | succ j =>
        have e : i + (j + 1) = i + 1 + j := by omega
        simpa [e] using hb j (by simpa using hj)
    · cases h

theorem checkPolicyFrom_of_bounds {size : Nat} : ∀ {i : Nat} {l : List SockFilter},
    (∀ j (hj : j < l.length), checkBpfBounds l[j] (size - (i + j) - 1) = true) →
      checkPolicyFrom size i l = .ok (l.map rewriteTrace)
  | _, [], _ => rfl
  | i, filter :: rest, h => by
    have hfilter : checkBpfBounds filter (size - i - 1) = true := h 0 (by simp)
    have hrest := checkPolicyFrom_of_bounds (i := i + 1) (l := rest) fun j hj => by
      have e : i + (j + 1) = i + 1 + j := by omega
      have hj' := h (j + 1) (by simpa using hj)
      rw [e] at hj'
      exact hj'
    simp [checkPolicyFrom, hfilter, hrest]

theorem createPolicyOnSyscalls_eq_ok {nums : List UInt32} {policy out : List SockFilter}
    (h : createPolicyOnSyscalls nums policy = .ok out) :
    nums ≠ [] ∧ checkPolicyFrom policy.length 0 policy = .ok (policy.map rewriteTrace) ∧
      policy.length + 1 ≤ UInt32.size - 1 ∧
      ∃ st, nums.reverse.foldlM (dispatchStep policy.length)
        ⟨policy.map rewriteTrace ++ [loadSyscallNr], policy.length + 1, true⟩ = .ok st ∧
          st.out = out := by
  unfold createPolicyOnSyscalls at h
  split at h
  · cases h
  · rename_i hn
    obtain ⟨checked, hc, h⟩ := Machine.bind_eq_ok h
    have hmap := (checkPolicyFrom_eq_ok hc).1
    subst hmap
    dsimp only at h
    split at h
    · cases h
    · rename_i hlen
      obtain ⟨st, hst, h⟩ := Machine.bind_eq_ok h
      refine ⟨hn, hc, by simp at hlen ⊢; omega, st, by simpa using hst, by cases h; rfl⟩

section

variable {policySize : Nat} {st st' : DispatchState} {nr : UInt32}

theorem dispatchStep_first {out : List SockFilter}
    (h : dispatchStep policySize ⟨out, out.length, true⟩ nr = .ok st') :
    (nr ≠ nrBpf ∧ nr ≠ nrPtrace) ∧
      if out.length > kMaxShortJump then
        st' = ⟨bpfJump (bpfJmp + bpfJeq + bpfK) nr 1 0 ::
          bpfStmt (bpfJmp + bpfJa) (UInt32.ofNat out.length) :: out, out.length, false⟩
      else st' = ⟨bpfJump (bpfJmp + bpfJeq + bpfK) nr 0 (UInt8.ofNat out.length) :: out,
        out.length, false⟩ := by
  unfold dispatchStep at h
  by_cases hnr : nr = nrBpf ∨ nr = nrPtrace
  · simp [hnr] at h
  · refine ⟨not_or.mp hnr, ?_⟩
    by_cases hlong : 255 < out.length
    · simp [hnr, hlong, kMaxShortJump] at h ⊢
      exact h.symm
    · simp [hnr, hlong, kMaxShortJump] at h ⊢
      exact h.symm

theorem dispatchStep_later (hl : st.last = false) (h : dispatchStep policySize st nr = .ok st') :
    (nr ≠ nrBpf ∧ nr ≠ nrPtrace) ∧
      if st.out.length - st.doPolicyLoc > kMaxShortJump then
        st' = ⟨bpfJump (bpfJmp + bpfJeq + bpfK) nr 0 1 ::
          bpfStmt (bpfJmp + bpfJa) (UInt32.ofNat (st.out.length - policySize)) :: st.out,
          st.out.length + 1, false⟩
      else st' = ⟨bpfJump (bpfJmp + bpfJeq + bpfK) nr (UInt8.ofNat (st.out.length - st.doPolicyLoc)) 0 ::
        st.out, st.doPolicyLoc, false⟩ := by
  unfold dispatchStep at h
  by_cases hnr : nr = nrBpf ∨ nr = nrPtrace
  · simp [hnr] at h
  · refine ⟨not_or.mp hnr, ?_⟩
    by_cases hfar : 255 < st.out.length - st.doPolicyLoc
    · simp [hnr, hl, hfar, kMaxShortJump] at h ⊢
      exact h.symm
    · simp [hnr, hl, hfar, kMaxShortJump] at h ⊢
      exact h.symm

end

theorem dispatchStep_reserved {policySize : Nat} {st st' : DispatchState} {nr : UInt32}
    (h : dispatchStep policySize st nr = .ok st') : nr ≠ nrBpf ∧ nr ≠ nrPtrace := by
  unfold dispatchStep at h
  split at h
  · cases h
  · rename_i hnr
    exact not_or.mp hnr

theorem createPolicyOnSyscalls_reserved {nums : List UInt32} {policy out : List SockFilter}
    (h : createPolicyOnSyscalls nums policy = .ok out) : nrBpf ∉ nums ∧ nrPtrace ∉ nums := by
  obtain ⟨-, -, -, st, hst, -⟩ := createPolicyOnSyscalls_eq_ok h
  have hall : ∀ {l : List UInt32} {st₀ st : DispatchState},
      l.foldlM (dispatchStep policy.length) st₀ = .ok st → ∀ nr ∈ l, nr ≠ nrBpf ∧ nr ≠ nrPtrace := by
    intro l
    induction l with
    | nil => intro _ _ _ nr hnr; cases hnr
    | cons x l ih =>
      intro st₀ st hfold nr hnr
      rw [List.foldlM_cons] at hfold
      obtain ⟨st₁, h₁, hfold⟩ := Machine.bind_eq_ok hfold
      rcases List.mem_cons.mp hnr with rfl | hnr
      · exact dispatchStep_reserved h₁
      · exact ih hfold nr hnr
  have hnums := fun nr (hnr : nr ∈ nums) => hall hst nr (List.mem_reverse.mpr hnr)
  exact ⟨fun hb => (hnums _ hb).1 rfl, fun hp => (hnums _ hp).2 rfl⟩

theorem dispatchStep_isOk {policySize : Nat} {st : DispatchState} {nr : UInt32}
    (hnr : nr ≠ nrBpf ∧ nr ≠ nrPtrace) : ∃ st', dispatchStep policySize st nr = .ok st' := by
  unfold dispatchStep
  simp [hnr]

theorem createPolicyOnSyscalls_isOk {nums : List UInt32} {policy : List SockFilter} (hn : nums ≠ [])
    (hnr : ∀ nr ∈ nums, nr ≠ nrBpf ∧ nr ≠ nrPtrace)
    (hb : ∀ j (hj : j < policy.length), checkBpfBounds policy[j] (policy.length - j - 1) = true)
    (hlen : policy.length + 1 < UInt32.size) :
    ∃ out, createPolicyOnSyscalls nums policy = .ok out := by
  have hc : checkPolicyFrom policy.length 0 policy = .ok (policy.map rewriteTrace) :=
    checkPolicyFrom_of_bounds (by simpa using hb)
  obtain ⟨st, hst⟩ := Machine.foldlM_isOk (f := dispatchStep policy.length) (l := nums.reverse)
    (fun _ nr hmem => dispatchStep_isOk (hnr nr (List.mem_reverse.mp hmem)))
    ⟨policy.map rewriteTrace ++ [loadSyscallNr], (policy.map rewriteTrace ++ [loadSyscallNr]).length, true⟩
  have hsize : UInt32.size = 4294967296 := rfl
  have hlen' : ¬(policy.map rewriteTrace ++ [loadSyscallNr]).length > UInt32.size - 1 := by
    simp
    omega
  refine ⟨st.out, ?_⟩
  simp only [createPolicyOnSyscalls, hn, hc, bind, Except.bind, if_false]
  simp only [hlen', hst, if_false]
  rfl

end SandboxedApi

import SandboxedApi.Policy.Dispatch
import SandboxedApi.Bpf.Jumps

namespace SandboxedApi

theorem checkBpfBounds_iff {f : SockFilter} {n j : Nat} (hj : j < n) :
    checkBpfBounds f (n - j - 1) = true ↔ ∀ t ∈ jumpTargets f j, t ≤ n := by
  unfold checkBpfBounds jumpTargets
  split_ifs <;> simp <;> omega

theorem jumpTargets_rewriteTrace (f : SockFilter) (j : Nat) :
    jumpTargets (rewriteTrace f) j ⊆ jumpTargets f j := by
  unfold rewriteTrace
  split_ifs
  · rw [jumpTargets_of_class (by decide)]
    exact List.nil_subset _
  · exact List.Subset.refl _

theorem jumpsWithin_rewriteTrace {policy : List SockFilter}
    (h : ∀ j (hj : j < policy.length), checkBpfBounds policy[j] (policy.length - j - 1) = true) :
    JumpsWithin (policy.map rewriteTrace) := by
  intro j hj t ht
  simp only [List.length_map] at hj ⊢
  rw [List.getElem_map] at ht
  exact (checkBpfBounds_iff hj).mp (h j hj) t (jumpTargets_rewriteTrace _ _ ht)

theorem jumpsWithin_checked {policy : List SockFilter}
    (h : ∀ j (hj : j < policy.length), checkBpfBounds policy[j] (policy.length - j - 1) = true) :
    JumpsWithin (policy.map rewriteTrace ++ [loadSyscallNr]) := by
  intro j hj t ht
  simp only [List.length_append, List.length_map, List.length_singleton] at hj ⊢
  by_cases hlt : j < policy.length
  · rw [List.getElem_append_left (by simpa using hlt)] at ht
    have := jumpsWithin_rewriteTrace h j (by simpa using hlt) t ht
    simp only [List.length_map] at this
    omega
  · have hj' : j = policy.length := by omega
    subst hj'
    rw [List.getElem_append_right (by simp)] at ht
    simp [jumpTargets_of_class (show bpfClass loadSyscallNr.code ≠ bpfJmp by decide)] at ht

theorem foldrM_jumpsWithin {policySize : Nat} {body : List SockFilter} (hbody : JumpsWithin body) :
    ∀ {ns : List UInt32} {st : DispatchState}, ns ≠ [] →
      ns.foldrM (fun x y => dispatchStep policySize y x) ⟨body, body.length, true⟩ = .ok st →
        JumpsWithin st.out ∧ st.last = false
  | [], _, hne, _ => absurd rfl hne
  | [nr], st, _, h => by
    rw [List.foldrM_cons] at h
    obtain ⟨-, hst⟩ := dispatchStep_first (by simpa using h)
    split_ifs at hst <;> subst hst <;> refine ⟨?_, rfl⟩
    · -- `JEQ nr 1 0`, then the skip jump past the fragment
      refine (hbody.cons ?_).cons ?_
      · have := Nat.mod_le body.length (2 ^ 32)
        simp [jumpTargets_ja, UInt32.toNat_ofNat']
        omega
      · simp [jumpTargets_jeq]
    · refine hbody.cons ?_
      have := Nat.mod_le body.length (2 ^ 8)
      simp [jumpTargets_jeq, UInt8.toNat_ofNat']
      omega
  | nr :: n' :: ns, st, _, h => by
    rw [List.foldrM_cons] at h
    obtain ⟨st₀, h₀, h⟩ := Machine.bind_eq_ok h
    obtain ⟨hj₀, hl₀⟩ := foldrM_jumpsWithin hbody (List.cons_ne_nil n' ns) h₀
    obtain ⟨-, hst⟩ := dispatchStep_later hl₀ h
    split_ifs at hst <;> subst hst <;> refine ⟨?_, rfl⟩
    · -- `JEQ nr 0 1` over the helper jump
      refine (hj₀.cons ?_).cons ?_
      · have := Nat.mod_le (st₀.out.length - policySize) (2 ^ 32)
        simp [jumpTargets_ja, UInt32.toNat_ofNat']
        omega
      · simp [jumpTargets_jeq]
    · refine hj₀.cons ?_
      have := Nat.mod_le (st₀.out.length - st₀.doPolicyLoc) (2 ^ 8)
      simp [jumpTargets_jeq, UInt8.toNat_ofNat']
      omega

theorem createPolicyOnSyscalls_jumpsWithin {nums : List UInt32} {policy out : List SockFilter}
    (h : createPolicyOnSyscalls nums policy = .ok out) : JumpsWithin out := by
  obtain ⟨hn, hc, -, st, hst, rfl⟩ := createPolicyOnSyscalls_eq_ok h
  rw [List.foldlM_reverse] at hst
  have hlen : policy.length + 1 = (policy.map rewriteTrace ++ [loadSyscallNr]).length := by simp
  rw [hlen] at hst
  have hbody := jumpsWithin_checked (by simpa using (checkPolicyFrom_eq_ok hc).2)
  exact (foldrM_jumpsWithin hbody hn hst).1

theorem createPolicyOnSyscalls_fragment {nums : List UInt32} {policy out : List SockFilter}
    (h : createPolicyOnSyscalls nums policy = .ok out) : JumpsWithin (policy.map rewriteTrace) := by
  obtain ⟨-, hc, -⟩ := createPolicyOnSyscalls_eq_ok h
  exact jumpsWithin_rewriteTrace (by simpa using (checkPolicyFrom_eq_ok hc).2)

end SandboxedApi

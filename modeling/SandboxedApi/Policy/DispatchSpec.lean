import SandboxedApi.Policy.DispatchJumps
import SandboxedApi.Bpf.Decides

namespace SandboxedApi

def GoesTo (prog : List SockFilter) (data : SeccompData) (s : Interpreter) (target : Nat) : Prop :=
  Leads prog data s (· = { s with pc := target })

section

variable {prog : List SockFilter} {d : SeccompData} {s : Interpreter}

theorem GoesTo.trans {t u : Nat} (h₁ : GoesTo prog d s t)
    (h₂ : GoesTo prog d { s with pc := t } u) : GoesTo prog d s u :=
  Leads.bind h₁ fun _ ht => ht ▸ h₂

theorem GoesTo.of_eq {t u : Nat} (h : GoesTo prog d s t) (htu : t = u) : GoesTo prog d s u :=
  htu ▸ h

theorem goesTo_ja {k : UInt32} (hi : prog[s.pc]? = some (bpfStmt (bpfJmp + bpfJa) k))
    (hroom : Room prog s.pc (1 + k.toNat)) (hs : s.result = none) :
    GoesTo prog d s (s.pc + 1 + k.toNat) :=
  leads_jaK hi hroom hs (Leads.here rfl)

theorem goesTo_jeq {n : UInt32} {jt jf : UInt8}
    (hi : prog[s.pc]? = some (bpfJump (bpfJmp + bpfJeq + bpfK) n jt jf))
    (hroom : Room prog s.pc (1 + if s.accumulator = n then jt.toNat else jf.toNat))
    (hs : s.result = none) :
    GoesTo prog d s (s.pc + 1 + if s.accumulator = n then jt.toNat else jf.toNat) := by
  by_cases h : s.accumulator = n
  · exact leads_jmpK (c := true) hi (.inl ⟨rfl, by simp [bpfJump_eq, h]⟩)
      (by simpa [bpfJump_eq, h] using hroom) hs (Leads.here (by simp [bpfJump_eq, h]))
  · exact leads_jmpK (c := false) hi (.inl ⟨rfl, by simp [bpfJump_eq, h]⟩)
      (by simpa [bpfJump_eq, h] using hroom) hs (Leads.here (by simp [bpfJump_eq, h]))

end

structure Dispatches (d : SeccompData) (body : List SockFilter) (ns : List UInt32)
    (st : DispatchState) : Prop where
  suffix : body <:+ st.out
  loc_ge : body.length ≤ st.doPolicyLoc
  loc_le : st.doPolicyLoc ≤ st.out.length
  not_last : st.last = false
  short : ns.length ≤ kMaxShortJump →
    st.doPolicyLoc = body.length ∧ st.out.length ≤ body.length + 1 + ns.length
  miss : ∀ ⦃prog : List SockFilter⦄ ⦃s : Interpreter⦄, CodeAt prog s.pc st.out →
    Room prog s.pc st.out.length → s.result = none → s.accumulator ∉ ns →
    GoesTo prog d s (s.pc + st.out.length)
  hit : ∀ ⦃prog : List SockFilter⦄ ⦃s : Interpreter⦄, CodeAt prog s.pc st.out →
    Room prog s.pc st.out.length → s.result = none → s.accumulator ∈ ns →
    ∃ δ ≤ 1, (st.doPolicyLoc = body.length → δ = 0) ∧
      GoesTo prog d s (s.pc + (st.out.length - body.length) + δ)
  target : ∀ ⦃prog : List SockFilter⦄ ⦃s : Interpreter⦄ (base : Nat), CodeAt prog base st.out →
    Room prog base st.out.length → s.pc = base + (st.out.length - st.doPolicyLoc) →
    s.result = none →
    GoesTo prog d s (base + (st.out.length - body.length) +
      if st.doPolicyLoc = body.length then 0 else 1)

section

variable {d : SeccompData} {policySize : Nat} {body : List SockFilter} {st st' : DispatchState}
  {nr : UInt32}

theorem dispatches_first (h : dispatchStep policySize ⟨body, body.length, true⟩ nr = .ok st') :
    Dispatches d body [nr] st' := by
  obtain ⟨-, hst⟩ := dispatchStep_first h
  by_cases hlong : body.length > kMaxShortJump
  · -- too long to skip with `jf`: `JEQ nr 1 0`, then `JA` past the fragment
    rw [if_pos hlong] at hst
    subst hst
    refine ⟨⟨[_, _], rfl⟩, Nat.le_refl _, by simp only [List.length_cons]; omega, rfl,
      fun _ => ⟨rfl, by simp⟩, ?_, ?_, ?_⟩
    · intro prog s hc hroom hs hA
      have hne : s.accumulator ≠ nr := by simpa using hA
      have hsize : body.length < UInt32.size := by have := hroom.2; simp at this; omega
      refine GoesTo.trans (goesTo_jeq (hc.inst (i := 0) rfl) (hroom.mono (by simp [hne])) hs) ?_
      rw [if_neg hne]
      refine GoesTo.trans (goesTo_ja (hc.inst (i := 1) rfl) (hroom.shift (by simp; omega)) hs) ?_
      exact Leads.here (by simp [UInt32.toNat_ofNat_of_lt' hsize]; omega)
    · intro prog s hc hroom hs hA
      have heq : s.accumulator = nr := by simpa using hA
      refine ⟨0, Nat.zero_le _, fun _ => rfl, ?_⟩
      refine GoesTo.trans (goesTo_jeq (hc.inst (i := 0) rfl) (hroom.mono (by simp [heq])) hs) ?_
      exact Leads.here (by simp [heq]; omega)
    · intro prog s base _ _ hpc _
      exact Leads.here (by cases s; simp at hpc ⊢; omega)
  · -- `JEQ nr 0 jf` with `jf` the length of the fragment
    rw [if_neg hlong] at hst
    subst hst
    have hshort : body.length < 256 := by simp [kMaxShortJump] at hlong; omega
    refine ⟨⟨[_], rfl⟩, Nat.le_refl _, by simp, rfl, fun _ => ⟨rfl, by simp⟩, ?_, ?_, ?_⟩
    · intro prog s hc hroom hs hA
      have hne : s.accumulator ≠ nr := by simpa using hA
      refine GoesTo.trans (goesTo_jeq (hc.inst (i := 0) rfl) (hroom.mono ?_) hs) ?_
      · simp [hne, UInt8.toNat_ofNat', Nat.mod_eq_of_lt hshort]; omega
      · exact Leads.here (by simp [hne, UInt8.toNat_ofNat', Nat.mod_eq_of_lt hshort]; omega)
    · intro prog s hc hroom hs hA
      have heq : s.accumulator = nr := by simpa using hA
      refine ⟨0, Nat.zero_le _, fun _ => rfl, ?_⟩
      refine GoesTo.trans (goesTo_jeq (hc.inst (i := 0) rfl) (hroom.mono (by simp [heq])) hs) ?_
      exact Leads.here (by simp [heq])
    · intro prog s base _ _ hpc _
      exact Leads.here (by cases s; simp at hpc ⊢; omega)

theorem Dispatches.step {ns : List UInt32} (hd : Dispatches d body ns st)
    (hbody : body.length = policySize + 1) (h : dispatchStep policySize st nr = .ok st') :
    Dispatches d body (nr :: ns) st' := by
  obtain ⟨-, hst⟩ := dispatchStep_later hd.not_last h
  have hsuf := hd.suffix.length_le
  have hloc := hd.loc_ge
  have hle := hd.loc_le
  by_cases hfar : st.out.length - st.doPolicyLoc > kMaxShortJump
  · -- the target is out of reach: `JEQ nr 0 1` over a helper `JA` meant for the fragment
    rw [if_pos hfar] at hst
    subst hst
    have hnot : st.out.length + 1 ≠ body.length := by omega
    refine ⟨hd.suffix.trans ⟨[_, _], rfl⟩, by simp; omega, by simp, rfl, ?_, ?_, ?_, ?_⟩
    · intro hlen
      have hlen' : ns.length ≤ kMaxShortJump := by simp [kMaxShortJump] at hlen ⊢; omega
      have := hd.short hlen'
      simp [kMaxShortJump] at hfar hlen
      omega
    · intro prog s hc hroom hs hA
      have hne : s.accumulator ≠ nr := fun h => hA (by simp [h])
      have hA' : s.accumulator ∉ ns := fun h => hA (by simp [h])
      refine GoesTo.trans (goesTo_jeq (hc.inst (i := 0) rfl) (hroom.mono (by simp [hne])) hs) ?_
      rw [if_neg hne]
      have hgo := hd.miss (s := { s with pc := s.pc + 2 }) hc.tail.tail
        (hroom.shift (by simp only [List.length_cons]; omega)) hs hA'
      exact hgo.of_eq (by simp; omega)
    · intro prog s hc hroom hs hA
      by_cases heq : s.accumulator = nr
      · -- through the helper, which lands one past the start of the fragment
        have hsize : st.out.length - policySize < UInt32.size := by
          have := hroom.2
          simp at this
          omega
        refine ⟨1, Nat.le_refl _, fun h => absurd h hnot, ?_⟩
        refine GoesTo.trans (goesTo_jeq (hc.inst (i := 0) rfl) (hroom.mono (by simp [heq])) hs) ?_
        rw [if_pos heq]
        refine GoesTo.trans (goesTo_ja (hc.inst (i := 1) rfl) (hroom.shift (by simp; omega)) hs) ?_
        exact Leads.here (by simp [UInt32.toNat_ofNat_of_lt' hsize]; omega)
      · have hA' : s.accumulator ∈ ns := by simpa [heq] using hA
        obtain ⟨δ, hδ, -, hgo⟩ := hd.hit (s := { s with pc := s.pc + 2 }) hc.tail.tail
          (hroom.shift (by simp only [List.length_cons]; omega)) hs hA'
        refine ⟨δ, hδ, fun h => absurd h hnot, ?_⟩
        refine GoesTo.trans (goesTo_jeq (hc.inst (i := 0) rfl) (hroom.mono (by simp [heq])) hs) ?_
        rw [if_neg heq]
        exact hgo.of_eq (by simp; omega)
    · intro prog s base hc hroom hpc hs
      have hsize : st.out.length - policySize < UInt32.size := by
        have := hroom.2
        simp at this
        omega
      have hpc' : s.pc = base + 1 := by simp at hpc; omega
      have hi := hc.inst (i := 1) rfl
      rw [← hpc'] at hi
      refine GoesTo.trans (goesTo_ja hi (by rw [hpc']; exact hroom.shift (by simp; omega)) hs) ?_
      exact Leads.here (by simp [UInt32.toNat_ofNat_of_lt' hsize, hnot, hpc']; omega)
  · -- the target is in reach: `JEQ nr jt 0` straight to it
    rw [if_neg hfar] at hst
    subst hst
    have hjt : (UInt8.ofNat (st.out.length - st.doPolicyLoc)).toNat =
        st.out.length - st.doPolicyLoc := by
      simp [kMaxShortJump] at hfar
      simp [UInt8.toNat_ofNat']
      omega
    refine ⟨hd.suffix.trans ⟨[_], rfl⟩, hd.loc_ge, by simp; omega, rfl, ?_, ?_, ?_, ?_⟩
    · intro hlen
      have := hd.short (by simp [kMaxShortJump] at hlen ⊢; omega)
      exact ⟨this.1, by simp; omega⟩
    · intro prog s hc hroom hs hA
      have hne : s.accumulator ≠ nr := fun h => hA (by simp [h])
      have hA' : s.accumulator ∉ ns := fun h => hA (by simp [h])
      refine GoesTo.trans (goesTo_jeq (hc.inst (i := 0) rfl) (hroom.mono (by simp [hne])) hs) ?_
      rw [if_neg hne]
      have hgo := hd.miss (s := { s with pc := s.pc + 1 }) hc.tail (hroom.shift (by simp only [List.length_cons]; omega)) hs hA'
      exact hgo.of_eq (by simp; omega)
    · intro prog s hc hroom hs hA
      by_cases heq : s.accumulator = nr
      · -- straight to the target of the block after this `JEQ`
        refine ⟨if st.doPolicyLoc = body.length then 0 else 1, by split <;> simp,
          fun h => if_pos h, ?_⟩
        refine GoesTo.trans (goesTo_jeq (hc.inst (i := 0) rfl) (hroom.mono ?_) hs) ?_
        · simp [heq, hjt]
          omega
        · rw [if_pos heq, hjt]
          have hgo := hd.target (s := { s with pc := s.pc + 1 + (st.out.length - st.doPolicyLoc) })
            (s.pc + 1) hc.tail (hroom.shift (by simp only [List.length_cons]; omega)) rfl hs
          exact hgo.of_eq (by simp; omega)
      · have hA' : s.accumulator ∈ ns := by simpa [heq] using hA
        obtain ⟨δ, hδ, hδ₀, hgo⟩ := hd.hit (s := { s with pc := s.pc + 1 }) hc.tail
          (hroom.shift (by simp only [List.length_cons]; omega)) hs hA'
        refine ⟨δ, hδ, hδ₀, ?_⟩
        refine GoesTo.trans (goesTo_jeq (hc.inst (i := 0) rfl) (hroom.mono (by simp [heq])) hs) ?_
        rw [if_neg heq]
        exact hgo.of_eq (by simp; omega)
    · intro prog s base hc hroom hpc hs
      have hgo := hd.target (s := s) (base + 1) hc.tail (hroom.shift (by simp only [List.length_cons]; omega))
        (by simp at hpc; omega) hs
      exact hgo.of_eq (by simp; omega)

theorem foldrM_dispatches (hbody : body.length = policySize + 1) :
    ∀ {ns : List UInt32} {st : DispatchState}, ns ≠ [] →
      ns.foldrM (fun x y => dispatchStep policySize y x) ⟨body, body.length, true⟩ = .ok st →
        Dispatches d body ns st
  | [], _, hne, _ => absurd rfl hne
  | [nr], st, _, h => by
    rw [List.foldrM_cons] at h
    exact dispatches_first (by simpa using h)
  | nr :: n' :: ns, st, _, h => by
    rw [List.foldrM_cons] at h
    obtain ⟨st₀, h₀, h⟩ := Machine.bind_eq_ok h
    exact (foldrM_dispatches hbody (List.cons_ne_nil n' ns) h₀).step hbody h

end

section

variable {d : SeccompData} {nums : List UInt32} {policy out : List SockFilter}

theorem createPolicyOnSyscalls_dispatches (h : createPolicyOnSyscalls nums policy = .ok out) :
    ∃ st, Dispatches d (policy.map rewriteTrace ++ [loadSyscallNr]) nums st ∧ st.out = out := by
  obtain ⟨hn, -, -, st, hst, rfl⟩ := createPolicyOnSyscalls_eq_ok h
  rw [List.foldlM_reverse] at hst
  have hlen : policy.length + 1 = (policy.map rewriteTrace ++ [loadSyscallNr]).length := by simp
  rw [hlen] at hst
  exact ⟨st, foldrM_dispatches (by simp) hn hst, rfl⟩

theorem createPolicyOnSyscalls_passes (h : createPolicyOnSyscalls nums policy = .ok out)
    (hnr : d.nr ∉ nums) : BlockDecides d out d.nr none := by
  obtain ⟨st, hd, rfl⟩ := createPolicyOnSyscalls_dispatches (d := d) h
  intro prog s hc hroom hs ha
  exact (hd.miss hc hroom hs (ha ▸ hnr)).mono fun t ht => decided_none.mpr (by rw [ht, ← ha])

end

/-- `CreatePolicyOnSyscalls` on a non-empty list of numbers other than `bpf` and `ptrace` and a
fragment that `CheckBpfBounds` accepts returns a block that ends with the checked fragment and
`LOAD_SYSCALL_NR` and keeps its jumps inside. Entered with `A = d.nr`, a number outside `nums`
leaves the block with the registers as they were; with at most `kMaxShortJump` numbers, one of
`nums` reaches the first instruction of the fragment with the registers as they were. -/
theorem createPolicyOnSyscalls_block {nums : List UInt32} {policy : List SockFilter}
    (hn : nums ≠ []) (hnr : ∀ nr ∈ nums, nr ≠ nrBpf ∧ nr ≠ nrPtrace)
    (hb : ∀ j (hj : j < policy.length), checkBpfBounds policy[j] (policy.length - j - 1) = true)
    (hlen : policy.length + 1 < UInt32.size) :
    ∃ out, createPolicyOnSyscalls nums policy = .ok out ∧
      (∃ hdr, out = hdr ++ (policy.map rewriteTrace ++ [loadSyscallNr])) ∧ JumpsWithin out ∧
      ∀ (d : SeccompData) (prog : List SockFilter) (s : Interpreter), CodeAt prog s.pc out →
        Room prog s.pc out.length → s.result = none → s.accumulator = d.nr →
        (d.nr ∉ nums → GoesTo prog d s (s.pc + out.length)) ∧
        (nums.length ≤ kMaxShortJump → d.nr ∈ nums →
          GoesTo prog d s (s.pc + (out.length - (policy.length + 1)))) := by
  obtain ⟨out, hout⟩ := createPolicyOnSyscalls_isOk hn hnr hb hlen
  refine ⟨out, hout, ?_, createPolicyOnSyscalls_jumpsWithin hout, ?_⟩
  · -- the layout does not depend on the data: read it off the invariant for any one
    obtain ⟨st, hd, rfl⟩ := createPolicyOnSyscalls_dispatches (d := ⟨0, 0, 0, fun _ => 0⟩) hout
    obtain ⟨hdr, hhdr⟩ := hd.suffix
    exact ⟨hdr, hhdr.symm⟩
  · intro d prog s hc hroom hs hA
    obtain ⟨st, hd, rfl⟩ := createPolicyOnSyscalls_dispatches (d := d) hout
    refine ⟨fun hmiss => hd.miss hc hroom hs (hA ▸ hmiss), fun hshort hhit => ?_⟩
    obtain ⟨δ, -, hδ, hgo⟩ := hd.hit hc hroom hs (hA ▸ hhit)
    have hδ₀ : δ = 0 := hδ (hd.short hshort).1
    exact hgo.of_eq (by simp [hδ₀])

theorem createPolicyOnSyscalls_block_allow :
    ([1] : List UInt32) ≠ [] ∧ (∀ nr ∈ ([1] : List UInt32), nr ≠ nrBpf ∧ nr ≠ nrPtrace) ∧
      (∀ j (hj : j < [allow].length), checkBpfBounds [allow][j] ([allow].length - j - 1) = true) ∧
      [allow].length + 1 < UInt32.size ∧
      ∃ out, createPolicyOnSyscalls [1] [allow] = .ok out ∧
        (∃ hdr, out = hdr ++ ([allow].map rewriteTrace ++ [loadSyscallNr])) ∧ JumpsWithin out ∧
        ∀ (d : SeccompData) (prog : List SockFilter) (s : Interpreter), CodeAt prog s.pc out →
          Room prog s.pc out.length → s.result = none → s.accumulator = d.nr →
          (d.nr ∉ [1] → GoesTo prog d s (s.pc + out.length)) ∧
          ([1].length ≤ kMaxShortJump → d.nr ∈ [1] →
            GoesTo prog d s (s.pc + (out.length - ([allow].length + 1)))) :=
  have hn : ([1] : List UInt32) ≠ [] := by decide
  have hnr : ∀ nr ∈ ([1] : List UInt32), nr ≠ nrBpf ∧ nr ≠ nrPtrace := by
    intro nr hmem
    obtain rfl := List.mem_singleton.mp hmem
    decide
  have hb : ∀ j (hj : j < [allow].length),
      checkBpfBounds [allow][j] ([allow].length - j - 1) = true := by
    intro j hj
    obtain rfl : j = 0 := by simpa using hj
    show checkBpfBounds allow 0 = true
    decide
  have hlen : [allow].length + 1 < UInt32.size := by decide
  ⟨hn, hnr, hb, hlen, createPolicyOnSyscalls_block hn hnr hb hlen⟩

/-- Once a helper jump is needed, a matched number lands one past the start of the fragment. The
fragment `ARG_32(0), JEQ32(5, DENY), ALLOW` kills a call whose first argument is 5, and so does
its block for the 256 numbers from 1000. In the block for 257 numbers the first of them jumps
past the load of the argument, compares the syscall number with 5 and is allowed. -/
theorem createPolicyOnSyscalls_helper_jump_skips_fragment :
    evaluate (loadSyscallNr :: arg32 0 :: jeq32 5 deny ++ [allow])
        ⟨1000, hostAuditArch, 0, fun _ => 5⟩ = .ok seccompRetKill ∧
      (createPolicyOnSyscalls ((List.range 256).map fun i => UInt32.ofNat (1000 + i))
          (arg32 0 :: jeq32 5 deny ++ [allow])).map
        (fun out => evaluate (loadSyscallNr :: out ++ [kill]) ⟨1000, hostAuditArch, 0, fun _ => 5⟩) =
        .ok (.ok seccompRetKill) ∧
      (createPolicyOnSyscalls ((List.range 257).map fun i => UInt32.ofNat (1000 + i))
          (arg32 0 :: jeq32 5 deny ++ [allow])).map
        (fun out => evaluate (loadSyscallNr :: out ++ [kill]) ⟨1000, hostAuditArch, 0, fun _ => 5⟩) =
        .ok (.ok seccompRetAllow) :=
  ⟨by decide, by decide +kernel, by decide +kernel⟩

end SandboxedApi

import SandboxedApi.Bpf.Fragment
import SandboxedApi.Policy.DispatchSpec

namespace SandboxedApi

structure Carry where
  xReg : UInt32
  mem : Fin 16 → Option UInt32

def Carry.enter (c : Carry) (data : SeccompData) (pc : Nat) : Interpreter :=
  ⟨pc, data.nr, c.xReg, c.mem, none⟩

/-- `X` and `M` as `Evaluate` starts: zero and empty. -/
def Carry.init : Carry := ⟨0, fun _ => none⟩

inductive Rule where
  /-- `SYSCALL(nr, RET verdict)`. -/
  | syscall (nr verdict : UInt32)
  | onSyscalls (nums : List UInt32) (policy : List SockFilter)
  /-- `RET verdict`, for every syscall. -/
  | action (verdict : UInt32)

def Rule.apply (data : SeccompData) (c : Carry) : Rule → Outcome Carry
  | .syscall nr r => if data.nr = nr then .ret r else .next c
  | .onSyscalls nums policy =>
    if data.nr ∈ nums then
      (runBlock policy data (c.enter data 0)).bind fun t => .next ⟨t.xReg, t.mem⟩
    else .next c
  | .action r => .ret r

def runRules (data : SeccompData) : Carry → List Rule → Outcome Carry
  | c, [] => .next c
  | c, rule :: rules => (rule.apply data c).bind fun c' => runRules data c' rules

section

variable {data : SeccompData} {c : Carry} {r₁ r₂ : List Rule}

@[simp] theorem runRules_nil : runRules data c [] = .next c := rfl

theorem runRules_singleton (rule : Rule) : runRules data c [rule] = rule.apply data c :=
  Outcome.bind_next _

theorem runRules_append : ∀ (r₁ : List Rule) (c : Carry),
    runRules data c (r₁ ++ r₂) = (runRules data c r₁).bind fun c' => runRules data c' r₂
  | [], _ => rfl
  | rule :: r₁, c => by
    simp only [List.cons_append, runRules, Outcome.bind_assoc]
    congr 1
    funext c'
    exact runRules_append r₁ c'

def Stops (data : SeccompData) (rules : List Rule) : Prop :=
  ∀ c c', runRules data c rules ≠ .next c'

theorem Stops.append_left (h : Stops data r₁) (r₂ : List Rule) : Stops data (r₁ ++ r₂) := by
  intro c c' he
  rw [runRules_append] at he
  cases hr : runRules data c r₁ with
  | ret r => rw [hr] at he; cases he
  | error e => rw [hr] at he; cases he
  | next c'' => exact h c c'' hr

theorem Stops.append_right (r₁ : List Rule) (h : Stops data r₂) : Stops data (r₁ ++ r₂) := by
  intro c c' he
  rw [runRules_append] at he
  cases hr : runRules data c r₁ with
  | ret r => rw [hr] at he; cases he
  | error e => rw [hr] at he; cases he
  | next c'' =>
    rw [hr] at he
    exact h c'' c' he

theorem stops_syscall {nr : UInt32} (h : data.nr = nr) (r : UInt32) :
    Stops data [.syscall nr r] := by
  intro c c'
  simp [runRules_singleton, Rule.apply, h]

theorem runRules_append_of_stops (h : Stops data r₁) :
    runRules data c (r₁ ++ r₂) = runRules data c r₁ := by
  rw [runRules_append]
  cases hr : runRules data c r₁ with
  | ret r => rfl
  | error e => rfl
  | next c' => exact absurd hr (h c c')

theorem runRules_append_of_passes {rule : Rule} (h : ∀ c, rule.apply data c = .next c) :
    runRules data c (r₁ ++ [rule]) = runRules data c r₁ := by
  rw [runRules_append]
  simp only [runRules_singleton, h, Outcome.bind_next]

end

/-- `block`, placed anywhere with room after it and entered with the syscall number in `A` and
any `X` and `M`, runs on `data` as `rules` do. -/
def Implements (data : SeccompData) (block : List SockFilter) (rules : List Rule) : Prop :=
  ∀ ⦃prog : List SockFilter⦄ ⦃o : Nat⦄ (c : Carry), CodeAt prog o block →
    Room prog o block.length →
      Ends prog data (c.enter data o) (·.enter data (o + block.length)) (runRules data c rules)

section

variable {data : SeccompData} {b₁ b₂ : List SockFilter} {r₁ r₂ : List Rule}

theorem implements_nil : Implements data [] [] := by
  intro prog o c _ _
  exact Relation.ReflTransGen.refl

theorem Implements.append (h₁ : Implements data b₁ r₁) (h₂ : Implements data b₂ r₂) :
    Implements data (b₁ ++ b₂) (r₁ ++ r₂) := by
  intro prog o c hc hroom
  rw [runRules_append]
  have hroom₁ : Room prog o b₁.length := hroom.mono (by simp)
  refine Ends.bind (h₁ c hc.append_left hroom₁) fun c' _ => ?_
  have hroom₂ : Room prog (o + b₁.length) b₂.length := hroom.shift (by simp)
  have h := h₂ c' hc.append_right hroom₂
  rwa [Nat.add_assoc, ← List.length_append] at h

theorem Implements.append_redundant {rule : Rule} (h : Implements data b₁ r₁)
    (hred : Stops data r₁ ∨ ∀ c, rule.apply data c = .next c) :
    Implements data b₁ (r₁ ++ [rule]) := by
  intro prog o c hc hroom
  rcases hred with hstop | hpass
  · rw [runRules_append_of_stops hstop]
    exact h c hc hroom
  · rw [runRules_append_of_passes hpass]
    exact h c hc hroom

theorem implements_syscall (nr r : UInt32) :
    Implements data (syscall nr (bpfStmt (bpfRet + bpfK) r)) [.syscall nr r] := by
  intro prog o c hc hroom
  have h : Decides prog data (c.enter data o) 2 data.nr
      (if data.nr = nr then some r else none) := decides_jeq32Ret hc hroom rfl
  rw [runRules_singleton]
  by_cases hn : data.nr = nr
  · simp only [Rule.apply, hn, if_true] at h ⊢
    exact h
  · simp only [Rule.apply, hn, if_false] at h ⊢
    exact Leads.reaches h

theorem implements_createPolicyOnSyscalls {nums : List UInt32} {policy out : List SockFilter}
    (h : createPolicyOnSyscalls nums policy = .ok out) (hshort : nums.length ≤ kMaxShortJump) :
    Implements data out [.onSyscalls nums (policy.map rewriteTrace)] := by
  obtain ⟨st, hd, rfl⟩ := createPolicyOnSyscalls_dispatches (d := data) h
  obtain ⟨hdr, hhdr⟩ := hd.suffix
  have hj := createPolicyOnSyscalls_fragment h
  intro prog o c hc hroom
  have hlen : st.out.length = hdr.length + (policy.length + 1) := by
    rw [← hhdr]
    simp
  rw [runRules_singleton]
  simp only [Rule.apply]
  split_ifs with hnr
  · -- a number of `nums` reaches the fragment, which runs there as it runs on its own
    obtain ⟨δ, -, hδ, hgo⟩ := hd.hit (s := c.enter data o) hc hroom rfl hnr
    have hδ₀ : δ = 0 := hδ (hd.short hshort).1
    have hreach : Reaches prog data (c.enter data o) (c.enter data (o + hdr.length)) := by
      refine Leads.reaches (hgo.of_eq ?_)
      simp [hδ₀, hlen, Carry.enter]
    have hcode : CodeAt prog (o + hdr.length) (policy.map rewriteTrace ++ [loadSyscallNr]) := by
      rw [← hhdr] at hc
      exact hc.append_right
    have hroom₁ : Room prog (o + hdr.length) (policy.map rewriteTrace).length :=
      hroom.shift (by simp only [List.length_map, hlen]; omega)
    have hrun : Ends prog data _ _ _ := runBlock_placed (s := c.enter data (o + hdr.length))
      hcode.append_left hroom₁ hj
    refine Ends.of_reaches hreach (Ends.bind hrun fun t ht => ?_)
    have hres := runBlock_next ht
    have hld : Room prog (o + hdr.length + (policy.map rewriteTrace).length) 1 := by
      rw [Nat.add_assoc]
      exact hroom.shift (by simp only [List.length_map, hlen]; omega)
    refine Leads.reaches (leads_loadSyscallNr (hcode.append_right.inst (i := 0) rfl) hld hres
      (Leads.here ?_))
    simp [Carry.enter, hlen, hres]
    omega
  · -- any other number passes the whole block
    exact Leads.reaches (hd.miss (s := c.enter data o) hc hroom rfl hnr)

end

end SandboxedApi

import SandboxedApi.Bpf.Jumps
import SandboxedApi.Bpf.Decides

namespace SandboxedApi

def Interpreter.shift (base : Nat) (s : Interpreter) : Interpreter := { s with pc := base + s.pc }

@[simp] theorem Interpreter.shift_pc (base : Nat) (s : Interpreter) :
    (s.shift base).pc = base + s.pc := rfl

@[simp] theorem Interpreter.shift_result (base : Nat) (s : Interpreter) :
    (s.shift base).result = s.result := rfl

theorem bpfOp_ne_ja_of_evaluateCmp {op : UInt16} {a b : UInt32} {c : Bool}
    (h : evaluateCmp op a b = .ok c) : op ≠ bpfJa := by
  rintro rfl
  simp [evaluateCmp, bpfJa] at h

section

variable {P Q : List SockFilter} {base : Nat} {data : SeccompData}

theorem advance_shift {s : Interpreter} {off : UInt32}
    (hQ : s.pc + 1 + off.toNat < Q.length) (hP : base + s.pc + 1 + off.toNat < P.length)
    (hw : base + s.pc + 1 + off.toNat < UInt32.size) :
    (advance Q s off).map (Interpreter.shift base) = advance P (s.shift base) off := by
  have hP' : (s.shift base).pc + 1 + off.toNat < P.length := by
    simp only [Interpreter.shift_pc]; omega
  have hw' : (s.shift base).pc + 1 + off.toNat < UInt32.size := by
    simp only [Interpreter.shift_pc]; omega
  rw [advance_eq hP' hw', advance_eq hQ (by omega)]
  simp only [Interpreter.shift, Except.map]
  congr 2
  omega

theorem evaluateSingleInstruction_shift {s : Interpreter} {inst : SockFilter}
    (hP : P[base + s.pc]? = some inst) (hQ : Q[s.pc]? = some inst)
    (hbound : ∀ t ∈ (s.pc + 1) :: jumpTargets inst s.pc,
      t < Q.length ∧ base + t < P.length ∧ base + t < UInt32.size) :
    (evaluateSingleInstruction Q data s).map (Interpreter.shift base) =
      evaluateSingleInstruction P data (s.shift base) := by
  have hadv : ∀ (t : Interpreter) (off : UInt32), t.pc = s.pc →
      s.pc + 1 + off.toNat ∈ (s.pc + 1) :: jumpTargets inst s.pc →
      (advance Q t off).map (Interpreter.shift base) = advance P (t.shift base) off := by
    intro t off ht hoff
    obtain ⟨h1, h2, h3⟩ := hbound _ hoff
    exact advance_shift (by omega) (by omega) (by omega)
  have hfetch : P[(s.shift base).pc]? = some inst := hP
  have h0 : s.pc + 1 + (0 : UInt32).toNat ∈ (s.pc + 1) :: jumpTargets inst s.pc := by simp
  unfold evaluateSingleInstruction
  rw [hfetch, hQ]
  dsimp only [Interpreter.shift]
  split
  all_goals (repeat' split) <;> first
    | rfl
    | (exact hadv _ _ rfl h0)
    | (exact hadv _ _ rfl (List.mem_cons_of_mem _ (mem_jumpTargets_ja ‹_› _)))
    | skip
  all_goals
    have hop := bpfOp_ne_ja_of_evaluateCmp ‹evaluateCmp _ _ _ = _›
    have hjmp := mem_jumpTargets_cond ‹inst.code.toNat = _› (by decide) hop s.pc
    first
      | exact hadv _ _ rfl (List.mem_cons_of_mem _ hjmp.1)
      | exact hadv _ _ rfl (List.mem_cons_of_mem _ hjmp.2)

end

inductive Outcome (σ : Type) where
  | ret (r : UInt32)
  | error (e : EvalError)
  | next (s : σ)

namespace Outcome

variable {σ τ υ : Type}

def bind : Outcome σ → (σ → Outcome τ) → Outcome τ
  | .ret r, _ => .ret r
  | .error e, _ => .error e
  | .next s, k => k s

def verdict (r₀ : UInt32) : Outcome σ → Except EvalError UInt32
  | .ret r => .ok r
  | .error e => .error e
  | .next _ => .ok r₀

@[simp] theorem bind_next (o : Outcome σ) : o.bind .next = o := by
  cases o <;> rfl

theorem bind_assoc (o : Outcome σ) (k : σ → Outcome τ) (k' : τ → Outcome υ) :
    (o.bind k).bind k' = o.bind fun s => (k s).bind k' := by
  cases o <;> rfl

end Outcome

def blockDone (n : Nat) (s : Interpreter) : Option (Outcome Interpreter) :=
  match s.result with
  | some r => some (.ret r)
  | none => if s.pc = n then some (.next s) else none

/-- `block` run on its own on `data`, from the registers of `s`: from its first instruction
until a `RET`, or until it reaches the instruction just past its end by falling through or by
jumping. That slot holds a `LOAD_SYSCALL_NR`, as the one `CreatePolicyOnSyscalls` appends, and
is never executed. -/
def runBlock (block : List SockFilter) (data : SeccompData) (s : Interpreter) :
    Outcome Interpreter :=
  match Machine.loop (evaluateSingleInstruction (block ++ [loadSyscallNr]) data)
      (blockDone block.length) .outOfBoundsExecution (block.length + 2) { s with pc := 0 } with
  | .ok o => o
  | .error e => .error e

def BlockReaches (block : List SockFilter) (data : SeccompData) : Interpreter → Interpreter → Prop :=
  Machine.Reaches (evaluateSingleInstruction (block ++ [loadSyscallNr]) data)
    (blockDone block.length)

section

variable {block : List SockFilter} {data : SeccompData} {n : Nat} {s u : Interpreter}

theorem blockDone_eq_none : blockDone n s = none ↔ s.result = none ∧ s.pc ≠ n := by
  unfold blockDone
  split <;> simp_all

theorem blockDone_eq_some {o : Outcome Interpreter} (h : blockDone n s = some o) :
    (∃ r, s.result = some r ∧ o = .ret r) ∨ (s.result = none ∧ s.pc = n ∧ o = .next s) := by
  unfold blockDone at h
  split at h
  · cases h
    exact .inl ⟨_, ‹_›, rfl⟩
  · split at h
    · cases h
      exact .inr ⟨‹_›, ‹_›, rfl⟩
    · cases h

theorem BlockReaches.pc_le (h : BlockReaches block data { s with pc := 0 } u) :
    u.pc ≤ block.length := by
  cases h with
  | refl => exact Nat.zero_le _
  | tail _ hst =>
    obtain ⟨hpc, ⟨hsame, -⟩ | ⟨-, hlt, -⟩⟩ := evaluateSingleInstruction_progress hst.2
    all_goals simp only [List.length_append, List.length_singleton] at *
    all_goals omega

theorem runBlock_cases (block : List SockFilter) (data : SeccompData) (s : Interpreter) :
    (∃ u o, BlockReaches block data { s with pc := 0 } u ∧ blockDone block.length u = some o ∧
      runBlock block data s = o) ∨
    (∃ u e, BlockReaches block data { s with pc := 0 } u ∧ blockDone block.length u = none ∧
      evaluateSingleInstruction (block ++ [loadSyscallNr]) data u = .error e ∧
      runBlock block data s = .error e) := by
  have hstep : ∀ u u', Machine.Step (evaluateSingleInstruction (block ++ [loadSyscallNr]) data)
      (blockDone block.length) u u' → progressMeasure u < progressMeasure u' ∧
        progressMeasure u' ≤ (block ++ [loadSyscallNr]).length :=
    fun u u' h => progressMeasure_lt (blockDone_eq_none.mp h.1).1 h.2
  have hfuel : (block ++ [loadSyscallNr]).length - progressMeasure { s with pc := 0 } <
      block.length + 2 := by
    simp only [List.length_append, List.length_singleton]
    omega
  rcases @Machine.loop_outcome _ _ _ _ _ EvalError.outOfBoundsExecution progressMeasure _
      (fun u u' h => (hstep u u' h).1) (fun u u' h => (hstep u u' h).2) _ _ hfuel with ⟨u, o, hr, hd, hl⟩ | ⟨u, e, hr, hd, he, hl⟩
  · exact .inl ⟨u, o, hr, hd, by simp only [runBlock, hl]⟩
  · exact .inr ⟨u, e, hr, hd, he, by simp only [runBlock, hl]⟩

theorem runBlock_next {t : Interpreter} (h : runBlock block data s = .next t) : t.result = none := by
  rcases runBlock_cases block data s with ⟨u, o, -, hd, hrun⟩ | ⟨u, e, -, -, -, hrun⟩
  · rcases blockDone_eq_some hd with ⟨r, -, rfl⟩ | ⟨hr, -, rfl⟩
    · rw [hrun] at h
      cases h
    · rw [hrun] at h
      cases h
      exact hr
  · rw [hrun] at h
    cases h

theorem runBlock_pc (k : Nat) : runBlock block data { s with pc := k } = runBlock block data s :=
  rfl

variable {prog : List SockFilter} {base : Nat}

theorem step_shift (hc : CodeAt prog base block) (hroom : Room prog base block.length)
    (hj : JumpsWithin block) (hpc : u.pc < block.length) :
    (evaluateSingleInstruction (block ++ [loadSyscallNr]) data u).map (Interpreter.shift base) =
      evaluateSingleInstruction prog data (u.shift base) := by
  refine evaluateSingleInstruction_shift (hc.getElem? hpc) ?_ ?_
  · simp [List.getElem?_append_left hpc]
  · intro t ht
    have hle : t ≤ block.length := by
      rcases List.mem_cons.mp ht with rfl | ht
      · omega
      · exact hj u.pc hpc t ht
    have := hroom.1
    have := hroom.2
    simp only [List.length_append, List.length_singleton]
    omega

theorem blockStep_shift (hc : CodeAt prog base block) (hroom : Room prog base block.length)
    (hj : JumpsWithin block) {u' : Interpreter}
    (h : Machine.Step (evaluateSingleInstruction (block ++ [loadSyscallNr]) data)
      (blockDone block.length) u u') :
    Machine.Step (evaluateSingleInstruction prog data) Interpreter.result (u.shift base)
      (u'.shift base) := by
  obtain ⟨hd, hs⟩ := h
  obtain ⟨hres, hne⟩ := blockDone_eq_none.mp hd
  have hpc : u.pc < block.length := by
    have := (evaluateSingleInstruction_progress hs).1
    simp only [List.length_append, List.length_singleton] at this
    omega
  refine ⟨hres, ?_⟩
  rw [← step_shift hc hroom hj hpc, hs]
  rfl

end

def Ends {σ : Type} (prog : List SockFilter) (data : SeccompData) (s : Interpreter)
    (place : σ → Interpreter) : Outcome σ → Prop
  | .ret r => Leads prog data s (·.result = some r)
  | .error e => ∃ t, Reaches prog data s t ∧ t.result = none ∧
      evaluateSingleInstruction prog data t = .error e
  | .next c => Reaches prog data s (place c)

section

variable {σ τ : Type} {prog : List SockFilter} {data : SeccompData} {s t : Interpreter}
  {place : σ → Interpreter} {o : Outcome σ}

theorem Ends.of_reaches (hr : Reaches prog data s t) (h : Ends prog data t place o) :
    Ends prog data s place o := by
  cases o with
  | ret r => exact Leads.of_reaches hr h
  | error e =>
    obtain ⟨u, hu, h⟩ := h
    exact ⟨u, hr.trans hu, h⟩
  | next c => exact hr.trans h

theorem Ends.bind {place' : τ → Interpreter} {k : σ → Outcome τ} (h : Ends prog data s place o)
    (hk : ∀ c, o = .next c → Ends prog data (place c) place' (k c)) :
    Ends prog data s place' (o.bind k) := by
  cases o with
  | ret r => exact h
  | error e => exact h
  | next c => exact Ends.of_reaches h (hk c rfl)

theorem runBlock_placed {block : List SockFilter} (hc : CodeAt prog s.pc block)
    (hroom : Room prog s.pc block.length) (hj : JumpsWithin block) :
    Ends prog data s (fun t => { t with pc := s.pc + block.length }) (runBlock block data s) := by
  have hlift : ∀ {u}, BlockReaches block data { s with pc := 0 } u →
      Reaches prog data s (u.shift s.pc) := fun hu =>
    Relation.ReflTransGen.lift (Interpreter.shift s.pc) (fun _ _ h => blockStep_shift hc hroom hj h)
      _ _ hu
  rcases runBlock_cases block data s with ⟨u, o, hu, hd, hrun⟩ | ⟨u, e, hu, hd, he, hrun⟩
  · rw [hrun]
    rcases blockDone_eq_some hd with ⟨r, hr, rfl⟩ | ⟨-, hpc, rfl⟩
    · exact ⟨u.shift s.pc, hlift hu, hr⟩
    · have h := hlift hu
      rwa [Interpreter.shift, hpc] at h
  · rw [hrun]
    obtain ⟨hres, hne⟩ := blockDone_eq_none.mp hd
    have hpc : u.pc < block.length := by
      have := hu.pc_le
      omega
    refine ⟨u.shift s.pc, hlift hu, hres, ?_⟩
    rw [← step_shift hc hroom hj hpc, he]
    rfl

end

end SandboxedApi

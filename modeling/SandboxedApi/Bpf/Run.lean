import SandboxedApi.Bpf.Evaluator

namespace SandboxedApi

def Reaches (prog : List SockFilter) (data : SeccompData) : Interpreter → Interpreter → Prop :=
  Machine.Reaches (evaluateSingleInstruction prog data) Interpreter.result

def Returns (prog : List SockFilter) (data : SeccompData) (s : Interpreter) (r : UInt32) : Prop :=
  ∃ s', Reaches prog data s s' ∧ s'.result = some r

section

variable {prog : List SockFilter} {data : SeccompData} {s s' : Interpreter}

theorem advance_eq {offset : UInt32} (hb : s.pc + 1 + offset.toNat < prog.length)
    (hw : s.pc + 1 + offset.toNat < UInt32.size) :
    advance prog s offset = .ok { s with pc := s.pc + 1 + offset.toNat } := by
  have hsize : UInt32.size = 4294967296 := rfl
  have h1 : ¬(s.pc > UInt32.size - 1 - 1 ∨ s.pc + 1 ≥ prog.length) := by omega
  have h2 : ¬(offset ≠ 0 ∧ (s.pc + 1 > UInt32.size - 1 - offset.toNat ∨
      s.pc + 1 + offset.toNat ≥ prog.length)) := fun h => by omega
  simp only [advance, if_neg h1, if_neg h2]

theorem advance_inv {offset : UInt32} (h : advance prog s offset = .ok s') :
    s' = { s with pc := s.pc + 1 + offset.toNat } ∧ s.pc + 1 + offset.toNat < prog.length := by
  unfold advance at h
  split at h
  · cases h
  · rename_i hfall
    split at h
    · cases h
    · rename_i hjump
      cases h
      refine ⟨rfl, ?_⟩
      by_cases h0 : offset = 0
      · subst h0
        simp only [UInt32.toNat_zero, Nat.add_zero]
        omega
      · have := not_and.mp hjump h0
        omega

theorem advance_congr {prog' : List SockFilter} (h : prog.length = prog'.length) :
    advance prog = advance prog' := by
  funext s offset
  simp only [advance, h]

theorem evaluateSingleInstruction_congr {prog' : List SockFilter}
    (hlen : prog.length = prog'.length) (hpc : prog[s.pc]? = prog'[s.pc]?) :
    evaluateSingleInstruction prog data s = evaluateSingleInstruction prog' data s := by
  unfold evaluateSingleInstruction
  rw [hpc, advance_congr hlen]

theorem evaluateSingleInstruction_progress (h : evaluateSingleInstruction prog data s = .ok s') :
    s.pc < prog.length ∧ ((s'.pc = s.pc ∧ s'.result.isSome) ∨
      (s.pc < s'.pc ∧ s'.pc < prog.length ∧ s'.result = s.result)) := by
  unfold evaluateSingleInstruction at h
  split at h
  · cases h
  · rename_i inst hinst
    have hpc : s.pc < prog.length := (List.getElem?_eq_some_iff.mp hinst).1
    refine ⟨hpc, ?_⟩
    dsimp only at h
    repeat' split at h
    all_goals first
      | (obtain ⟨rfl, hb⟩ := advance_inv h; exact .inr ⟨by dsimp only; omega, hb, rfl⟩)
      | (cases h; exact .inl ⟨rfl, rfl⟩)
      | cases h

theorem evaluateSingleInstruction_result (h : evaluateSingleInstruction prog data s = .ok s') :
    s'.result = s.result ∨ ∃ inst, prog[s.pc]? = some inst ∧
      ((inst.code.toNat = 0x06 ∧ s' = { s with result := some inst.k }) ∨
        (inst.code.toNat = 0x16 ∧ s' = { s with result := some s.accumulator })) := by
  unfold evaluateSingleInstruction at h
  split at h
  next => cases h
  next inst hinst =>
    dsimp only at h
    repeat' split at h
    all_goals first
      | (obtain ⟨rfl, -⟩ := advance_inv h; exact .inl rfl)
      | (cases h; exact .inr ⟨inst, hinst, .inl ⟨‹_›, rfl⟩⟩)
      | (cases h; exact .inr ⟨inst, hinst, .inr ⟨‹_›, rfl⟩⟩)
      | cases h

def progressMeasure (s : Interpreter) : Nat := s.pc + if s.result.isSome then 1 else 0

theorem progressMeasure_lt (hnone : s.result = none)
    (hs : evaluateSingleInstruction prog data s = .ok s') :
    progressMeasure s < progressMeasure s' ∧ progressMeasure s' ≤ prog.length := by
  obtain ⟨hpc, ⟨hsame, hsome⟩ | ⟨hlt, hlen, hres⟩⟩ := evaluateSingleInstruction_progress hs
  · simp [progressMeasure, hnone, hsame, hsome]
    omega
  · simp [progressMeasure, hnone, hres]
    omega

theorem progressMeasure_step
    (h : Machine.Step (evaluateSingleInstruction prog data) Interpreter.result s s') :
    progressMeasure s < progressMeasure s' ∧ progressMeasure s' ≤ prog.length :=
  progressMeasure_lt h.1 h.2

theorem Reaches.progressMeasure_le (h : Reaches prog data Interpreter.init s) :
    progressMeasure s ≤ prog.length := by
  cases h with
  | refl => simp [progressMeasure, Interpreter.init]
  | tail _ hst => exact (progressMeasure_step hst).2

theorem evaluate_outcome (prog : List SockFilter) (data : SeccompData) :
    (∃ s r, Reaches prog data Interpreter.init s ∧ s.result = some r ∧ evaluate prog data = .ok r) ∨
    (∃ s e, Reaches prog data Interpreter.init s ∧ s.result = none ∧
      evaluateSingleInstruction prog data s = .error e ∧ evaluate prog data = .error e) :=
  Machine.loop_outcome progressMeasure prog.length (fun _ _ h => (progressMeasure_step h).1)
    (fun _ _ h => (progressMeasure_step h).2) _ _ (by simp [progressMeasure, Interpreter.init])

theorem evaluate_of_returns {r : UInt32} (h : Returns prog data Interpreter.init r) :
    evaluate prog data = .ok r := by
  obtain ⟨s, hr, hs⟩ := h
  have hle := hr.progressMeasure_le
  exact Machine.loop_eq_of_reaches_done progressMeasure (fun _ _ h => (progressMeasure_step h).1)
    hr hs (by omega)

end

end SandboxedApi

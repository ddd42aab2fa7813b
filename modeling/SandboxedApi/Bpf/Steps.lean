import SandboxedApi.Bpf.Block

namespace SandboxedApi

section

variable {prog : List SockFilter} {data : SeccompData} {s : Interpreter} {inst : SockFilter}
  {Q : Interpreter → Prop}

theorem leads_ldAbs (hi : prog[s.pc]? = some inst) (hcode : inst.code = 0x20)
    (hk : inst.k &&& 3 = 0) (hk' : inst.k.toNat + 4 ≤ seccompDataSize) (hroom : Room prog s.pc 1)
    (hs : s.result = none)
    (h : Leads prog data { s with accumulator := data.load inst.k, pc := s.pc + 1 } Q) :
    Leads prog data s Q := by
  refine Leads.of_step hs ?_ h
  have hstep : evaluateSingleInstruction prog data s =
      advance prog { s with accumulator := data.load inst.k } 0 := by
    simp only [evaluateSingleInstruction, hi, hcode]
    simp [hk, seccompDataSize] at hk' ⊢
    omega
  rw [hstep, advance_eq (by simpa using hroom.1) (by simpa using hroom.2)]
  simp

theorem evaluateSingleInstruction_ret (hi : prog[s.pc]? = some inst) (hcode : inst.code = 0x06) :
    evaluateSingleInstruction prog data s = .ok { s with result := some inst.k } := by
  simp [evaluateSingleInstruction, hi, hcode]

theorem leads_ret (hi : prog[s.pc]? = some inst) (hcode : inst.code = 0x06) (hs : s.result = none)
    (h : Q { s with result := some inst.k }) : Leads prog data s Q :=
  Leads.of_step hs (evaluateSingleInstruction_ret hi hcode) (Leads.here h)

theorem leads_ja (hi : prog[s.pc]? = some inst) (hcode : inst.code = 0x05)
    (hroom : Room prog s.pc (1 + inst.k.toNat)) (hs : s.result = none)
    (h : Leads prog data { s with pc := s.pc + 1 + inst.k.toNat } Q) : Leads prog data s Q := by
  refine Leads.of_step hs ?_ h
  simp only [evaluateSingleInstruction, hi, hcode]
  exact advance_eq (by have := hroom.1; omega) (by have := hroom.2; omega)

theorem evaluateSingleInstruction_jmpK {c : Bool} (hi : prog[s.pc]? = some inst)
    (hcode : (inst.code = 0x15 ∧ c = (s.accumulator == inst.k)) ∨
      (inst.code = 0x25 ∧ c = decide (s.accumulator > inst.k)) ∨
      (inst.code = 0x35 ∧ c = decide (s.accumulator ≥ inst.k)) ∨
      (inst.code = 0x45 ∧ c = ((s.accumulator &&& inst.k) != 0)))
    (hroom : Room prog s.pc (1 + (if c then inst.jt else inst.jf).toNat)) :
    evaluateSingleInstruction prog data s =
      .ok { s with pc := s.pc + 1 + (if c then inst.jt else inst.jf).toNat } := by
  have hstep : evaluateSingleInstruction prog data s =
      advance prog s (if c then inst.jt.toUInt32 else inst.jf.toUInt32) := by
    rcases hcode with ⟨hc, rfl⟩ | ⟨hc, rfl⟩ | ⟨hc, rfl⟩ | ⟨hc, rfl⟩ <;>
      simp [evaluateSingleInstruction, hi, hc, bpfSrc, bpfK, bpfOp, evaluateCmp,
        show (21 : UInt16) &&& 8 = 0 from rfl, show (37 : UInt16) &&& 8 = 0 from rfl,
        show (53 : UInt16) &&& 8 = 0 from rfl, show (69 : UInt16) &&& 8 = 0 from rfl,
        show (21 : UInt16) &&& 240 = 16 from rfl, show (37 : UInt16) &&& 240 = 32 from rfl,
        show (53 : UInt16) &&& 240 = 48 from rfl, show (69 : UInt16) &&& 240 = 64 from rfl]
  have hoff : (if c then inst.jt.toUInt32 else inst.jf.toUInt32).toNat =
      (if c then inst.jt else inst.jf).toNat := by
    cases c <;> simp
  rw [hstep, advance_eq (by rw [hoff]; have := hroom.1; omega) (by rw [hoff]; have := hroom.2; omega),
    hoff]

theorem leads_jmpK {c : Bool} (hi : prog[s.pc]? = some inst)
    (hcode : (inst.code = 0x15 ∧ c = (s.accumulator == inst.k)) ∨
      (inst.code = 0x25 ∧ c = decide (s.accumulator > inst.k)) ∨
      (inst.code = 0x35 ∧ c = decide (s.accumulator ≥ inst.k)) ∨
      (inst.code = 0x45 ∧ c = ((s.accumulator &&& inst.k) != 0)))
    (hroom : Room prog s.pc (1 + (if c then inst.jt else inst.jf).toNat)) (hs : s.result = none)
    (h : Leads prog data { s with pc := s.pc + 1 + (if c then inst.jt else inst.jf).toNat } Q) :
    Leads prog data s Q :=
  Leads.of_step hs (evaluateSingleInstruction_jmpK hi hcode hroom) h

theorem evaluateSingleInstruction_ldMem {v : UInt32} (hi : prog[s.pc]? = some inst)
    (hcode : inst.code = 0x60) (hk : inst.k.toNat < 16) (hm : s.mem ⟨inst.k.toNat, hk⟩ = some v)
    (hroom : Room prog s.pc 1) :
    evaluateSingleInstruction prog data s = .ok { s with accumulator := v, pc := s.pc + 1 } := by
  simp only [evaluateSingleInstruction, hi, hcode]
  simp only [UInt16.reduceToNat, hk, ↓reduceDIte, hm]
  exact advance_eq (by have := hroom.1; simpa using this) (by have := hroom.2; simpa using this)

theorem evaluateSingleInstruction_ldMemAt {m : Fin 16} {v : UInt32} (hi : prog[s.pc]? = some inst)
    (hcode : inst.code = 0x60) (hk : inst.k.toNat = m.val) (hm : s.mem m = some v)
    (hroom : Room prog s.pc 1) :
    evaluateSingleInstruction prog data s = .ok { s with accumulator := v, pc := s.pc + 1 } := by
  have hslot : (⟨inst.k.toNat, hk ▸ m.isLt⟩ : Fin 16) = m := Fin.ext hk
  exact evaluateSingleInstruction_ldMem hi hcode (hk ▸ m.isLt) (by rw [hslot]; exact hm) hroom

theorem leads_ldMem {v : UInt32} (hi : prog[s.pc]? = some inst) (hcode : inst.code = 0x60)
    (hk : inst.k.toNat < 16) (hm : s.mem ⟨inst.k.toNat, hk⟩ = some v) (hroom : Room prog s.pc 1)
    (hs : s.result = none) (h : Leads prog data { s with accumulator := v, pc := s.pc + 1 } Q) :
    Leads prog data s Q :=
  Leads.of_step hs (evaluateSingleInstruction_ldMem hi hcode hk hm hroom) h

theorem leads_st (hi : prog[s.pc]? = some inst) (hcode : inst.code = 0x02) (hk : inst.k.toNat < 16)
    (hroom : Room prog s.pc 1) (hs : s.result = none)
    (h : Leads prog data
      { s with mem := Function.update s.mem ⟨inst.k.toNat, hk⟩ (some s.accumulator), pc := s.pc + 1 } Q) :
    Leads prog data s Q := by
  refine Leads.of_step hs ?_ h
  simp only [evaluateSingleInstruction, hi, hcode]
  simp only [UInt16.reduceToNat, hk, ↓reduceDIte]
  exact advance_eq (by have := hroom.1; simpa using this) (by have := hroom.2; simpa using this)

theorem leads_loadSyscallNr (hi : prog[s.pc]? = some loadSyscallNr) (hroom : Room prog s.pc 1)
    (hs : s.result = none) (h : Leads prog data { s with accumulator := data.nr, pc := s.pc + 1 } Q) :
    Leads prog data s Q :=
  leads_ldAbs hi rfl rfl (by decide) hroom hs h

theorem leads_loadArch (hi : prog[s.pc]? = some loadArch) (hroom : Room prog s.pc 1)
    (hs : s.result = none) (h : Leads prog data { s with accumulator := data.arch, pc := s.pc + 1 } Q) :
    Leads prog data s Q :=
  leads_ldAbs hi rfl rfl (by decide) hroom hs h

theorem leads_arg32 {i : Fin 6} (hi : prog[s.pc]? = some (arg32 i)) (hroom : Room prog s.pc 1)
    (hs : s.result = none)
    (h : Leads prog data { s with accumulator := lo32 (data.args i), pc := s.pc + 1 } Q) :
    Leads prog data s Q := by
  have hk : ∀ j : Fin 6, (arg32 j).k &&& 3 = 0 ∧ (arg32 j).k.toNat + 4 ≤ seccompDataSize := by
    decide
  have hload : data.load (arg32 i).k = lo32 (data.args i) := load_offsetArg data i
  exact leads_ldAbs hi rfl (hk i).1 (hk i).2 hroom hs (by rw [hload]; exact h)

theorem leads_retK {r : UInt32} (hi : prog[s.pc]? = some (bpfStmt (bpfRet + bpfK) r))
    (hs : s.result = none) (h : Q { s with result := some r }) : Leads prog data s Q :=
  leads_ret hi rfl hs h

theorem leads_jaK {k : UInt32} (hi : prog[s.pc]? = some (bpfStmt (bpfJmp + bpfJa) k))
    (hroom : Room prog s.pc (1 + k.toNat)) (hs : s.result = none)
    (h : Leads prog data { s with pc := s.pc + 1 + k.toNat } Q) : Leads prog data s Q :=
  leads_ja hi rfl hroom hs h

theorem leads_jeq32 {v : UInt32} (hi : prog[s.pc]? = some (bpfJump (bpfJmp + bpfJeq + bpfK) v 0 1))
    (hroom : Room prog s.pc 2) (hs : s.result = none)
    (hmatch : s.accumulator = v → Leads prog data { s with pc := s.pc + 1 } Q)
    (hmiss : s.accumulator ≠ v → Leads prog data { s with pc := s.pc + 2 } Q) :
    Leads prog data s Q := by
  by_cases h : s.accumulator = v
  · exact leads_jmpK (c := true) hi (.inl ⟨rfl, by simp [bpfJump_eq, h]⟩)
      (hroom.mono (by simp [bpfJump_eq])) hs (hmatch h)
  · exact leads_jmpK (c := false) hi (.inl ⟨rfl, by simp [bpfJump_eq, h]⟩)
      (hroom.mono (by simp [bpfJump_eq])) hs (hmiss h)

theorem leads_jne32 {v : UInt32} (hi : prog[s.pc]? = some (bpfJump (bpfJmp + bpfJeq + bpfK) v 1 0))
    (hroom : Room prog s.pc 2) (hs : s.result = none)
    (hmatch : s.accumulator = v → Leads prog data { s with pc := s.pc + 2 } Q)
    (hmiss : s.accumulator ≠ v → Leads prog data { s with pc := s.pc + 1 } Q) :
    Leads prog data s Q := by
  by_cases h : s.accumulator = v
  · exact leads_jmpK (c := true) hi (.inl ⟨rfl, by simp [bpfJump_eq, h]⟩)
      (hroom.mono (by simp [bpfJump_eq])) hs (hmatch h)
  · exact leads_jmpK (c := false) hi (.inl ⟨rfl, by simp [bpfJump_eq, h]⟩)
      (hroom.mono (by simp [bpfJump_eq])) hs (hmiss h)

theorem leads_ja32 {v : UInt32} (hi : prog[s.pc]? = some (bpfJump (bpfJmp + bpfJset + bpfK) v 0 1))
    (hroom : Room prog s.pc 2) (hs : s.result = none)
    (hset : s.accumulator &&& v ≠ 0 → Leads prog data { s with pc := s.pc + 1 } Q)
    (hclear : s.accumulator &&& v = 0 → Leads prog data { s with pc := s.pc + 2 } Q) :
    Leads prog data s Q := by
  by_cases h : s.accumulator &&& v = 0
  · exact leads_jmpK (c := false) hi (.inr (.inr (.inr ⟨rfl, by simp [bpfJump_eq, h]⟩)))
      (hroom.mono (by simp [bpfJump_eq])) hs (hclear h)
  · exact leads_jmpK (c := true) hi (.inr (.inr (.inr ⟨rfl, by simp [bpfJump_eq, h]⟩)))
      (hroom.mono (by simp [bpfJump_eq])) hs (hset h)

end

end SandboxedApi

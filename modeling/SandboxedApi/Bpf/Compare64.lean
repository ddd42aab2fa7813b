import SandboxedApi.Bpf.Steps

namespace SandboxedApi

section

variable {v x : UInt64}

theorem toNat_lo32 (v : UInt64) : (lo32 v).toNat = v.toNat % 2 ^ 32 := by
  simp [lo32]

theorem toNat_hi32 (v : UInt64) : (hi32 v).toNat = v.toNat / 2 ^ 32 := by
  have hv := v.toNat_lt
  simp only [hi32, UInt64.toNat_toUInt32, UInt64.toNat_shiftRight, Nat.shiftRight_eq_div_pow]
  simp
  omega

theorem eq_iff_halves : v = x ↔ hi32 v = hi32 x ∧ lo32 v = lo32 x := by
  constructor
  · rintro rfl
    exact ⟨rfl, rfl⟩
  · rintro ⟨hh, hl⟩
    have h1 := congrArg UInt32.toNat hh
    have h2 := congrArg UInt32.toNat hl
    rw [toNat_hi32, toNat_hi32] at h1
    rw [toNat_lo32, toNat_lo32] at h2
    apply UInt64.toNat_inj.mp
    omega

theorem le_iff_halves : x ≤ v ↔ hi32 x < hi32 v ∨ (hi32 v = hi32 x ∧ lo32 x ≤ lo32 v) := by
  rw [UInt64.le_iff_toNat_le, UInt32.lt_iff_toNat_lt, UInt32.le_iff_toNat_le, ← UInt32.toNat_inj,
    toNat_hi32, toNat_hi32, toNat_lo32, toNat_lo32]
  omega

theorem lt_iff_halves : x < v ↔ hi32 x < hi32 v ∨ (hi32 v = hi32 x ∧ lo32 x < lo32 v) := by
  rw [UInt64.lt_iff_toNat_lt, UInt32.lt_iff_toNat_lt, UInt32.lt_iff_toNat_lt, ← UInt32.toNat_inj,
    toNat_hi32, toNat_hi32, toNat_lo32, toNat_lo32]
  omega

theorem and_eq_zero_iff_halves : v &&& x = 0 ↔ hi32 v &&& hi32 x = 0 ∧ lo32 v &&& lo32 x = 0 := by
  have h := eq_iff_halves (v := v &&& x) (x := 0)
  simp only [hi32, lo32, UInt64.shiftRight_and, UInt64.toUInt32_and] at h
  simpa [hi32, lo32] using h

end

def Avoids (prog : List SockFilter) (data : SeccompData) (s : Interpreter) (p : Nat) : Prop :=
  ∀ t, Reaches prog data s t → t.pc ≠ p

def ReachesAvoiding (prog : List SockFilter) (data : SeccompData) (s t : Interpreter) (p : Nat) :
    Prop :=
  Reaches prog data s t ∧ (Avoids prog data t p → Avoids prog data s p)

section

variable {prog : List SockFilter} {data : SeccompData} {s s' t : Interpreter} {p : Nat}

theorem Reaches.pc_le (h : Reaches prog data s t) : s.pc ≤ t.pc := by
  induction h with
  | refl => exact Nat.le_refl _
  | tail _ hst ih =>
    obtain ⟨-, ⟨hsame, -⟩ | ⟨hlt, -⟩⟩ := evaluateSingleInstruction_progress hst.2
    · omega
    · omega

theorem avoids_of_lt (h : p < s.pc) : Avoids prog data s p := fun t ht heq => by
  have := ht.pc_le
  omega

theorem ReachesAvoiding.refl : ReachesAvoiding prog data s s p :=
  ⟨Relation.ReflTransGen.refl, id⟩

theorem ReachesAvoiding.of_step (hs : s.result = none)
    (h : evaluateSingleInstruction prog data s = .ok s') (hne : s.pc ≠ p)
    (hr : ReachesAvoiding prog data s' t p) : ReachesAvoiding prog data s t p := by
  have hst : Machine.Step (evaluateSingleInstruction prog data) Interpreter.result s s' := ⟨hs, h⟩
  refine ⟨Relation.ReflTransGen.head hst hr.1, fun hat u hu => ?_⟩
  rcases Machine.Reaches.cases_step hst hu with rfl | hu'
  · exact hne
  · exact hr.2 hat u hu'

theorem ReachesAvoiding.avoids (h : ReachesAvoiding prog data s t p) (hp : p < t.pc) :
    Avoids prog data s p :=
  h.2 (avoids_of_lt hp)

end

def cmpStep (lo hi : UInt32) (inst : SockFilter) (a : UInt32) : Option (Nat × UInt32) :=
  let jump (c : Bool) := some (1 + (if c then inst.jt else inst.jf).toNat, a)
  match inst.code.toNat with
  | 0x15 => jump (a == inst.k)
  | 0x25 => jump (decide (a > inst.k))
  | 0x35 => jump (decide (a ≥ inst.k))
  | 0x45 => jump ((a &&& inst.k) != 0)
  | 0x60 => if inst.k = 0 then some (1, lo) else if inst.k = 1 then some (1, hi) else none
  | _ => none

def runCmpBlock (lo hi : UInt32) (block : List SockFilter) (stop : Nat) :
    Nat → Nat → UInt32 → Option (Nat × UInt32)
  | 0, _, _ => none
  | fuel + 1, i, a =>
    if i = stop ∨ block.length ≤ i then some (i, a)
    else
      match block[i]? with
      | none => none
      | some inst =>
        match cmpStep lo hi inst a with
        | none => none
        | some (d, a') => runCmpBlock lo hi block stop fuel (i + d) a'

section

variable {lo hi : UInt32} {block : List SockFilter} {stop : Nat}

theorem runCmpBlock_zero (i : Nat) (a : UInt32) : runCmpBlock lo hi block stop 0 i a = none := rfl

theorem runCmpBlock_succ (fuel i : Nat) (a : UInt32) :
    runCmpBlock lo hi block stop (fuel + 1) i a =
      if i = stop ∨ block.length ≤ i then some (i, a)
      else
        match block[i]? with
        | none => none
        | some inst =>
          match cmpStep lo hi inst a with
          | none => none
          | some (d, a') => runCmpBlock lo hi block stop fuel (i + d) a' := rfl

end

section

variable {lo hi a : UInt32} {k : UInt32} {jt jf : UInt8}

@[simp] theorem cmpStep_jeqK :
    cmpStep lo hi (bpfJump (bpfJmp + bpfJeq + bpfK) k jt jf) a =
      some (1 + (if a == k then jt else jf).toNat, a) := rfl

@[simp] theorem cmpStep_jgtK :
    cmpStep lo hi (bpfJump (bpfJmp + bpfJgt + bpfK) k jt jf) a =
      some (1 + (if decide (a > k) then jt else jf).toNat, a) := rfl

@[simp] theorem cmpStep_jgeK :
    cmpStep lo hi (bpfJump (bpfJmp + bpfJge + bpfK) k jt jf) a =
      some (1 + (if decide (a ≥ k) then jt else jf).toNat, a) := rfl

@[simp] theorem cmpStep_jsetK :
    cmpStep lo hi (bpfJump (bpfJmp + bpfJset + bpfK) k jt jf) a =
      some (1 + (if (a &&& k) != 0 then jt else jf).toNat, a) := rfl

@[simp] theorem cmpStep_ldMem0 : cmpStep lo hi (bpfStmt (bpfLd + bpfMem) 0) a = some (1, lo) :=
  rfl

@[simp] theorem cmpStep_ldMem1 : cmpStep lo hi (bpfStmt (bpfLd + bpfMem) 1) a = some (1, hi) :=
  rfl

end

section

variable {prog : List SockFilter} {data : SeccompData} {s : Interpreter} {lo hi : UInt32}

theorem evaluateSingleInstruction_of_cmpStep {inst : SockFilter} {d : Nat} {a : UInt32}
    (hinst : prog[s.pc]? = some inst) (hstep : cmpStep lo hi inst s.accumulator = some (d, a))
    (hm0 : s.mem 0 = some lo) (hm1 : s.mem 1 = some hi) (hroom : Room prog s.pc d) :
    evaluateSingleInstruction prog data s = .ok { s with pc := s.pc + d, accumulator := a } := by
  unfold cmpStep at hstep
  split at hstep
  case h_1 hcode | h_2 hcode | h_3 hcode | h_4 hcode =>
    simp only [Option.some.injEq, Prod.mk.injEq] at hstep
    obtain ⟨rfl, rfl⟩ := hstep
    have hc := congrArg UInt16.ofNat hcode
    simp only [UInt16.ofNat_toNat] at hc
    rw [← Nat.add_assoc]
    exact evaluateSingleInstruction_jmpK hinst (by simp [hc]) hroom
  case h_5 hcode =>
    have hc := congrArg UInt16.ofNat hcode
    simp only [UInt16.ofNat_toNat] at hc
    split_ifs at hstep with h0 h1
    · -- `BPF_LD | BPF_MEM` from `M[0]`
      simp only [Option.some.injEq, Prod.mk.injEq] at hstep
      obtain ⟨rfl, rfl⟩ := hstep
      exact evaluateSingleInstruction_ldMemAt hinst hc (by simp [h0]) hm0 hroom
    · -- from `M[1]`
      simp only [Option.some.injEq, Prod.mk.injEq] at hstep
      obtain ⟨rfl, rfl⟩ := hstep
      exact evaluateSingleInstruction_ldMemAt hinst hc (by simp [h1]) hm1 hroom
  case h_6 => cases hstep

theorem le_of_runCmpBlock {block : List SockFilter} {stop : Nat} :
    ∀ {fuel i j : Nat} {a a' : UInt32}, runCmpBlock lo hi block stop fuel i a = some (j, a') → i ≤ j
  | 0, _, _, _, _, h => by simp [runCmpBlock_zero] at h
  | fuel + 1, i, j, a, a', h => by
    rw [runCmpBlock_succ] at h
    split_ifs at h with hend
    · simp only [Option.some.injEq, Prod.mk.injEq] at h
      omega
    · split at h
      · cases h
      · split at h
        · cases h
        · exact Nat.le_trans (Nat.le_add_right i _) (le_of_runCmpBlock h)

theorem runCmpBlock_sound {block : List SockFilter} {stop o j : Nat} {a : UInt32}
    (hc : CodeAt prog o block) (hroom : Room prog o block.length) (hj : j ≤ block.length) :
    ∀ (fuel i : Nat) (s : Interpreter), s.mem 0 = some lo → s.mem 1 = some hi →
      s.result = none → s.pc = o + i → runCmpBlock lo hi block stop fuel i s.accumulator = some (j, a) →
      ReachesAvoiding prog data s { s with pc := o + j, accumulator := a } (o + stop)
  | 0, _, _, _, _, _, _, h => by simp [runCmpBlock_zero] at h
  | fuel + 1, i, s, hm0, hm1, hs, hpc, h => by
    rw [runCmpBlock_succ] at h
    split_ifs at h with hend
    · -- stopped: the state is the one the run is in
      simp only [Option.some.injEq, Prod.mk.injEq] at h
      obtain ⟨rfl, rfl⟩ := h
      rw [← hpc]
      exact ReachesAvoiding.refl
    · have hlt : i < block.length := by omega
      rw [List.getElem?_eq_getElem hlt] at h
      simp only at h
      rcases hb : cmpStep lo hi block[i] s.accumulator with _ | ⟨d, a'⟩
      · simp [hb] at h
      · simp only [hb] at h
        have hle := le_of_runCmpBlock h
        have hinst : prog[s.pc]? = some block[i] := hpc ▸ hc.getElem? hlt
        have hroom' : Room prog s.pc d := by
          rw [hpc]
          exact hroom.shift (by omega)
        have hstep : evaluateSingleInstruction prog data s = _ :=
          evaluateSingleInstruction_of_cmpStep hinst hb hm0 hm1 hroom'
        refine ReachesAvoiding.of_step hs hstep (by omega) ?_
        exact runCmpBlock_sound hc hroom hj fuel (i + d) _ hm0 hm1 hs (by simp only; omega) h

end

section

variable (vlo vhi lo hi : UInt32) (jt : SockFilter)

theorem runCmpBlock_jeq64 :
    runCmpBlock vlo vhi (jeq64 lo hi jt) 4 7 0 vhi =
      some (if vhi = hi ∧ vlo = lo then 4 else 6, vhi) := by
  by_cases h1 : vhi = hi
  · by_cases h2 : vlo = lo <;> simp [runCmpBlock_succ, jeq64, h1, h2]
  · simp [runCmpBlock_succ, jeq64, h1]

theorem runCmpBlock_jne64 :
    runCmpBlock vlo vhi (jne64 lo hi jt) 4 7 0 vhi =
      some (if ¬(vhi = hi ∧ vlo = lo) then 4 else 6, vhi) := by
  by_cases h1 : vhi = hi
  · by_cases h2 : vlo = lo <;> simp [runCmpBlock_succ, jne64, h1, h2]
  · simp [runCmpBlock_succ, jne64, h1]

theorem runCmpBlock_ja64 :
    runCmpBlock vlo vhi (ja64 lo hi jt) 4 7 0 vhi =
      some (if ¬(vhi &&& hi = 0 ∧ vlo &&& lo = 0) then 4 else 6, vhi) := by
  by_cases h1 : vhi &&& hi = 0
  · by_cases h2 : vlo &&& lo = 0 <;> simp [runCmpBlock_succ, ja64, h1, h2]
  · simp [runCmpBlock_succ, ja64, h1]

theorem runCmpBlock_jge64 :
    runCmpBlock vlo vhi (jge64 lo hi jt) 5 8 0 vhi =
      some (if hi < vhi ∨ (vhi = hi ∧ lo ≤ vlo) then 5 else 7, vhi) := by
  by_cases h1 : hi < vhi
  · simp [runCmpBlock_succ, jge64, h1]
  · by_cases h2 : vhi = hi
    · by_cases h3 : lo ≤ vlo <;> simp [runCmpBlock_succ, jge64, h2, h3]
    · simp [runCmpBlock_succ, jge64, h1, h2]

theorem runCmpBlock_jgt64 :
    runCmpBlock vlo vhi (jgt64 lo hi jt) 5 8 0 vhi =
      some (if hi < vhi ∨ (vhi = hi ∧ lo < vlo) then 5 else 7, vhi) := by
  by_cases h1 : hi < vhi
  · simp [runCmpBlock_succ, jgt64, h1]
  · by_cases h2 : vhi = hi
    · by_cases h3 : lo < vlo <;> simp [runCmpBlock_succ, jgt64, h2, h3]
    · simp [runCmpBlock_succ, jgt64, h1, h2]

theorem runCmpBlock_jle64 :
    runCmpBlock vlo vhi (jle64 lo hi jt) 5 8 0 vhi =
      some (if vhi < hi ∨ (hi = vhi ∧ vlo ≤ lo) then 5 else 7, vhi) := by
  by_cases h1 : vhi < hi
  · simp [runCmpBlock_succ, jle64, h1, UInt32.not_le.mpr h1]
  · by_cases h2 : hi = vhi
    · by_cases h3 : vlo ≤ lo
      · simp [runCmpBlock_succ, jle64, h2, h3, UInt32.not_lt.mpr h3]
      · simp [runCmpBlock_succ, jle64, h2, h3, UInt32.not_le.mp h3]
    · simp [runCmpBlock_succ, jle64, h1, h2, Ne.symm h2, UInt32.not_lt.mp h1]

theorem runCmpBlock_jlt64 :
    runCmpBlock vlo vhi (jlt64 lo hi jt) 5 8 0 vhi =
      some (if vhi < hi ∨ (hi = vhi ∧ vlo < lo) then 5 else 7, vhi) := by
  by_cases h1 : vhi < hi
  · simp [runCmpBlock_succ, jlt64, h1, UInt32.not_le.mpr h1]
  · by_cases h2 : hi = vhi
    · by_cases h3 : vlo < lo
      · simp [runCmpBlock_succ, jlt64, h2, h3, UInt32.not_le.mpr h3]
      · simp [runCmpBlock_succ, jlt64, h2, h3, UInt32.not_lt.mp h3]
    · simp [runCmpBlock_succ, jlt64, h1, h2, Ne.symm h2, UInt32.not_lt.mp h1]

end

def Interpreter.loadArg64 (s : Interpreter) (v : UInt64) : Interpreter :=
  { s with
    accumulator := hi32 v
    mem := Function.update (Function.update s.mem 0 (some (lo32 v))) 1 (some (hi32 v)) }

section

variable (s : Interpreter) (v : UInt64)

@[simp] theorem Interpreter.loadArg64_pc : (s.loadArg64 v).pc = s.pc := rfl
@[simp] theorem Interpreter.loadArg64_result : (s.loadArg64 v).result = s.result := rfl
@[simp] theorem Interpreter.loadArg64_accumulator : (s.loadArg64 v).accumulator = hi32 v := rfl
@[simp] theorem Interpreter.loadArg64_mem0 : (s.loadArg64 v).mem 0 = some (lo32 v) := rfl
@[simp] theorem Interpreter.loadArg64_mem1 : (s.loadArg64 v).mem 1 = some (hi32 v) := rfl

end

inductive Cmp64
  | jeq | jne | ja | jge | jgt | jle | jlt
  deriving DecidableEq, Repr

def Cmp64.block : Cmp64 → UInt32 → UInt32 → SockFilter → List SockFilter
  | .jeq => jeq64
  | .jne => jne64
  | .ja => ja64
  | .jge => jge64
  | .jgt => jgt64
  | .jle => jle64
  | .jlt => jlt64

def Cmp64.jtIndex : Cmp64 → Nat
  | .jeq | .jne | .ja => 4
  | .jge | .jgt | .jle | .jlt => 5

def Cmp64.Holds : Cmp64 → UInt64 → UInt64 → Prop
  | .jeq, v, x => v = x
  | .jne, v, x => v ≠ x
  | .ja, v, x => v &&& x ≠ 0
  | .jge, v, x => v ≥ x
  | .jgt, v, x => v > x
  | .jle, v, x => v ≤ x
  | .jlt, v, x => v < x

instance : (op : Cmp64) → (v x : UInt64) → Decidable (op.Holds v x)
  | .jeq, v, x => inferInstanceAs (Decidable (v = x))
  | .jne, v, x => inferInstanceAs (Decidable (v ≠ x))
  | .ja, v, x => inferInstanceAs (Decidable (v &&& x ≠ 0))
  | .jge, v, x => inferInstanceAs (Decidable (v ≥ x))
  | .jgt, v, x => inferInstanceAs (Decidable (v > x))
  | .jle, v, x => inferInstanceAs (Decidable (v ≤ x))
  | .jlt, v, x => inferInstanceAs (Decidable (v < x))

theorem Cmp64.length_block (op : Cmp64) (lo hi : UInt32) (jt : SockFilter) :
    (op.block lo hi jt).length = op.jtIndex + 2 := by
  cases op <;> rfl

theorem Cmp64.getElem?_block_jtIndex (op : Cmp64) (lo hi : UInt32) (jt : SockFilter) :
    (op.block lo hi jt)[op.jtIndex]? = some jt := by
  cases op <;> rfl

theorem runCmpBlock_cmp64 (op : Cmp64) (x v : UInt64) (jt : SockFilter) :
    runCmpBlock (lo32 v) (hi32 v) (op.block (lo32 x) (hi32 x) jt) op.jtIndex (op.jtIndex + 3) 0
        (hi32 v) =
      some (if op.Holds v x then op.jtIndex else op.jtIndex + 2, hi32 v) := by
  cases op with
  | jeq =>
    simp only [Cmp64.block, Cmp64.jtIndex, Cmp64.Holds, eq_iff_halves]
    exact runCmpBlock_jeq64 _ _ _ _ jt
  | jne =>
    simp only [Cmp64.block, Cmp64.jtIndex, Cmp64.Holds, ne_eq, eq_iff_halves]
    exact runCmpBlock_jne64 _ _ _ _ jt
  | ja =>
    simp only [Cmp64.block, Cmp64.jtIndex, Cmp64.Holds, ne_eq, and_eq_zero_iff_halves]
    exact runCmpBlock_ja64 _ _ _ _ jt
  | jge =>
    simp only [Cmp64.block, Cmp64.jtIndex, Cmp64.Holds, ge_iff_le, le_iff_halves]
    exact runCmpBlock_jge64 _ _ _ _ jt
  | jgt =>
    simp only [Cmp64.block, Cmp64.jtIndex, Cmp64.Holds, gt_iff_lt, lt_iff_halves]
    exact runCmpBlock_jgt64 _ _ _ _ jt
  | jle =>
    simp only [Cmp64.block, Cmp64.jtIndex, Cmp64.Holds, le_iff_halves]
    exact runCmpBlock_jle64 _ _ _ _ jt
  | jlt =>
    simp only [Cmp64.block, Cmp64.jtIndex, Cmp64.Holds, lt_iff_halves]
    exact runCmpBlock_jlt64 _ _ _ _ jt

/-- The 64-bit comparison macros, placed anywhere in a program with an instruction after them
and entered as `ARG_64` leaves the argument `v` (low half in `M[0]`, high half in `M[1]` and in
the accumulator): when `v` and the constant `x` compare as the macro tests, the run gets to `jt`
with every register as it was; otherwise it never stands at `jt` and gets to the instruction
after the block, again with every register as it was. -/
theorem cmp64_block_correct (op : Cmp64) (x v : UInt64) (jt : SockFilter)
    (prog : List SockFilter) (data : SeccompData) (s : Interpreter)
    (hc : CodeAt prog s.pc (op.block (lo32 x) (hi32 x) jt))
    (hroom : Room prog s.pc (op.block (lo32 x) (hi32 x) jt).length) (hs : s.result = none)
    (hm0 : s.mem 0 = some (lo32 v)) (hm1 : s.mem 1 = some (hi32 v))
    (ha : s.accumulator = hi32 v) :
    (op.Holds v x → Reaches prog data s { s with pc := s.pc + op.jtIndex }) ∧
      (¬op.Holds v x →
        Reaches prog data s { s with pc := s.pc + (op.block (lo32 x) (hi32 x) jt).length } ∧
          ∀ t, Reaches prog data s t → t.pc ≠ s.pc + op.jtIndex) := by
  have hlen := op.length_block (lo32 x) (hi32 x) jt
  have hrun : runCmpBlock (lo32 v) (hi32 v) (op.block (lo32 x) (hi32 x) jt) op.jtIndex
      (op.jtIndex + 3) 0 s.accumulator =
        some (if op.Holds v x then op.jtIndex else op.jtIndex + 2, s.accumulator) := by
    rw [ha]
    exact runCmpBlock_cmp64 op x v jt
  have hsound : ReachesAvoiding prog data s _ _ := runCmpBlock_sound hc hroom
    (j := if op.Holds v x then op.jtIndex else op.jtIndex + 2) (by split_ifs <;> omega)
    (op.jtIndex + 3) 0 s hm0 hm1 hs (Nat.add_zero s.pc).symm hrun
  refine ⟨fun hop => ?_, fun hop => ?_⟩
  · rw [if_pos hop] at hsound
    exact hsound.1
  · -- past the block, and `jt` never stood at on the way
    rw [if_neg hop] at hsound
    rw [hlen]
    exact ⟨hsound.1, hsound.avoids (by simp only; omega)⟩

/-- `JGE64` of the constant `5` on the argument `7`, at the start of a program with `DENY` after
it: `7 ≥ 5`, so the run gets to the `ALLOW` inside. -/
theorem cmp64_block_correct_jge_seven :
    (CodeAt (jge64 (lo32 5) (hi32 5) allow ++ [deny]) (Interpreter.init.loadArg64 7).pc
        (Cmp64.jge.block (lo32 5) (hi32 5) allow) ∧
      Room (jge64 (lo32 5) (hi32 5) allow ++ [deny]) (Interpreter.init.loadArg64 7).pc
        (Cmp64.jge.block (lo32 5) (hi32 5) allow).length ∧
      (Interpreter.init.loadArg64 7).result = none ∧
      (Interpreter.init.loadArg64 7).mem 0 = some (lo32 7) ∧
      (Interpreter.init.loadArg64 7).mem 1 = some (hi32 7) ∧
      (Interpreter.init.loadArg64 7).accumulator = hi32 7) ∧
    ((Cmp64.jge.Holds 7 5 →
        Reaches (jge64 (lo32 5) (hi32 5) allow ++ [deny]) ⟨0, 0, 0, fun _ => 0⟩
          (Interpreter.init.loadArg64 7)
          { Interpreter.init.loadArg64 7 with
            pc := (Interpreter.init.loadArg64 7).pc + Cmp64.jge.jtIndex }) ∧
      (¬Cmp64.jge.Holds 7 5 →
        Reaches (jge64 (lo32 5) (hi32 5) allow ++ [deny]) ⟨0, 0, 0, fun _ => 0⟩
            (Interpreter.init.loadArg64 7)
            { Interpreter.init.loadArg64 7 with
              pc := (Interpreter.init.loadArg64 7).pc +
                (Cmp64.jge.block (lo32 5) (hi32 5) allow).length } ∧
          ∀ t, Reaches (jge64 (lo32 5) (hi32 5) allow ++ [deny]) ⟨0, 0, 0, fun _ => 0⟩
            (Interpreter.init.loadArg64 7) t →
            t.pc ≠ (Interpreter.init.loadArg64 7).pc + Cmp64.jge.jtIndex)) :=
  ⟨⟨⟨[deny], rfl⟩, ⟨by decide, by decide⟩, rfl, rfl, rfl, rfl⟩,
    cmp64_block_correct .jge 5 7 allow _ _ _ ⟨[deny], rfl⟩ ⟨by decide, by decide⟩ rfl rfl rfl rfl⟩

end SandboxedApi

import SandboxedApi.Bpf.Filter

namespace SandboxedApi

def jumpTargets (f : SockFilter) (j : Nat) : List Nat :=
  if bpfClass f.code = bpfJmp then
    if bpfOp f.code = bpfJa then [j + 1 + f.k.toNat]
    else [j + 1 + f.jt.toNat, j + 1 + f.jf.toNat]
  else []

theorem jumpTargets_eq (f : SockFilter) (j : Nat) :
    jumpTargets f j =
      if bpfClass f.code = bpfJmp then
        if bpfOp f.code = bpfJa then [j + 1 + f.k.toNat]
        else [j + 1 + f.jt.toNat, j + 1 + f.jf.toNat]
      else [] := rfl

def JumpsWithin (block : List SockFilter) : Prop :=
  ∀ j (hj : j < block.length), ∀ t ∈ jumpTargets block[j] j, t ≤ block.length

theorem jumpTargets_of_class {f : SockFilter} (h : bpfClass f.code ≠ bpfJmp) (j : Nat) :
    jumpTargets f j = [] := by
  simp [jumpTargets_eq, h]

theorem jumpTargets_succ (f : SockFilter) (j : Nat) :
    jumpTargets f (j + 1) = (jumpTargets f j).map (· + 1) := by
  rw [jumpTargets_eq, jumpTargets_eq]
  split_ifs <;> simp <;> omega

theorem JumpsWithin.cons {x : SockFilter} {block : List SockFilter} (h : JumpsWithin block)
    (hx : ∀ t ∈ jumpTargets x 0, t ≤ block.length + 1) : JumpsWithin (x :: block) := by
  intro j hj t ht
  cases j with
  | zero => simpa using hx t ht
  | succ j =>
    simp only [List.getElem_cons_succ, jumpTargets_succ, List.mem_map] at ht
    obtain ⟨t', ht', rfl⟩ := ht
    have := h j (by simpa using hj) t' ht'
    simp
    omega

theorem bpfClass_eq_jmp {c : UInt16} {n : Nat} (h : c.toNat = n) (hn : n % 8 = 5) :
    bpfClass c = bpfJmp := by
  apply UInt16.toNat_inj.mp
  have h7 : (7 : UInt16).toNat = 2 ^ 3 - 1 := rfl
  simp only [bpfClass, bpfJmp, UInt16.toNat_and, h7, Nat.and_two_pow_sub_one_eq_mod, h]
  simpa using hn

theorem mem_jumpTargets_ja {f : SockFilter} (h : f.code.toNat = 0x05) (j : Nat) :
    j + 1 + f.k.toNat ∈ jumpTargets f j := by
  have hc : f.code = 0x05 := UInt16.toNat_inj.mp h
  simp [jumpTargets_eq, hc, show bpfClass 0x05 = bpfJmp by decide, show bpfOp 0x05 = bpfJa by decide]

theorem mem_jumpTargets_cond {f : SockFilter} {n : Nat} (h : f.code.toNat = n) (hn : n % 8 = 5)
    (hop : bpfOp f.code ≠ bpfJa) (j : Nat) :
    j + 1 + f.jt.toUInt32.toNat ∈ jumpTargets f j ∧ j + 1 + f.jf.toUInt32.toNat ∈ jumpTargets f j := by
  simp [jumpTargets_eq, bpfClass_eq_jmp h hn, hop]

theorem jumpTargets_jeq (nr : UInt32) (jt jf : UInt8) :
    jumpTargets (bpfJump (bpfJmp + bpfJeq + bpfK) nr jt jf) 0 = [1 + jt.toNat, 1 + jf.toNat] := by
  have hclass : bpfClass (bpfJmp + bpfJeq + bpfK) = bpfJmp := by decide
  have hop : bpfOp (bpfJmp + bpfJeq + bpfK) ≠ bpfJa := by decide
  simp [jumpTargets_eq, bpfJump_eq, hclass, hop]

theorem jumpTargets_ja (k : UInt32) :
    jumpTargets (bpfStmt (bpfJmp + bpfJa) k) 0 = [1 + k.toNat] := by
  have hclass : bpfClass (bpfJmp + bpfJa) = bpfJmp := by decide
  have hop : bpfOp (bpfJmp + bpfJa) = bpfJa := by decide
  simp [jumpTargets_eq, bpfStmt_eq, hclass, hop]

end SandboxedApi

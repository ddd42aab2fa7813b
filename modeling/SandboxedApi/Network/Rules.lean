import Mathlib.Data.Nat.Bits
import SandboxedApi.Lib.Bits
import SandboxedApi.Network.Filtering

namespace SandboxedApi

theorem toNat_maskStep32 (tmp : UInt32) :
    ((tmp >>> 1) ||| 0x80000000).toNat = tmp.toNat / 2 + 2 ^ 31 := by
  have hlt : tmp.toNat / 2 < 2 ^ 31 := by have := tmp.toNat_lt; omega
  rw [UInt32.toNat_or, UInt32.toNat_shiftRight]
  simp only [UInt32.reduceToNat, Nat.reduceMod, Nat.shiftRight_one]
  rw [show (2147483648 : Nat) = 2 ^ 31 * 1 from rfl, Nat.or_comm, ← Nat.two_pow_add_eq_or_of_lt hlt 1]
  omega

theorem highBits32_succ (k : Nat) (tmp : UInt32) :
    highBits32 (k + 1) tmp = (highBits32 k tmp >>> 1) ||| 0x80000000 := by
  induction k generalizing tmp with
  | zero => rfl
  | succ k ih => exact ih _

theorem toNat_highBits32 {k : Nat} (hk : k ≤ 32) :
    (highBits32 k 0).toNat = (2 ^ k - 1) * 2 ^ (32 - k) := by
  induction k with
  | zero => rfl
  | succ k ih =>
    rw [highBits32_succ, toNat_maskStep32, ih (by omega)]
    have hsplit : 2 ^ (32 - k) = 2 * 2 ^ (32 - (k + 1)) := by
      rw [← Nat.pow_succ']
      congr 1
      omega
    have htop : 2 ^ 31 = 2 ^ k * 2 ^ (32 - (k + 1)) := by
      rw [← Nat.pow_add]
      congr 1
      omega
    have hhalf : (2 ^ k - 1) * (2 * 2 ^ (32 - (k + 1))) / 2 =
        2 ^ k * 2 ^ (32 - (k + 1)) - 2 ^ (32 - (k + 1)) := by
      rw [Nat.mul_left_comm, Nat.mul_div_cancel_left _ (by decide), Nat.sub_one_mul]
    have hnext : (2 ^ (k + 1) - 1) * 2 ^ (32 - (k + 1)) =
        2 * (2 ^ k * 2 ^ (32 - (k + 1))) - 2 ^ (32 - (k + 1)) := by
      rw [Nat.sub_one_mul, Nat.pow_succ, Nat.mul_comm (2 ^ k) 2, Nat.mul_assoc]
    have hle : 2 ^ (32 - (k + 1)) ≤ 2 ^ k * 2 ^ (32 - (k + 1)) :=
      Nat.le_mul_of_pos_left _ Nat.one_le_two_pow
    rw [hsplit, htop, hhalf, hnext]
    omega

theorem and_highBits32_eq_iff {c : Nat} (hc : c ≤ 32) (x y : UInt32) :
    x &&& highBits32 c 0 = y &&& highBits32 c 0 ↔ x.toNat / 2 ^ (32 - c) = y.toNat / 2 ^ (32 - c) := by
  have hmask : (highBits32 c 0).toNat = (2 ^ (32 - (32 - c)) - 1) * 2 ^ (32 - c) := by
    rw [toNat_highBits32 hc, Nat.sub_sub_self hc]
  rw [← UInt32.toNat_inj, UInt32.toNat_and, UInt32.toNat_and, hmask]
  exact Bits.and_high_mask_eq_iff x.toNat_lt y.toNat_lt (Nat.sub_le 32 c)

theorem isIPv4MaskCorrect_iff (m : UInt32) :
    isIPv4MaskCorrect m = true ↔ ∃ c, 1 ≤ c ∧ c ≤ 32 ∧ m = highBits32 c 0 := by
  unfold isIPv4MaskCorrect
  by_cases hm : m = 0
  · simp only [hm, if_true, Bool.false_eq_true, false_iff, not_exists, not_and]
    intro c hc1 hc32 h0
    have := toNat_highBits32 hc32
    rw [← h0, UInt32.toNat_zero] at this
    have hpos : 1 ≤ 2 ^ c - 1 := by have := Nat.one_lt_two_pow (n := c) (by omega); omega
    have := Nat.mul_le_mul hpos (Nat.one_le_two_pow (n := 32 - c))
    omega
  · have hmpos : 0 < m.toNat := by
      rcases Nat.eq_zero_or_pos m.toNat with h | h
      · exact absurd (UInt32.toNat_inj.mp (h.trans UInt32.toNat_zero.symm)) hm
      · exact h
    have hneg : (~~~m + 1).toNat = 2 ^ 32 - m.toNat := by
      rw [UInt32.toNat_add, UInt32.toNat_not]
      simp only [UInt32.size, UInt32.reduceToNat]
      have := m.toNat_lt
      omega
    have hne : (~~~m + 1).toNat ≠ 0 := by have := m.toNat_lt; omega
    have hsub : (~~~m + 1 - 1).toNat = (~~~m + 1).toNat - 1 := by
      rw [UInt32.toNat_sub_of_le]
      · rfl
      · rw [UInt32.le_iff_toNat_le]
        simp only [UInt32.reduceToNat]
        omega
    simp only [hm, if_false, decide_eq_true_eq]
    rw [← UInt32.toNat_inj, UInt32.toNat_and, hsub, UInt32.toNat_zero,
      Nat.and_sub_one_eq_zero_iff_isPowerOfTwo hne, hneg]
    constructor
    · rintro ⟨k, hk⟩
      have hk32 : k < 32 := by
        rcases Nat.lt_or_ge k 32 with hlt | hge
        · exact hlt
        · have := Nat.pow_le_pow_right (by decide : 0 < 2) hge
          omega
      refine ⟨32 - k, by omega, by omega, ?_⟩
      rw [← UInt32.toNat_inj, toNat_highBits32 (by omega), Nat.sub_sub_self (by omega), Nat.sub_one_mul,
        ← Nat.pow_add, Nat.sub_add_cancel (by omega)]
      omega
    · rintro ⟨c, hc1, hc32, rfl⟩
      refine ⟨32 - c, ?_⟩
      have hfull : (2 : Nat) ^ 32 = 2 ^ c * 2 ^ (32 - c) := by
        rw [← Nat.pow_add, Nat.add_sub_cancel' hc32]
      have hle : 2 ^ (32 - c) ≤ 2 ^ c * 2 ^ (32 - c) := Nat.le_mul_of_pos_left _ Nat.one_le_two_pow
      rw [toNat_highBits32 hc32, Nat.sub_one_mul, hfull]
      exact Nat.sub_sub_self hle

theorem bind_ok_iff {ε α β : Type} {x : Except ε α} {f : α → Except ε β} {b : β} :
    (x >>= f) = .ok b ↔ ∃ a, x = .ok a ∧ f a = .ok b := by
  cases x <;> simp [bind, Except.bind]

theorem toNat_htons (port : UInt32) : (htons port).toNat = port.toNat % 2 ^ 16 := by
  simp [htons]

theorem ipStringToAddr4_eq_ok {ip : String} {addr : UInt32} :
    ipStringToAddr4 ip = .ok addr ↔ inetPton4 ip = some addr := by
  unfold ipStringToAddr4
  split <;> simp_all

theorem cidrToInAddr_eq_ok {cidr m : UInt32} :
    cidrToInAddr cidr = .ok m ↔ cidr ≤ 32 ∧ m = highBits32 cidr.toNat 0 := by
  unfold cidrToInAddr
  split
  · rename_i hgt
    simp only [reduceCtorEq, false_iff, not_and]
    intro hle
    exact absurd hle (UInt32.not_le.mpr hgt)
  · rename_i hle
    simp only [Except.ok.injEq]
    exact ⟨fun h => ⟨UInt32.not_lt.mp hle, h.symm⟩, fun h => h.2.symm⟩

namespace AllowedEndpoints

variable {e e' : AllowedEndpoints}

theorem allowIPv4Parts_eq_ok {ip mask : String} {cidr port : UInt32} :
    allowIPv4Parts ip mask cidr port e = .ok e' ↔
      ∃ addr m, inetPton4 ip = some addr ∧ allowIPv4Mask mask cidr = .ok m ∧
        e' = { e with allowedIPv4 := e.allowedIPv4 ++ [⟨addr, m, htons port⟩] } := by
  unfold allowIPv4Parts
  simp only [bind_ok_iff, ipStringToAddr4_eq_ok, pure, Except.pure, Except.ok.injEq]
  constructor
  · rintro ⟨m, hm, addr, haddr, rfl⟩
    exact ⟨addr, m, haddr, hm, rfl⟩
  · rintro ⟨addr, m, haddr, hm, rfl⟩
    exact ⟨m, hm, addr, haddr, rfl⟩

theorem allowIPv4_eq_ok {simpleAtoi : String → Option UInt32} {ipAndMask : String}
    {port : UInt32} :
    allowIPv4 simpleAtoi ipAndMask port e = .ok e' ↔
      ∃ ip mask cidr, parseIpAndMask simpleAtoi ipAndMask true = .ok (ip, mask, cidr) ∧
        allowIPv4Parts ip mask cidr port e = .ok e' := by
  unfold allowIPv4
  rw [bind_ok_iff]
  constructor
  · rintro ⟨⟨ip, mask, cidr⟩, hparse, hallow⟩
    exact ⟨ip, mask, cidr, hparse, hallow⟩
  · rintro ⟨ip, mask, cidr, hparse, hallow⟩
    exact ⟨(ip, mask, cidr), hparse, hallow⟩

end AllowedEndpoints

theorem IPv4.allows_iff {entry : IPv4} {addr : UInt32} {port : UInt16} :
    entry.allows addr port = true ↔
      entry.ip &&& entry.mask = addr &&& entry.mask ∧ (entry.port = 0 ∨ entry.port = port.toUInt32) := by
  simp [IPv4.allows]

theorem IPv4.allows_of_port_eq_htons {entry : IPv4} {p : UInt32} (hport : entry.port = htons p)
    {addr : UInt32} {port : UInt16} :
    entry.allows addr port = true ↔
      entry.ip &&& entry.mask = addr &&& entry.mask ∧
        (p.toNat % 2 ^ 16 = 0 ∨ port.toNat = p.toNat % 2 ^ 16) := by
  have hzero : htons p = 0 ↔ p.toNat % 2 ^ 16 = 0 := by
    rw [← UInt32.toNat_inj, toNat_htons, UInt32.toNat_zero]
  have hsame : htons p = port.toUInt32 ↔ port.toNat = p.toNat % 2 ^ 16 := by
    rw [← UInt32.toNat_inj, toNat_htons, UInt16.toNat_toUInt32]
    exact eq_comm
  rw [IPv4.allows_iff, hport, hzero, hsame]

namespace AllowedEndpoints

theorem isIPv4Allowed_iff {e : AllowedEndpoints} {addr : UInt32} {port : UInt16} :
    e.isIPv4Allowed addr port = true ↔ ∃ entry ∈ e.allowedIPv4, entry.allows addr port = true := by
  simp [isIPv4Allowed]

theorem allowIPv4_every_port {simpleAtoi : String → Option UInt32} {ipAndMask : String}
    {port : UInt32} {e e' : AllowedEndpoints} (h : allowIPv4 simpleAtoi ipAndMask port e = .ok e')
    (hport : port.toNat % 2 ^ 16 = 0) :
    ∃ addr m, ∀ a q, a &&& m = addr &&& m → e'.isEndpointAllowed (.inet a q) = true := by
  obtain ⟨ip, mask, cidr, -, hallow⟩ := allowIPv4_eq_ok.mp h
  obtain ⟨addr, m, -, -, rfl⟩ := allowIPv4Parts_eq_ok.mp hallow
  refine ⟨addr, m, fun a q hmatch => ?_⟩
  simp only [isEndpointAllowed]
  refine isIPv4Allowed_iff.mpr ⟨⟨addr, m, htons port⟩, List.mem_append_right _ (List.mem_singleton_self _), ?_⟩
  exact (IPv4.allows_of_port_eq_htons rfl).mpr ⟨hmatch.symm, .inl hport⟩

example (simpleAtoi : String → Option UInt32) :
    ∃ e, allowIPv4 simpleAtoi "120.120.120.120/255.255.255.0" 0 .empty = .ok e ∧
      e.isEndpointAllowed (.inet 0x787878FF 80) = true ∧
      e.isEndpointAllowed (.inet 0x78787978 80) = false :=
  ⟨_, rfl, rfl, rfl⟩

end AllowedEndpoints

/-- The rule `1.2.3.4` for port `65536` is accepted, and lets `1.2.3.4` through on every port:
`htons` cuts `65536` to `0`, the port of "any port". -/
theorem allowIPv4_port_65536_allows_every_port (simpleAtoi : String → Option UInt32) :
    ∃ e, AllowedEndpoints.allowIPv4 simpleAtoi "1.2.3.4" 65536 .empty = .ok e ∧
      e.allowedIPv4 = [⟨0x01020304, 0xFFFFFFFF, 0⟩] ∧
      ∀ q : UInt16, e.isEndpointAllowed (.inet 0x01020304 q) = true := by
  refine ⟨⟨[⟨0x01020304, 0xFFFFFFFF, 0⟩], []⟩, rfl, rfl, fun q => ?_⟩
  simp [AllowedEndpoints.isEndpointAllowed, AllowedEndpoints.isIPv4Allowed, IPv4.allows]

end SandboxedApi

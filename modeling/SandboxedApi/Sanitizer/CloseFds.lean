import Mathlib.Data.List.Sort
import Mathlib.Data.List.Induction
import Mathlib.Algebra.Group.Nat.Defs
import Mathlib.Algebra.Group.Int.Defs

namespace SandboxedApi

structure CloseRangeCall where
  first : UInt32
  last : UInt32
  flags : Int32
  deriving DecidableEq, Repr

def CloseRangeCall.Closes (call : CloseRangeCall) (fd : Nat) : Prop :=
  call.first.toNat ≤ fd ∧ fd ≤ call.last.toNat

def closeGapStep (flags : Int32) : UInt32 × List CloseRangeCall → Int32 → UInt32 × List CloseRangeCall
  | (lastFd, calls), fd =>
    if fd < 0 then (lastFd, calls)
    else
      let calls := if lastFd < fd.toUInt32 then calls ++ [⟨lastFd, (fd - 1).toUInt32, flags⟩]
        else calls
      (fd.toUInt32 + 1, calls)

/-- `CloseAllFDsExceptWithFlags`: the `close_range` calls it makes, in order. -/
def closeAllFDsExceptWithFlags (fdExceptions : List Int32) (flags : Int32) : List CloseRangeCall :=
  if fdExceptions.isEmpty then [⟨0, ~~~0, flags⟩]
  else
    let sortedFdExceptions := fdExceptions.insertionSort (· ≤ ·)
    let (lastFd, calls) := sortedFdExceptions.foldl (closeGapStep flags) (0, [])
    if lastFd ≠ 0 then calls ++ [⟨lastFd, ~~~0, flags⟩] else calls

/-- `CloseAllFDsExcept`, for a span, an initializer list or the elements of a set of
descriptors. -/
def closeAllFDsExcept (fdExceptions : List Int32) : List CloseRangeCall :=
  closeAllFDsExceptWithFlags fdExceptions 0

theorem toNat_toUInt32 {fd : Int32} (h : 0 ≤ fd.toInt) : (fd.toUInt32.toNat : Int) = fd.toInt := by
  have hcond := BitVec.toInt_eq_toNat_cond fd.toBitVec
  have hlt := fd.toBitVec.isLt
  have hint : fd.toInt = fd.toBitVec.toInt := rfl
  rw [← Int32.toNat_toBitVec]
  split_ifs at hcond <;> omega

theorem toNat_toUInt32_add_one {fd : Int32} (h : 0 ≤ fd.toInt) :
    ((fd.toUInt32 + 1).toNat : Int) = fd.toInt + 1 := by
  have h0 := toNat_toUInt32 h
  have hmax := fd.toInt_lt
  rw [UInt32.toNat_add]
  have h1 : (1 : UInt32).toNat = 1 := rfl
  rw [h1]
  omega

theorem toNat_toUInt32_sub_one {fd : Int32} (h : 1 ≤ fd.toInt) :
    ((fd - 1).toUInt32.toNat : Int) = fd.toInt - 1 := by
  have h0 : (fd.toUInt32.toNat : Int) = fd.toInt := toNat_toUInt32 (by omega)
  have h1 : (1 : Int32).toUInt32.toNat = 1 := rfl
  have hle : (1 : Int32).toUInt32 ≤ fd.toUInt32 := by
    rw [UInt32.le_iff_toNat_le, h1]
    omega
  rw [Int32.toUInt32_sub, UInt32.toNat_sub_of_le _ _ hle, h1]
  omega

theorem exists_closes_append {calls : List CloseRangeCall} {call : CloseRangeCall} {n : Nat} :
    (∃ c ∈ calls ++ [call], c.Closes n) ↔ (∃ c ∈ calls, c.Closes n) ∨ call.Closes n := by
  simp [or_and_right, exists_or]

structure GapInvariant (seen : List Int32) (st : UInt32 × List CloseRangeCall) : Prop where
  ranges : ∀ call ∈ st.2, call.first ≤ call.last
  closes : ∀ n : Nat, (∃ call ∈ st.2, call.Closes n) ↔ n < st.1.toNat ∧ ∀ e ∈ seen, e.toInt ≠ n
  above : ∀ e ∈ seen, e.toInt < st.1.toNat
  tight : st.1 = 0 ∨ ∃ e ∈ seen, e.toInt + 1 = st.1.toNat

theorem gapInvariant_nil : GapInvariant [] ((0 : UInt32), []) where
  ranges := by simp
  closes := by simp
  above := by simp
  tight := .inl rfl

section

variable {flags : Int32} {seen : List Int32} {lastFd : UInt32} {calls : List CloseRangeCall}
  {fd : Int32}

theorem GapInvariant.step_neg (hinv : GapInvariant seen (lastFd, calls)) (hneg : fd.toInt < 0) :
    GapInvariant (seen ++ [fd]) (closeGapStep flags (lastFd, calls) fd) := by
  obtain ⟨hranges, hcloses, habove, htight⟩ := hinv
  dsimp only at hranges hcloses habove htight
  have hlt : fd < 0 := Int32.lt_iff_toInt_lt.mpr hneg
  rw [closeGapStep, if_pos hlt]
  refine ⟨hranges, fun n => ?_, fun e he => ?_, ?_⟩
  · rw [hcloses n]
    simp only [List.mem_append, List.mem_singleton]
    constructor
    · rintro ⟨hn, hseen⟩
      refine ⟨hn, fun e he => ?_⟩
      rcases he with he | he
      · exact hseen e he
      · rw [he]
        omega
    · rintro ⟨hn, hall⟩
      exact ⟨hn, fun e he => hall e (.inl he)⟩
  · rcases List.mem_append.mp he with he | he
    · exact habove e he
    · rw [List.mem_singleton.mp he]
      dsimp only
      omega
  · rcases htight with h | ⟨e, he, heq⟩
    · exact .inl h
    · exact .inr ⟨e, List.mem_append_left _ he, heq⟩

theorem GapInvariant.step_nonneg (hinv : GapInvariant seen (lastFd, calls))
    (hsorted : ∀ e ∈ seen, e.toInt ≤ fd.toInt) (hnonneg : 0 ≤ fd.toInt) :
    GapInvariant (seen ++ [fd]) (closeGapStep flags (lastFd, calls) fd) := by
  obtain ⟨hranges, hcloses, habove, htight⟩ := hinv
  dsimp only at hranges hcloses habove htight
  have hnlt : ¬fd < 0 := fun h => by
    have := Int32.lt_iff_toInt_lt.mp h
    simp at this
    omega
  have hnext := toNat_toUInt32_add_one hnonneg
  have hlast : (lastFd.toNat : Int) ≤ fd.toInt + 1 := by
    rcases htight with h | ⟨e, he, heq⟩
    · rw [h]
      simp
      omega
    · have := hsorted e he
      omega
  have hseenFd : (lastFd.toNat : Int) = fd.toInt + 1 → ∃ e ∈ seen, e.toInt = fd.toInt := by
    intro heq
    rcases htight with h | ⟨e, he, heq'⟩
    · rw [h] at heq
      simp at heq
      omega
    · exact ⟨e, he, by omega⟩
  have hmem : ∀ e ∈ seen ++ [fd], e.toInt ≤ fd.toInt := fun e he => by
    rcases List.mem_append.mp he with he | he
    · exact hsorted e he
    · rw [List.mem_singleton.mp he]
  have hexcept : ∀ n : Nat, (∀ e ∈ seen ++ [fd], e.toInt ≠ n) ↔
      (∀ e ∈ seen, e.toInt ≠ n) ∧ fd.toInt ≠ n := by
    intro n
    simp [or_imp, forall_and]
  have htight' : ∃ e ∈ seen ++ [fd], e.toInt + 1 = ((fd.toUInt32 + 1).toNat : Int) :=
    ⟨fd, by simp, hnext.symm⟩
  rw [closeGapStep, if_neg hnlt]
  by_cases hgap : lastFd < fd.toUInt32
  · -- a gap from `lastFd` to the descriptor before the exception
    have hgap' : (lastFd.toNat : Int) < fd.toInt := by
      have := UInt32.lt_iff_toNat_lt.mp hgap
      have := toNat_toUInt32 hnonneg
      omega
    have hprev : ((fd - 1).toUInt32.toNat : Int) = fd.toInt - 1 := toNat_toUInt32_sub_one (by omega)
    simp only [if_pos hgap]
    refine ⟨fun call hcall => ?_, fun n => ?_, fun e he => ?_, .inr htight'⟩
    · rcases List.mem_append.mp hcall with hcall | hcall
      · exact hranges call hcall
      · rw [List.mem_singleton.mp hcall, UInt32.le_iff_toNat_le]
        dsimp only
        omega
    · dsimp only
      rw [exists_closes_append, hcloses n, hexcept n]
      simp only [CloseRangeCall.Closes]
      constructor
      · rintro (⟨hn, hseen⟩ | ⟨hlo, hhi⟩)
        · exact ⟨by omega, hseen, by omega⟩
        · exact ⟨by omega, fun e he => by have := habove e he; omega, by omega⟩
      · rintro ⟨hn, hseen, hfd⟩
        by_cases hlow : n < lastFd.toNat
        · exact .inl ⟨hlow, hseen⟩
        · exact .inr ⟨by omega, by omega⟩
    · have := hmem e he
      dsimp only
      omega
  · -- no gap: the exception is `lastFd`, or `lastFd` is just above an equal exception
    have hnogap : fd.toInt ≤ (lastFd.toNat : Int) := by
      have := UInt32.lt_iff_toNat_lt.not.mp hgap
      have := toNat_toUInt32 hnonneg
      omega
    simp only [if_neg hgap]
    refine ⟨hranges, fun n => ?_, fun e he => ?_, .inr htight'⟩
    · dsimp only
      rw [hcloses n, hexcept n]
      constructor
      · rintro ⟨hn, hseen⟩
        refine ⟨by omega, hseen, fun heq => ?_⟩
        by_cases hone : (lastFd.toNat : Int) = fd.toInt + 1
        · obtain ⟨e, he, hefd⟩ := hseenFd hone
          exact hseen e he (by omega)
        · omega
      · rintro ⟨hn, hseen, hfd⟩
        exact ⟨by omega, hseen⟩
    · have := hmem e he
      dsimp only
      omega

theorem gapInvariant_foldl (flags : Int32) :
    ∀ sorted : List Int32, sorted.Pairwise (fun a b => a.toInt ≤ b.toInt) →
      GapInvariant sorted (sorted.foldl (closeGapStep flags) (0, [])) := by
  intro sorted
  induction sorted using List.reverseRecOn with
  | nil => exact fun _ => gapInvariant_nil
  | append_singleton seen fd ih =>
    intro hsorted
    obtain ⟨hseen, -, hlast⟩ := List.pairwise_append.mp hsorted
    have hbelow : ∀ e ∈ seen, e.toInt ≤ fd.toInt := fun e he => hlast e he fd (by simp)
    rw [List.foldl_append, List.foldl_cons, List.foldl_nil]
    have hinv := ih hseen
    generalize seen.foldl (closeGapStep flags) (0, []) = st at hinv
    obtain ⟨lastFd, calls⟩ := st
    by_cases hneg : fd.toInt < 0
    · exact hinv.step_neg hneg
    · exact hinv.step_nonneg hbelow (by omega)

end

theorem pairwise_insertionSort_toInt (fdExceptions : List Int32) :
    (fdExceptions.insertionSort (· ≤ ·)).Pairwise (fun a b => a.toInt ≤ b.toInt) := by
  have h := @List.pairwise_insertionSort _ (fun a b : Int32 => a ≤ b) _
    ⟨fun a b => by
      rw [Int32.le_iff_toInt_le, Int32.le_iff_toInt_le]
      omega⟩
    ⟨fun a b c hab hbc => by
      rw [Int32.le_iff_toInt_le] at hab hbc ⊢
      omega⟩ fdExceptions
  exact h.imp fun hab => Int32.le_iff_toInt_le.mp hab

theorem closeAllFDsExceptWithFlags_of_ne_nil {fdExceptions : List Int32} (flags : Int32)
    (hne : fdExceptions ≠ []) :
    closeAllFDsExceptWithFlags fdExceptions flags =
      if ((fdExceptions.insertionSort (· ≤ ·)).foldl (closeGapStep flags) (0, [])).1 ≠ 0 then
        ((fdExceptions.insertionSort (· ≤ ·)).foldl (closeGapStep flags) (0, [])).2 ++
          [⟨((fdExceptions.insertionSort (· ≤ ·)).foldl (closeGapStep flags) (0, [])).1, ~~~0, flags⟩]
      else ((fdExceptions.insertionSort (· ≤ ·)).foldl (closeGapStep flags) (0, [])).2 := by
  have hempty : fdExceptions.isEmpty = false := by simpa using hne
  simp only [closeAllFDsExceptWithFlags, hempty, Bool.false_eq_true, if_false]

theorem closeAllFDsExceptWithFlags_closes (fdExceptions : List Int32) (flags : Int32)
    (h : fdExceptions = [] ∨ ∃ e ∈ fdExceptions, 0 ≤ e.toInt) :
    (∀ call ∈ closeAllFDsExceptWithFlags fdExceptions flags, call.first ≤ call.last) ∧
    ∀ n : Nat, n < 2 ^ 32 →
      ((∃ call ∈ closeAllFDsExceptWithFlags fdExceptions flags, call.Closes n) ↔
        ∀ e ∈ fdExceptions, e.toInt ≠ n) := by
  have hmax : (~~~(0 : UInt32)).toNat = 2 ^ 32 - 1 := rfl
  rcases h with rfl | ⟨e₀, he₀, hnonneg⟩
  · refine ⟨by simp [closeAllFDsExceptWithFlags, UInt32.le_iff_toNat_le], fun n hn => ?_⟩
    simp [closeAllFDsExceptWithFlags, CloseRangeCall.Closes]
    omega
  · have hne : fdExceptions ≠ [] := List.ne_nil_of_mem he₀
    have hinv := gapInvariant_foldl flags _ (pairwise_insertionSort_toInt fdExceptions)
    have hperm := List.perm_insertionSort (· ≤ ·) fdExceptions
    rw [closeAllFDsExceptWithFlags_of_ne_nil flags hne]
    generalize (fdExceptions.insertionSort (· ≤ ·)).foldl (closeGapStep flags) (0, []) = st at hinv ⊢
    obtain ⟨lastFd, calls⟩ := st
    obtain ⟨hranges, hcloses, habove, htight⟩ := hinv
    dsimp only at hranges hcloses habove htight ⊢
    have hpos : 0 < lastFd.toNat := by
      have := habove e₀ (hperm.mem_iff.mpr he₀)
      omega
    have hlast : lastFd ≠ 0 := fun h0 => by rw [h0] at hpos; simp at hpos
    rw [if_pos hlast]
    refine ⟨fun call hcall => ?_, fun n hn => ?_⟩
    · rcases List.mem_append.mp hcall with hcall | hcall
      · exact hranges call hcall
      · rw [List.mem_singleton.mp hcall, UInt32.le_iff_toNat_le, hmax]
        have := lastFd.toNat_lt
        dsimp only
        omega
    · rw [exists_closes_append, hcloses n]
      simp only [CloseRangeCall.Closes, hmax]
      have hall : (∀ e ∈ fdExceptions.insertionSort (· ≤ ·), e.toInt ≠ n) ↔
          ∀ e ∈ fdExceptions, e.toInt ≠ n :=
        ⟨fun h e he => h e (hperm.mem_iff.mpr he), fun h e he => h e (hperm.mem_iff.mp he)⟩
      rw [hall]
      constructor
      · rintro (⟨-, h⟩ | ⟨hlo, -⟩)
        · exact h
        · intro e he
          have := habove e (hperm.mem_iff.mpr he)
          omega
      · intro h
        by_cases hlow : n < lastFd.toNat
        · exact .inl ⟨hlow, h⟩
        · exact .inr ⟨by omega, by omega⟩

theorem closeAllFDsExceptWithFlags_closes_stdio :
    ([0, 1, 2, 7, 7, -1] = ([] : List Int32) ∨ ∃ e ∈ ([0, 1, 2, 7, 7, -1] : List Int32), 0 ≤ e.toInt) ∧
    closeAllFDsExceptWithFlags [0, 1, 2, 7, 7, -1] 0 = [⟨3, 6, 0⟩, ⟨8, ~~~0, 0⟩] ∧
    ((∀ call ∈ closeAllFDsExceptWithFlags [0, 1, 2, 7, 7, -1] 0, call.first ≤ call.last) ∧
      ∀ n : Nat, n < 2 ^ 32 →
        ((∃ call ∈ closeAllFDsExceptWithFlags [0, 1, 2, 7, 7, -1] 0, call.Closes n) ↔
          ∀ e ∈ ([0, 1, 2, 7, 7, -1] : List Int32), e.toInt ≠ n)) :=
  ⟨.inr ⟨0, by decide, by decide⟩, by decide,
    closeAllFDsExceptWithFlags_closes _ 0 (.inr ⟨0, by decide, by decide⟩)⟩

theorem closeAllFDsExceptWithFlags_of_negative {fdExceptions : List Int32} (flags : Int32)
    (hne : fdExceptions ≠ []) (hneg : ∀ e ∈ fdExceptions, e.toInt < 0) :
    closeAllFDsExceptWithFlags fdExceptions flags = [] := by
  have hperm := List.perm_insertionSort (· ≤ ·) fdExceptions
  have hinv := gapInvariant_foldl flags _ (pairwise_insertionSort_toInt fdExceptions)
  rw [closeAllFDsExceptWithFlags_of_ne_nil flags hne]
  generalize (fdExceptions.insertionSort (· ≤ ·)).foldl (closeGapStep flags) (0, []) = st at hinv ⊢
  obtain ⟨lastFd, calls⟩ := st
  obtain ⟨hranges, hcloses, habove, htight⟩ := hinv
  dsimp only at hranges hcloses habove htight ⊢
  have hzero : lastFd = 0 := by
    rcases htight with h | ⟨e, he, heq⟩
    · exact h
    · have := hneg e (hperm.mem_iff.mp he)
      have h0 : lastFd.toNat = 0 := by omega
      exact UInt32.toNat_inj.mp (by rw [h0]; rfl)
  have hnone : calls = [] := by
    cases calls with
    | nil => rfl
    | cons call rest =>
      have hrange := hranges call List.mem_cons_self
      rw [UInt32.le_iff_toNat_le] at hrange
      have hclosed := (hcloses call.first.toNat).mp ⟨call, List.mem_cons_self, le_refl _, hrange⟩
      rw [hzero] at hclosed
      simp at hclosed
  rw [if_neg (by simp [hzero]), hnone]

theorem closeAllFDsExcept_unset_closes_nothing :
    closeAllFDsExcept [-1] = [] ∧ closeAllFDsExcept [] = [⟨0, ~~~0, 0⟩] := by
  decide

end SandboxedApi

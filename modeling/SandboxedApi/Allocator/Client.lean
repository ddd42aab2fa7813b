import SandboxedApi.Allocator.Methods

namespace SandboxedApi

inductive AllocatorCall where
  | allocate (size : Nat)
  | reallocate (ptr size : Nat)
  | free (ptr : Nat)
  deriving DecidableEq, Repr

structure AllocatorClient where
  allocator : SimpleAllocator
  live : List (Nat × Nat)

namespace AllocatorClient

def start (base size : Nat) (memory : Nat → UInt8) : AllocatorClient :=
  ⟨SimpleAllocator.init base size memory, []⟩

def pointers (s : AllocatorClient) : List Nat := s.live.map Prod.fst

def step (s : AllocatorClient) : AllocatorCall → AllocatorClient
  | .allocate n =>
    match SimpleAllocator.allocate n s.allocator with
    | .ok p a => ⟨a, (p, n) :: s.live⟩
    | .error _ a => ⟨a, s.live⟩
  | .reallocate p n =>
    match SimpleAllocator.reallocate p n s.allocator with
    | .ok q a => ⟨a, (q, n) :: s.live.filter (fun e => e.1 ≠ p)⟩
    | .error _ a => ⟨a, s.live⟩
  | .free p =>
    match SimpleAllocator.free p s.allocator with
    | .ok () a => ⟨a, s.live.filter (fun e => e.1 ≠ p)⟩
    | .error _ a => ⟨a, s.live⟩

def run (s : AllocatorClient) : List AllocatorCall → AllocatorClient
  | [] => s
  | c :: cs => (s.step c).run cs

@[simp]
theorem run_nil (s : AllocatorClient) : s.run [] = s := rfl

@[simp]
theorem run_cons (s : AllocatorClient) (c : AllocatorCall) (cs : List AllocatorCall) :
    s.run (c :: cs) = (s.step c).run cs := rfl

/-- `Reallocate` and `Free` name a live pointer. -/
def OnLive (s : AllocatorClient) : AllocatorCall → Prop
  | .allocate _ => True
  | .reallocate p _ => p ∈ s.pointers
  | .free p => p ∈ s.pointers

instance (s : AllocatorClient) (c : AllocatorCall) : Decidable (s.OnLive c) := by
  cases c <;> unfold OnLive <;> infer_instance

def RunOnLive (s : AllocatorClient) : List AllocatorCall → Prop
  | [] => True
  | c :: cs => s.OnLive c ∧ (s.step c).RunOnLive cs

instance decRunOnLive : (s : AllocatorClient) → (cs : List AllocatorCall) → Decidable (s.RunOnLive cs)
  | _, [] => isTrue trivial
  | s, c :: cs =>
    have := decRunOnLive (s.step c) cs
    inferInstanceAs (Decidable (s.OnLive c ∧ (s.step c).RunOnLive cs))

structure Holds (base size : Nat) (s : AllocatorClient) : Prop where
  wellFormed : s.allocator.WellFormed
  localPtr : s.allocator.localPtr = base
  size : s.allocator.size = size
  nodup : s.pointers.Nodup
  blocks : ∀ e ∈ s.live, ⟨e.1, false, roundUp e.2 kAlignment⟩ ∈ s.allocator.allBlocks

variable {base size : Nat} {s : AllocatorClient}

theorem Holds.start {memory : Nat → UInt8} (hsize : 0 < size) :
    Holds base size (start base size memory) := by
  refine ⟨⟨?_, ?_⟩, rfl, rfl, List.nodup_nil, by simp [AllocatorClient.start]⟩
  · exact ⟨rfl, hsize, rfl⟩
  · simp [AllocatorClient.start, SimpleAllocator.init, freeAddrs]

theorem Holds.used_of_mem (h : Holds base size s) {p : Nat} (hp : p ∈ s.pointers) :
    ∃ n, (p, n) ∈ s.live ∧ ⟨p, false, roundUp n kAlignment⟩ ∈ s.allocator.allBlocks := by
  obtain ⟨⟨p, n⟩, he, rfl⟩ := List.mem_map.mp hp
  exact ⟨n, he, h.blocks _ he⟩

theorem Holds.not_mem_of_free (h : Holds base size s) {c : Metadata}
    (hc : c ∈ s.allocator.allBlocks) (hfree : c.isFree = true) : c.addr ∉ s.pointers := by
  intro hp
  obtain ⟨n, -, hb⟩ := h.used_of_mem hp
  have := h.wellFormed.sorted.eq_of_addr_eq hc hb rfl
  rw [this] at hfree
  cases hfree

theorem pointers_filter_sublist (s : AllocatorClient) (p : Nat) :
    ((s.live.filter (fun e => e.1 ≠ p)).map Prod.fst).Sublist s.pointers :=
  List.filter_sublist.map Prod.fst

theorem Holds.blocks_filter (h : Holds base size s) {p : Nat} {a' : SimpleAllocator}
    (hkept : ∀ c ∈ s.allocator.allBlocks, c.isFree = false → c.addr ≠ p → c ∈ a'.allBlocks) :
    ∀ e ∈ s.live.filter (fun e => e.1 ≠ p), ⟨e.1, false, roundUp e.2 kAlignment⟩ ∈ a'.allBlocks := by
  intro e he
  obtain ⟨he, hne⟩ := List.mem_filter.mp he
  exact hkept _ (h.blocks e he) rfl (by simpa using hne)

theorem Holds.step_allocate (h : Holds base size s) (n : Nat) :
    Holds base size (s.step (.allocate n)) := by
  simp only [AllocatorClient.step]
  split
  · rename_i p a' hrun
    obtain ⟨b, hfit, rfl, hwf, hptr, hsize, -, hnew, hkept⟩ := h.wellFormed.allocate_ok hrun
    obtain ⟨hb, hbfree, -, -⟩ := h.wellFormed.lowerBoundFree_some hfit
    refine ⟨hwf, hptr.trans h.localPtr, hsize.trans h.size, ?_, ?_⟩
    · exact List.nodup_cons.mpr ⟨h.not_mem_of_free hb hbfree, h.nodup⟩
    · intro e he
      rcases List.mem_cons.mp he with rfl | he
      · exact hnew
      · exact hkept _ (h.blocks e he) rfl
  · rename_i e a' hrun
    obtain ⟨rfl, -⟩ := SimpleAllocator.allocate_error hrun
    exact h

theorem Holds.step_reallocate (h : Holds base size s) {p : Nat} (hp : p ∈ s.pointers) (n : Nat) :
    Holds base size (s.step (.reallocate p n)) := by
  obtain ⟨m, -, hb⟩ := h.used_of_mem hp
  simp only [AllocatorClient.step]
  split
  · rename_i q a' hrun
    obtain ⟨hwf, hptr, hsize, hnew, hkept, hfresh, -⟩ := h.wellFormed.reallocate_ok hb rfl hrun
    refine ⟨hwf, hptr.trans h.localPtr, hsize.trans h.size, ?_, ?_⟩
    · refine List.nodup_cons.mpr ⟨?_, h.nodup.sublist (pointers_filter_sublist s p)⟩
      intro hq
      obtain ⟨⟨x, k⟩, hx, rfl⟩ := List.mem_map.mp hq
      obtain ⟨hx, hne⟩ := List.mem_filter.mp hx
      rcases hfresh with rfl | hfresh
      · simp at hne
      · exact hfresh _ (h.blocks _ hx) rfl rfl
    · intro e he
      rcases List.mem_cons.mp he with rfl | he
      · exact hnew
      · exact h.blocks_filter hkept e he
  · rename_i e a' hrun
    obtain rfl := h.wellFormed.reallocate_error hb rfl hrun
    exact h

theorem Holds.step_free (h : Holds base size s) {p : Nat} (hp : p ∈ s.pointers) :
    Holds base size (s.step (.free p)) := by
  obtain ⟨m, -, hb⟩ := h.used_of_mem hp
  obtain ⟨a', hrun, hwf, hptr, hsize, -, hkept⟩ := h.wellFormed.free_ok hb rfl
  simp only [AllocatorClient.step]
  rw [hrun]
  exact ⟨hwf, hptr.trans h.localPtr, hsize.trans h.size,
    h.nodup.sublist (pointers_filter_sublist s p), h.blocks_filter hkept⟩

theorem Holds.step (h : Holds base size s) {c : AllocatorCall} (hc : s.OnLive c) :
    Holds base size (s.step c) := by
  cases c with
  | allocate n => exact h.step_allocate n
  | reallocate p n => exact h.step_reallocate hc n
  | free p => exact h.step_free hc

theorem Holds.run (h : Holds base size s) {cs : List AllocatorCall} (hcs : s.RunOnLive cs) :
    Holds base size (s.run cs) := by
  induction cs generalizing s with
  | nil => exact h
  | cons c cs ih => exact ih (h.step hcs.1) hcs.2

/-- `Allocate(n)` in the state `a`: a success returns the lowest-addressed of the smallest free
blocks of at least the aligned size; a failure is `ResourceExhausted`, and it happens just when
no free block is that large. -/
def BestFit (a : SimpleAllocator) (n : Nat) : Prop :=
  (∀ p a', SimpleAllocator.allocate n a = .ok p a' →
    ∃ b ∈ a.allBlocks, b.isFree = true ∧ b.addr = p ∧ roundUp n kAlignment ≤ b.size ∧
      ∀ c ∈ a.allBlocks, c.isFree = true → roundUp n kAlignment ≤ c.size →
        b.size < c.size ∨ (b.size = c.size ∧ b.addr ≤ c.addr)) ∧
  (∀ e a', SimpleAllocator.allocate n a = .error e a' → e = ⟨.resourceExhausted, "Not enough memory"⟩) ∧
  ((∃ a', SimpleAllocator.allocate n a = .error ⟨.resourceExhausted, "Not enough memory"⟩ a') ↔
    ∀ c ∈ a.allBlocks, c.isFree = true → c.size < roundUp n kAlignment)

def Guarantees (base size : Nat) (s : AllocatorClient) : Prop :=
  (∀ e ∈ s.live, base ≤ e.1 ∧ e.1 + roundUp e.2 kAlignment ≤ base + size) ∧
  s.live.Pairwise (fun x y =>
    x.1 + roundUp x.2 kAlignment ≤ y.1 ∨ y.1 + roundUp y.2 kAlignment ≤ x.1) ∧
  (∀ n, 0 < n → n ≤ kMaxAllocatableSize → BestFit s.allocator n) ∧
  (∀ e ∈ s.live, ∀ n q a', SimpleAllocator.reallocate e.1 n s.allocator = .ok q a' →
    ∀ i < min (roundUp e.2 kAlignment) (roundUp n kAlignment),
      a'.memory (q + i) = s.allocator.memory (e.1 + i))

theorem not_metadataLt_iff {b c : Metadata} :
    ¬ metadataLt c b ↔ b.size < c.size ∨ (b.size = c.size ∧ b.addr ≤ c.addr) := by
  unfold metadataLt
  omega

theorem bestFit_of_wellFormed {a : SimpleAllocator} (h : a.WellFormed) {n : Nat} (hn : 0 < n)
    (hmax : n ≤ kMaxAllocatableSize) : BestFit a n := by
  have halign : alignSize n = .ok (roundUp n kAlignment) := alignSize_eq_ok.mpr ⟨hn, hmax, rfl⟩
  refine ⟨?_, ?_, ⟨?_, ?_⟩⟩
  · intro p a' hrun
    obtain ⟨b, hfit, rfl, -⟩ := h.allocate_ok hrun
    obtain ⟨hb, hbfree, hbsize, hmin⟩ := h.lowerBoundFree_some hfit
    exact ⟨b, hb, hbfree, rfl, hbsize,
      fun c hc hcfree hcsize => not_metadataLt_iff.mp (hmin c hc hcfree hcsize)⟩
  · intro e a' hrun
    rcases (SimpleAllocator.allocate_error hrun).2 with hbad | ⟨r, -, -, he⟩
    · rw [halign] at hbad
      cases hbad
    · exact he
  · rintro ⟨a', hrun⟩
    rcases (SimpleAllocator.allocate_error hrun).2 with hbad | ⟨r, hr, hnone, -⟩
    · rw [halign] at hbad
      cases hbad
    · rw [halign] at hr
      cases hr
      exact h.lowerBoundFree_none.mp hnone
  · intro hsmall
    exact ⟨a, SimpleAllocator.allocate_of_none halign (h.lowerBoundFree_none.mpr hsmall)⟩

theorem Holds.guarantees (h : Holds base size s) : Guarantees base size s := by
  have hbounds := (Tiles.bounds h.wellFormed.tiles).2
  rw [h.localPtr, h.size] at hbounds
  refine ⟨fun e he => ?_, ?_, fun n hn hmax => bestFit_of_wellFormed h.wellFormed hn hmax, ?_⟩
  · obtain ⟨hlo, hhi, -⟩ := hbounds _ (h.blocks e he)
    exact ⟨hlo, hhi⟩
  · -- distinct live pointers are distinct blocks of the tiling
    have hne : s.live.Pairwise (fun x y => x.1 ≠ y.1) := List.pairwise_map.mp h.nodup
    refine hne.imp_of_mem fun {x y} hx hy hxy => ?_
    rcases Nat.lt_or_gt_of_ne hxy with hlt | hlt
    · exact .inl (h.wellFormed.tiles.end_le_of_lt (h.blocks x hx) (h.blocks y hy) hlt)
    · exact .inr (h.wellFormed.tiles.end_le_of_lt (h.blocks y hy) (h.blocks x hx) hlt)
  · intro e he n q a' hrun
    exact (h.wellFormed.reallocate_ok (h.blocks e he) rfl hrun).2.2.2.2.2.2

theorem lowerBoundFree_init_zero {base r : Nat} {memory : Nat → UInt8} (hr : 0 < r) :
    (SimpleAllocator.init base 0 memory).lowerBoundFree r = none := by
  have hsmall : ¬ r ≤ 0 := Nat.not_le.mpr hr
  simp [SimpleAllocator.lowerBoundFree, SimpleAllocator.freeSet, SimpleAllocator.init, Blocks.find,
    hsmall, leastBlock]

theorem step_start_zero {base : Nat} {memory : Nat → UInt8} {c : AllocatorCall}
    (hc : (start base 0 memory).OnLive c) : (start base 0 memory).step c = start base 0 memory := by
  cases c with
  | allocate n =>
    simp only [AllocatorClient.step]
    split
    · rename_i p a' hrun
      unfold SimpleAllocator.allocate at hrun
      split at hrun
      · cases hrun
      rename_i r halign
      obtain ⟨hn, hmax, rfl⟩ := alignSize_eq_ok.mp halign
      have hpos : 0 < roundUp n kAlignment := Nat.lt_of_lt_of_le hn (roundUp_bounds hn hmax).1
      rw [AllocatorClient.start, lowerBoundFree_init_zero hpos] at hrun
      cases hrun
    · rename_i e a' hrun
      obtain ⟨rfl, -⟩ := SimpleAllocator.allocate_error hrun
      rfl
  | reallocate p n => simp [OnLive, pointers, AllocatorClient.start] at hc
  | free p => simp [OnLive, pointers, AllocatorClient.start] at hc

theorem run_start_zero {base : Nat} {memory : Nat → UInt8} {cs : List AllocatorCall}
    (hcs : (start base 0 memory).RunOnLive cs) : (start base 0 memory).run cs = start base 0 memory := by
  induction cs with
  | nil => rfl
  | cons c cs ih =>
    obtain ⟨hc, hcs⟩ := hcs
    rw [run_cons, step_start_zero hc] at *
    exact ih hcs

theorem guarantees_start_zero {base : Nat} {memory : Nat → UInt8} :
    Guarantees base 0 (start base 0 memory) := by
  refine ⟨by simp [AllocatorClient.start], .nil, fun n hn hmax => ?_, by simp [AllocatorClient.start]⟩
  have halign : alignSize n = .ok (roundUp n kAlignment) := alignSize_eq_ok.mpr ⟨hn, hmax, rfl⟩
  have hpos : 0 < roundUp n kAlignment := Nat.lt_of_lt_of_le hn (roundUp_bounds hn hmax).1
  have hrun := SimpleAllocator.allocate_of_none (a := SimpleAllocator.init base 0 memory) halign
    (lowerBoundFree_init_zero hpos)
  refine ⟨fun p a' hok => ?_, fun e a' herr => ?_, ⟨fun _ => ?_, fun _ => ⟨_, hrun⟩⟩⟩
  · rw [AllocatorClient.start, hrun] at hok
    cases hok
  · rw [AllocatorClient.start, hrun] at herr
    cases herr
    rfl
  · simp [AllocatorClient.start, SimpleAllocator.init, hpos]

end AllocatorClient

/-- `SimpleAllocator` over any region: along every sequence of `Allocate`, `Reallocate` and
`Free` calls on live pointers, the live regions lie in the region and are pairwise disjoint,
`Allocate` of every size `AlignSize` accepts is a best fit, and `Reallocate` keeps the bytes. -/
theorem simpleAllocator_guarantees (base size : Nat) (memory : Nat → UInt8)
    (calls : List AllocatorCall) (hcalls : (AllocatorClient.start base size memory).RunOnLive calls) :
    AllocatorClient.Guarantees base size ((AllocatorClient.start base size memory).run calls) := by
  by_cases hsize : size = 0
  · subst hsize
    rw [AllocatorClient.run_start_zero hcalls]
    exact AllocatorClient.guarantees_start_zero
  · exact ((AllocatorClient.Holds.start (Nat.pos_of_ne_zero hsize)).run hcalls).guarantees

/-- Two allocations, a move of the first past the second and a free of the second, over 64
bytes at 4096. -/
theorem simpleAllocator_guarantees_run :
    (AllocatorClient.start 4096 64 (fun _ => 0)).RunOnLive
        [.allocate 8, .allocate 16, .reallocate 4096 24, .free 4104] ∧
      AllocatorClient.Guarantees 4096 64 ((AllocatorClient.start 4096 64 (fun _ => 0)).run
        [.allocate 8, .allocate 16, .reallocate 4096 24, .free 4104]) :=
  ⟨by decide, simpleAllocator_guarantees 4096 64 (fun _ => 0) _ (by decide)⟩

/-- `AlignSize` rejects a size of zero, although `RoundUp(0, 8) = 0` and a free block of 64
bytes is there. -/
theorem allocate_zero_rejected :
    SimpleAllocator.allocate 0 (SimpleAllocator.init 4096 64 (fun _ => 0)) =
        .error ⟨.invalidArgument, "Size is zero or too large"⟩ (SimpleAllocator.init 4096 64 (fun _ => 0)) ∧
      roundUp 0 kAlignment = 0 ∧
      (⟨4096, true, 64⟩ : Metadata) ∈ (SimpleAllocator.init 4096 64 (fun _ => 0)).allBlocks :=
  ⟨rfl, by decide, by simp [SimpleAllocator.init]⟩

end SandboxedApi

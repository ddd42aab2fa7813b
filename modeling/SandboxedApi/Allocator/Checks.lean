import SandboxedApi.Allocator.Methods

namespace SandboxedApi

namespace SimpleAllocator

variable {a : SimpleAllocator} {b : Metadata}

theorem find_spec {blocks : List Metadata} {ptr : Nat} {b : Metadata}
    (h : Blocks.find blocks ptr = some b) : b ∈ blocks ∧ b.addr = ptr := by
  unfold Blocks.find at h
  exact ⟨List.mem_of_find?_eq_some h, by simpa using List.find?_some h⟩

theorem free_of_not_allocated {ptr : Nat}
    (hptr : ∀ c ∈ a.allBlocks, c.addr = ptr → c.isFree = true) :
    SimpleAllocator.free ptr a = .error invalidPointer a := by
  unfold SimpleAllocator.free
  split
  · rfl
  · rename_i c hfind
    obtain ⟨hc, haddr⟩ := find_spec hfind
    simp [hptr c hc haddr]

theorem WellFormed.reallocate_free_block (h : a.WellFormed) (hb : b ∈ a.allBlocks)
    (hfree : b.isFree = true) {n : Nat} (hn : 0 < n) (hmax : n ≤ kMaxAllocatableSize)
    (hfit : roundUp n kAlignment ≤ b.size) :
    ∃ a', reallocate b.addr n a = .ok b.addr a' ∧ b.addr ∈ a'.freeBlocks := by
  have halign : alignSize n = .ok (roundUp n kAlignment) := alignSize_eq_ok.mpr ⟨hn, hmax, rfl⟩
  have hin : b.addr ∈ a.freeBlocks := h.free.mem_iff.mpr (mem_freeAddrs.mpr ⟨b, hb, hfree, rfl⟩)
  have hgrow : a.growIntoNext b (roundUp n kAlignment) = (a, b) := by
    unfold growIntoNext
    rw [if_neg (Nat.not_lt.mpr hfit)]
  refine ⟨if b.size > roundUp n kAlignment then a.splitBlock b (roundUp n kAlignment) else a, ?_, ?_⟩
  · unfold reallocate
    rw [halign]
    simp only
    rw [h.sorted.find_of_mem hb]
    simp only [hgrow, ge_iff_le, hfit, if_true]
  · split
    · simp only [splitBlock, insertFree_eq, insertBlock, modifyBlock]
      split
      · exact hin
      · exact List.mem_cons_of_mem _ hin
    · exact hin

end SimpleAllocator

namespace SharedMemoryRPCChannel

theorem getAllocationMetadata_of_mem {a : SimpleAllocator} (h : a.WellFormed) {b : Metadata}
    (hb : b ∈ a.allBlocks) {ptr : Nat} (hlo : b.addr ≤ ptr) (hhi : ptr < b.addr + b.size) :
    a.getAllocationMetadata ptr = .ok b := by
  obtain ⟨pre, post, hsplit⟩ := List.append_of_mem hb
  have htiles := hsplit ▸ h.tiles
  have hfloor : Blocks.floor a.allBlocks ptr = some b := by
    rw [hsplit]
    exact htiles.addrSorted.floor hlo fun y hy => Nat.lt_of_lt_of_le hhi (htiles.after.2 y hy)
  unfold SimpleAllocator.getAllocationMetadata
  rw [hfloor]
  simp only
  rw [if_neg (by omega)]

theorem copyRoute_of_mem (channel : SharedMemoryRPCChannel) {a : SimpleAllocator}
    (h : a.WellFormed) {b : Metadata} (hb : b ∈ a.allBlocks) {remotePtr len : Nat}
    (hin : channel.isWithinRemoteSharedMemoryRegion remotePtr = true)
    (hlo : b.addr ≤ channel.toLocalAddr remotePtr) (hlen : 0 < len)
    (hhi : channel.toLocalAddr remotePtr + len ≤ b.addr + b.size) :
    channel.copyRoute a remotePtr len = .shared (channel.toLocalAddr remotePtr) := by
  have hmeta := getAllocationMetadata_of_mem h hb hlo (by omega)
  have hwrap : (channel.toLocalAddr remotePtr - b.addr + len) % 2 ^ 64 ≤ b.size :=
    Nat.le_trans (Nat.mod_le _ _) (by omega)
  unfold copyRoute ensureWithinAllocationBounds
  rw [if_pos hin]
  simp only [hmeta, bind, Except.bind, gt_iff_lt, Nat.not_lt.mpr hwrap, if_false, pure, Except.pure]

end SharedMemoryRPCChannel

/-- The start of the one free block of a fresh 64-byte region at 4096 passes `Reallocate`: it
comes back as an allocation of 8 bytes, stays in the free set, and the next `Allocate(8)` hands
it out again. The copies accept 8 bytes there although nothing is allocated. -/
theorem reallocate_free_block_handed_out :
    (∀ c ∈ (SimpleAllocator.init 4096 64 (fun _ => 0)).allBlocks, c.isFree = true) ∧
      ∃ a', SimpleAllocator.reallocate 4096 8 (SimpleAllocator.init 4096 64 (fun _ => 0)) = .ok 4096 a' ∧
        4096 ∈ a'.freeBlocks ∧ (∃ a'', SimpleAllocator.allocate 8 a' = .ok 4096 a'') ∧
        SharedMemoryRPCChannel.copyRoute ⟨4096, 4096, 64⟩ (SimpleAllocator.init 4096 64 (fun _ => 0))
          4096 8 = .shared 4096 :=
  ⟨by simp [SimpleAllocator.init], _, rfl, by decide, ⟨_, rfl⟩, by decide⟩

end SandboxedApi

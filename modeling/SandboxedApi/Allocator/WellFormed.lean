import Mathlib.Data.List.Perm.Basic
import SandboxedApi.Allocator.Blocks

namespace SandboxedApi

def freeAddrs (blocks : List Metadata) : List Nat :=
  (blocks.filter (fun b => b.isFree)).map (fun b => b.addr)

@[simp]
theorem freeAddrs_nil : freeAddrs [] = [] := rfl

theorem freeAddrs_append (xs ys : List Metadata) :
    freeAddrs (xs ++ ys) = freeAddrs xs ++ freeAddrs ys := by
  simp [freeAddrs, List.filter_append]

theorem freeAddrs_cons_free {b : Metadata} (h : b.isFree = true) (bs : List Metadata) :
    freeAddrs (b :: bs) = b.addr :: freeAddrs bs := by
  simp [freeAddrs, h]

theorem freeAddrs_cons_used {b : Metadata} (h : b.isFree = false) (bs : List Metadata) :
    freeAddrs (b :: bs) = freeAddrs bs := by
  simp [freeAddrs, h]

theorem mem_freeAddrs {x : Nat} {bs : List Metadata} :
    x ∈ freeAddrs bs ↔ ∃ b ∈ bs, b.isFree = true ∧ b.addr = x := by
  simp [freeAddrs, and_assoc]

theorem not_mem_freeAddrs {x : Nat} {bs : List Metadata} (h : ∀ b ∈ bs, b.addr ≠ x) :
    x ∉ freeAddrs bs := by
  rintro hx
  obtain ⟨b, hb, -, rfl⟩ := mem_freeAddrs.mp hx
  exact h b hb rfl

theorem not_metadataLt_self (b : Metadata) : ¬ metadataLt b b := by
  unfold metadataLt
  omega

theorem not_metadataLt_trans {x y z : Metadata} (hxy : ¬ metadataLt x y) (hyz : ¬ metadataLt y z) :
    ¬ metadataLt x z := by
  unfold metadataLt at *
  omega

theorem leastBlock_eq_none {blocks : List Metadata} : leastBlock blocks = none ↔ blocks = [] := by
  cases blocks with
  | nil => simp [leastBlock]
  | cons b bs =>
    simp only [leastBlock, reduceCtorEq, iff_false]
    split
    · simp
    · split <;> simp

theorem leastBlock_spec {blocks : List Metadata} {b : Metadata} (h : leastBlock blocks = some b) :
    b ∈ blocks ∧ ∀ c ∈ blocks, ¬ metadataLt c b := by
  induction blocks generalizing b with
  | nil => simp [leastBlock] at h
  | cons x xs ih =>
    simp only [leastBlock] at h
    split at h
    · rename_i hnone
      rw [leastBlock_eq_none] at hnone
      subst hnone
      obtain rfl := Option.some.inj h
      simpa using not_metadataLt_self x
    · rename_i c hc
      obtain ⟨hcmem, hcmin⟩ := ih hc
      split at h
      · rename_i hlt
        obtain rfl := Option.some.inj h
        refine ⟨List.mem_cons_of_mem x hcmem, ?_⟩
        intro d hd
        rcases List.mem_cons.mp hd with rfl | hd
        · unfold metadataLt at hlt ⊢
          omega
        · exact hcmin d hd
      · rename_i hnlt
        obtain rfl := Option.some.inj h
        refine ⟨List.mem_cons_self, ?_⟩
        intro d hd
        rcases List.mem_cons.mp hd with rfl | hd
        · exact not_metadataLt_self d
        · exact not_metadataLt_trans (hcmin d hd) hnlt

structure SimpleAllocator.WellFormed (a : SimpleAllocator) : Prop where
  tiles : Tiles a.localPtr a.allBlocks (a.localPtr + a.size)
  free : a.freeBlocks.Perm (freeAddrs a.allBlocks)

structure SimpleAllocator.HeldOut (a : SimpleAllocator) (pre : List Metadata) (b : Metadata)
    (post : List Metadata) : Prop where
  blocks : a.allBlocks = pre ++ b :: post
  tiles : Tiles a.localPtr a.allBlocks (a.localPtr + a.size)
  free : a.freeBlocks.Perm (freeAddrs pre ++ freeAddrs post)

namespace SimpleAllocator

variable {a : SimpleAllocator} {pre post : List Metadata} {b : Metadata}

theorem insertFree_eq (a : SimpleAllocator) (addr : Nat) :
    a.insertFree addr =
      { a with freeBlocks := if addr ∈ a.freeBlocks then a.freeBlocks else addr :: a.freeBlocks } := by
  unfold insertFree
  split <;> rfl

theorem HeldOut.sorted (h : a.HeldOut pre b post) : AddrSorted (pre ++ b :: post) :=
  h.blocks ▸ h.tiles.addrSorted

theorem HeldOut.addr_not_mem (h : a.HeldOut pre b post) :
    b.addr ∉ freeAddrs pre ++ freeAddrs post := by
  obtain ⟨hpre, hpost⟩ := h.sorted.split
  rw [List.mem_append, not_or]
  exact ⟨not_mem_freeAddrs (fun x hx => Nat.ne_of_lt (hpre x hx)),
    not_mem_freeAddrs (fun y hy => Nat.ne_of_gt (hpost y hy))⟩

theorem HeldOut.not_mem_freeBlocks (h : a.HeldOut pre b post) : b.addr ∉ a.freeBlocks :=
  fun hb => h.addr_not_mem (h.free.mem_iff.mp hb)

theorem WellFormed.heldOut_of_used (h : a.WellFormed) (hb : b ∈ a.allBlocks)
    (hused : b.isFree = false) : ∃ pre post, a.HeldOut pre b post := by
  obtain ⟨pre, post, hsplit⟩ := List.append_of_mem hb
  refine ⟨pre, post, hsplit, h.tiles, ?_⟩
  have hfree := h.free
  rwa [hsplit, freeAddrs_append, freeAddrs_cons_used hused] at hfree

theorem WellFormed.heldOut_eraseFree (h : a.WellFormed) (hb : b ∈ a.allBlocks)
    (hfree : b.isFree = true) : ∃ pre post, (a.eraseFree b.addr).HeldOut pre b post := by
  obtain ⟨pre, post, hsplit⟩ := List.append_of_mem hb
  have hsorted : AddrSorted (pre ++ b :: post) := hsplit ▸ h.tiles.addrSorted
  have hpre : b.addr ∉ freeAddrs pre :=
    not_mem_freeAddrs (fun x hx => Nat.ne_of_lt (hsorted.split.1 x hx))
  refine ⟨pre, post, hsplit, h.tiles, ?_⟩
  have hperm := h.free.erase b.addr
  rw [hsplit, freeAddrs_append, freeAddrs_cons_free hfree, List.erase_append_right _ hpre,
    List.erase_cons_head] at hperm
  exact hperm

theorem HeldOut.wellFormed_of_used (h : a.HeldOut pre b post) (hused : b.isFree = false) :
    a.WellFormed := by
  refine ⟨h.tiles, ?_⟩
  rw [h.blocks, freeAddrs_append, freeAddrs_cons_used hused]
  exact h.free

theorem HeldOut.wellFormed_insertFree (h : a.HeldOut pre b post) (hfree : b.isFree = true) :
    (a.insertFree b.addr).WellFormed := by
  have hnot := h.not_mem_freeBlocks
  refine ⟨?_, ?_⟩
  · simpa [insertFree, hnot] using h.tiles
  · simp only [insertFree, hnot, if_false]
    rw [h.blocks, freeAddrs_append, freeAddrs_cons_free hfree]
    exact (h.free.cons b.addr).trans List.perm_middle.symm

theorem WellFormed.sorted (h : a.WellFormed) : AddrSorted a.allBlocks := h.tiles.addrSorted

theorem WellFormed.mem_freeSet (h : a.WellFormed) :
    b ∈ a.freeSet ↔ b ∈ a.allBlocks ∧ b.isFree = true := by
  simp only [freeSet, List.mem_filterMap]
  constructor
  · rintro ⟨x, hx, hfind⟩
    obtain ⟨c, hc, hcfree, rfl⟩ := mem_freeAddrs.mp (h.free.mem_iff.mp hx)
    rw [h.sorted.find_of_mem hc] at hfind
    obtain rfl := Option.some.inj hfind
    exact ⟨hc, hcfree⟩
  · rintro ⟨hb, hbfree⟩
    exact ⟨b.addr, h.free.mem_iff.mpr (mem_freeAddrs.mpr ⟨b, hb, hbfree, rfl⟩),
      h.sorted.find_of_mem hb⟩

theorem WellFormed.lowerBoundFree_some (h : a.WellFormed) {size : Nat}
    (hb : a.lowerBoundFree size = some b) :
    b ∈ a.allBlocks ∧ b.isFree = true ∧ size ≤ b.size ∧
      ∀ c ∈ a.allBlocks, c.isFree = true → size ≤ c.size → ¬ metadataLt c b := by
  obtain ⟨hmem, hmin⟩ := leastBlock_spec hb
  obtain ⟨hset, hsize⟩ := List.mem_filter.mp hmem
  obtain ⟨hall, hfree⟩ := h.mem_freeSet.mp hset
  refine ⟨hall, hfree, by simpa using hsize, fun c hc hcfree hcsize => hmin c ?_⟩
  exact List.mem_filter.mpr ⟨h.mem_freeSet.mpr ⟨hc, hcfree⟩, by simpa using hcsize⟩

theorem WellFormed.lowerBoundFree_none (h : a.WellFormed) {size : Nat} :
    a.lowerBoundFree size = none ↔ ∀ c ∈ a.allBlocks, c.isFree = true → c.size < size := by
  simp only [lowerBoundFree, leastBlock_eq_none, List.filter_eq_nil_iff, decide_eq_true_eq,
    not_not]
  constructor
  · intro hnone c hc hcfree
    exact hnone c (h.mem_freeSet.mpr ⟨hc, hcfree⟩)
  · intro hall c hc
    obtain ⟨hc, hcfree⟩ := h.mem_freeSet.mp hc
    exact hall c hc hcfree

theorem HeldOut.modify (h : a.HeldOut pre b post) (f : Metadata → Metadata)
    (haddr : (f b).addr = b.addr) (hsize : (f b).size = b.size) :
    (a.modifyBlock b.addr f).HeldOut pre (f b) post := by
  have hblocks : (a.modifyBlock b.addr f).allBlocks = pre ++ f b :: post := by
    rw [modifyBlock, h.blocks, h.sorted.modify]
  refine ⟨hblocks, ?_, h.free⟩
  rw [hblocks]
  exact (h.blocks ▸ h.tiles).replace haddr hsize

theorem HeldOut.absorbNext {n : Metadata} (h : a.HeldOut pre b (n :: post))
    (hn : n.isFree = true) :
    (a.absorbNext b n).1.HeldOut pre (a.absorbNext b n).2 post := by
  have htiles := h.blocks ▸ h.tiles
  have hsorted := h.sorted
  have hbn : b.addr < n.addr := hsorted.split.2 n List.mem_cons_self
  have hgrown : AddrSorted (pre ++ { b with size := b.size + n.size } :: n :: post) :=
    hsorted.replace rfl
  have hblocks : (a.absorbNext b n).1.allBlocks = pre ++ { b with size := b.size + n.size } :: post := by
    simp only [SimpleAllocator.absorbNext, eraseBlock, eraseFree, modifyBlock, h.blocks,
      hsorted.modify]
    exact hgrown.erase_next
  have hpre : n.addr ∉ freeAddrs pre :=
    not_mem_freeAddrs (fun x hx => Nat.ne_of_lt (Nat.lt_trans (hsorted.split.1 x hx) hbn))
  refine ⟨hblocks, ?_, ?_⟩
  · rw [hblocks]
    exact htiles.merge
  · have hperm := h.free.erase n.addr
    rw [freeAddrs_cons_free hn, List.erase_append_right _ hpre, List.erase_cons_head] at hperm
    exact hperm

theorem HeldOut.splitBlock {n : Nat} (h : a.HeldOut pre b post) (hn : 0 < n) (hlt : n < b.size) :
    (a.splitBlock b n).HeldOut pre { b with size := n } (⟨b.addr + n, true, b.size - n⟩ :: post) := by
  have htiles := h.blocks ▸ h.tiles
  have hsorted := h.sorted
  have hafter := htiles.after.2
  have hpost : ∀ y ∈ post, b.addr + n < y.addr := fun y hy => by
    have := hafter y hy
    omega
  have hblocks : (a.splitBlock b n).allBlocks =
      pre ++ { b with size := n } :: ⟨b.addr + n, true, b.size - n⟩ :: post := by
    have hcut : AddrSorted (pre ++ { b with size := n } :: post) := hsorted.replace rfl
    have hins : Blocks.insert (pre ++ { b with size := n } :: post) ⟨b.addr + n, true, b.size - n⟩ =
        pre ++ { b with size := n } :: ⟨b.addr + n, true, b.size - n⟩ :: post :=
      hcut.insert (by simp only; omega) hpost
    simp only [SimpleAllocator.splitBlock, insertFree, insertBlock, modifyBlock, h.blocks,
      hsorted.modify]
    split <;> exact hins
  have hfresh : b.addr + n ∉ a.freeBlocks := by
    intro hmem
    rcases List.mem_append.mp (h.free.mem_iff.mp hmem) with hx | hx
    · obtain ⟨x, hx, -, hxa⟩ := mem_freeAddrs.mp hx
      have := hsorted.split.1 x hx
      omega
    · obtain ⟨y, hy, -, hya⟩ := mem_freeAddrs.mp hx
      have := hpost y hy
      omega
  refine ⟨hblocks, ?_, ?_⟩
  · rw [hblocks]
    simp only [SimpleAllocator.splitBlock, insertFree_eq, insertBlock, modifyBlock]
    exact htiles.split hn hlt true
  · simp only [SimpleAllocator.splitBlock, insertFree, insertBlock, modifyBlock, hfresh, if_false]
    rw [freeAddrs_cons_free rfl]
    exact (h.free.cons _).trans List.perm_middle.symm

theorem HeldOut.mergeInto {p : Metadata} (h : a.HeldOut (pre ++ [p]) b post)
    (hp : p.isFree = true) :
    ((((a.eraseFree p.addr).modifyBlock p.addr
        (fun q => { q with size := q.size + b.size })).insertFree p.addr).eraseBlock b.addr).WellFormed ∧
    (((((a.eraseFree p.addr).modifyBlock p.addr
        (fun q => { q with size := q.size + b.size })).insertFree p.addr).eraseBlock b.addr).allBlocks =
      pre ++ { p with size := p.size + b.size } :: post) := by
  have hsplit : a.allBlocks = pre ++ p :: b :: post := by simpa using h.blocks
  have htiles : Tiles a.localPtr (pre ++ p :: b :: post) (a.localPtr + a.size) := hsplit ▸ h.tiles
  have hsorted := htiles.addrSorted
  have hpb : p.addr < b.addr := hsorted.split.2 b List.mem_cons_self
  have hgrown : AddrSorted (pre ++ { p with size := p.size + b.size } :: b :: post) :=
    hsorted.replace rfl
  have hpre : p.addr ∉ freeAddrs pre :=
    not_mem_freeAddrs (fun x hx => Nat.ne_of_lt (hsorted.split.1 x hx))
  have hpost : p.addr ∉ freeAddrs post :=
    not_mem_freeAddrs (fun y hy => Nat.ne_of_gt (hsorted.split.2 y (List.mem_cons_of_mem b hy)))
  have herased : (a.freeBlocks.erase p.addr).Perm (freeAddrs pre ++ freeAddrs post) := by
    have hperm := h.free.erase p.addr
    rwa [freeAddrs_append, freeAddrs_cons_free hp, freeAddrs_nil, List.append_assoc,
      List.singleton_append,
      List.erase_append_right _ hpre, List.erase_cons_head] at hperm
  have hnot : p.addr ∉ a.freeBlocks.erase p.addr := fun hmem => by
    rcases List.mem_append.mp (herased.mem_iff.mp hmem) with hx | hx
    · exact hpre hx
    · exact hpost hx
  have hblocks : ((((a.eraseFree p.addr).modifyBlock p.addr
      (fun q => { q with size := q.size + b.size })).insertFree p.addr).eraseBlock b.addr).allBlocks =
      pre ++ { p with size := p.size + b.size } :: post := by
    simp only [eraseBlock, insertFree, eraseFree, modifyBlock, hnot, if_false, hsplit,
      hsorted.modify]
    exact hgrown.erase_next
  refine ⟨⟨?_, ?_⟩, hblocks⟩
  · rw [hblocks]
    simp only [eraseBlock, insertFree_eq, eraseFree, modifyBlock]
    exact htiles.merge
  · rw [hblocks]
    simp only [eraseBlock, insertFree_eq, eraseFree, modifyBlock, hnot, if_false]
    rw [freeAddrs_append, freeAddrs_cons_free (b := { p with size := p.size + b.size }) hp]
    exact (herased.cons p.addr).trans List.perm_middle.symm

end SimpleAllocator

end SandboxedApi

import SandboxedApi.Allocator.WellFormed

namespace SandboxedApi

theorem kMaxAllocatableSize_eq : kMaxAllocatableSize = 2 ^ 64 - 16 := by decide

theorem roundUp_kAlignment {n : Nat} (h : n + 7 < 2 ^ 64) :
    roundUp n kAlignment = 8 * ((n + 7) / 8) := by
  have hmod : (n + kAlignment - 1) % 2 ^ 64 = n + 7 := Nat.mod_eq_of_lt (by unfold kAlignment; omega)
  have hmask : 2 ^ 64 - 1 - (kAlignment - 1) = (2 ^ 61 - 1) * 2 ^ 3 := by decide
  have hmul : 8 * ((n + 7) / 8) = (n + 7) / 2 ^ 3 * 2 ^ 3 := by omega
  unfold roundUp
  rw [hmod, hmask, hmul]
  apply Nat.eq_of_testBit_eq
  intro i
  rw [Nat.testBit_and, Nat.testBit_mul_two_pow, Nat.testBit_two_pow_sub_one, Nat.testBit_mul_two_pow,
    Nat.testBit_div_two_pow]
  by_cases hi : 3 ≤ i
  · rw [Nat.sub_add_cancel hi]
    by_cases hi' : i < 64
    · simp [hi, show i - 3 < 61 by omega]
    · have hbit : (n + 7).testBit i = false :=
        Nat.testBit_lt_two_pow (Nat.lt_of_lt_of_le h (Nat.pow_le_pow_right (by decide) (by omega)))
      simp [hbit]
  · simp [hi]

theorem alignSize_eq_ok {n r : Nat} :
    alignSize n = .ok r ↔ 0 < n ∧ n ≤ kMaxAllocatableSize ∧ r = roundUp n kAlignment := by
  unfold alignSize
  split
  · rename_i hbad
    simp only [reduceCtorEq, false_iff]
    omega
  · rename_i hok
    simp only [Except.ok.injEq]
    omega

theorem roundUp_bounds {n : Nat} (hn : 0 < n) (hmax : n ≤ kMaxAllocatableSize) :
    n ≤ roundUp n kAlignment ∧ roundUp n kAlignment < n + 8 ∧
      roundUp n kAlignment ≤ kMaxAllocatableSize ∧
      alignSize (roundUp n kAlignment) = .ok (roundUp n kAlignment) := by
  rw [kMaxAllocatableSize_eq] at hmax
  have hr := roundUp_kAlignment (n := n) (by omega)
  have hrr := roundUp_kAlignment (n := roundUp n kAlignment) (by omega)
  refine ⟨by omega, by omega, by rw [kMaxAllocatableSize_eq]; omega, ?_⟩
  rw [alignSize_eq_ok, kMaxAllocatableSize_eq]
  omega

namespace SimpleAllocator

variable {a a' : SimpleAllocator} {pre post : List Metadata} {b : Metadata}

theorem HeldOut.mem_split (h : a.HeldOut pre b post) {c : Metadata} (hc : c ∈ a.allBlocks)
    (hne : c.addr ≠ b.addr) : c ∈ pre ∨ c ∈ post := by
  rw [h.blocks] at hc
  rcases List.mem_append.mp hc with hc | hc
  · exact .inl hc
  rcases List.mem_cons.mp hc with rfl | hc
  · exact absurd rfl hne
  · exact .inr hc

theorem HeldOut.absorbNext_or_keep (h : a.HeldOut pre b post) (res : SimpleAllocator × Metadata)
    (hres : res = (a, b) ∨
      ∃ nx rest, post = nx :: rest ∧ nx.isFree = true ∧ res = a.absorbNext b nx) :
    ∃ post', res.1.HeldOut pre res.2 post' ∧ res.2.addr = b.addr ∧ res.2.isFree = b.isFree ∧
      b.size ≤ res.2.size ∧ (∀ c ∈ post, c.isFree = false → c ∈ post') ∧
      res.1.localPtr = a.localPtr ∧ res.1.size = a.size ∧ res.1.memory = a.memory := by
  rcases hres with rfl | ⟨nx, rest, rfl, hnx, rfl⟩
  · exact ⟨post, h, rfl, rfl, Nat.le_refl _, fun c hc _ => hc, rfl, rfl, rfl⟩
  · refine ⟨rest, h.absorbNext hnx, rfl, rfl, Nat.le_add_right _ _, ?_, rfl, rfl, rfl⟩
    intro c hc hused
    rcases List.mem_cons.mp hc with rfl | hc
    · simp [hnx] at hused
    · exact hc

theorem allocate_error {n : Nat} {e : Status} (hrun : allocate n a = .error e a') :
    a' = a ∧ (alignSize n = .error e ∨
      ∃ r, alignSize n = .ok r ∧ a.lowerBoundFree r = none ∧
        e = ⟨.resourceExhausted, "Not enough memory"⟩) := by
  unfold allocate at hrun
  split at hrun
  · rename_i e' halign
    cases hrun
    exact ⟨rfl, .inl halign⟩
  · rename_i r halign
    split at hrun
    · rename_i hnone
      cases hrun
      exact ⟨rfl, .inr ⟨r, halign, hnone, rfl⟩⟩
    · cases hrun

theorem allocate_of_none {n r : Nat} (halign : alignSize n = .ok r)
    (hnone : a.lowerBoundFree r = none) :
    allocate n a = .error ⟨.resourceExhausted, "Not enough memory"⟩ a := by
  unfold allocate
  rw [halign]
  simp only [hnone]

theorem WellFormed.allocate_ok (h : a.WellFormed) {n p : Nat} (hrun : allocate n a = .ok p a') :
    ∃ b, a.lowerBoundFree (roundUp n kAlignment) = some b ∧ b.addr = p ∧ a'.WellFormed ∧
      a'.localPtr = a.localPtr ∧ a'.size = a.size ∧ a'.memory = a.memory ∧
      ⟨p, false, roundUp n kAlignment⟩ ∈ a'.allBlocks ∧
      ∀ c ∈ a.allBlocks, c.isFree = false → c ∈ a'.allBlocks := by
  unfold allocate at hrun
  split at hrun
  · cases hrun
  rename_i r halign
  obtain ⟨hn, hmax, rfl⟩ := alignSize_eq_ok.mp halign
  have hpos : 0 < roundUp n kAlignment := Nat.lt_of_lt_of_le hn (roundUp_bounds hn hmax).1
  split at hrun
  · cases hrun
  rename_i b hfit
  obtain ⟨hb, hbfree, hbsize, -⟩ := h.lowerBoundFree_some hfit
  refine ⟨b, hfit, ?_⟩
  simp only [EStateM.Result.ok.injEq] at hrun
  obtain ⟨rfl, rfl⟩ := hrun
  obtain ⟨pre, post, hheld⟩ := h.heldOut_eraseFree hb hbfree
  have h1 := hheld.modify (fun x => { x with isFree := false }) rfl rfl
  have haround : ∀ c ∈ a.allBlocks, c.isFree = false → c ∈ pre ∨ c ∈ post := by
    intro c hc hused
    refine hheld.mem_split hc fun haddr => ?_
    have := h.sorted.eq_of_addr_eq hc hb haddr
    subst this
    simp [hbfree] at hused
  refine ⟨rfl, ?_⟩
  split
  · rename_i hgt
    have h2 := h1.splitBlock hpos hgt
    refine ⟨h2.wellFormed_of_used rfl, by simp [splitBlock, insertFree_eq, insertBlock, modifyBlock, eraseFree],
      by simp [splitBlock, insertFree_eq, insertBlock, modifyBlock, eraseFree],
      by simp [splitBlock, insertFree_eq, insertBlock, modifyBlock, eraseFree], ?_, ?_⟩
    · rw [h2.blocks]
      exact List.mem_append_right _ List.mem_cons_self
    · intro c hc hused
      rw [h2.blocks]
      rcases haround c hc hused with hc | hc
      · exact List.mem_append_left _ hc
      · exact List.mem_append_right _ (List.mem_cons_of_mem _ (List.mem_cons_of_mem _ hc))
  · rename_i hle
    have hsize : b.size = roundUp n kAlignment := by omega
    refine ⟨h1.wellFormed_of_used rfl, rfl, rfl, rfl, ?_, ?_⟩
    · rw [h1.blocks, ← hsize]
      exact List.mem_append_right _ List.mem_cons_self
    · intro c hc hused
      rw [h1.blocks]
      rcases haround c hc hused with hc | hc
      · exact List.mem_append_left _ hc
      · exact List.mem_append_right _ (List.mem_cons_of_mem _ hc)

theorem HeldOut.mergeNext (h : a.HeldOut pre b post) :
    ∃ post', (a.mergeNext b.addr b).1.HeldOut pre (a.mergeNext b.addr b).2 post' ∧
      (a.mergeNext b.addr b).2.addr = b.addr ∧ (a.mergeNext b.addr b).2.isFree = b.isFree ∧
      (∀ c ∈ post, c.isFree = false → c ∈ post') ∧
      (a.mergeNext b.addr b).1.localPtr = a.localPtr ∧ (a.mergeNext b.addr b).1.size = a.size ∧
      (a.mergeNext b.addr b).1.memory = a.memory := by
  have hnext : Blocks.next a.allBlocks b.addr = post.head? := h.blocks ▸ h.sorted.next
  obtain ⟨post', h', haddr, hfree, -, hpost, hregion⟩ := h.absorbNext_or_keep
    (a.mergeNext b.addr b) (by
      unfold SimpleAllocator.mergeNext
      rw [hnext]
      cases post with
      | nil => exact .inl rfl
      | cons nx rest =>
        by_cases hnx : nx.isFree = true
        · exact .inr ⟨nx, rest, rfl, hnx, by simp [hnx]⟩
        · exact .inl (by simp [hnx]))
  exact ⟨post', h', haddr, hfree, hpost, hregion⟩

theorem HeldOut.mergePrev (h : a.HeldOut pre b post) (hfree : b.isFree = true) :
    (a.mergePrev b.addr b).WellFormed ∧
      (∀ c ∈ pre ++ post, c.isFree = false → c ∈ (a.mergePrev b.addr b).allBlocks) ∧
      (a.mergePrev b.addr b).localPtr = a.localPtr ∧ (a.mergePrev b.addr b).size = a.size ∧
      (a.mergePrev b.addr b).memory = a.memory := by
  have hprev : Blocks.prev a.allBlocks b.addr = pre.getLast? := h.blocks ▸ h.sorted.prev
  have hkeep : (a.insertFree b.addr).WellFormed ∧
      (∀ c ∈ pre ++ post, c.isFree = false → c ∈ (a.insertFree b.addr).allBlocks) ∧
      (a.insertFree b.addr).localPtr = a.localPtr ∧ (a.insertFree b.addr).size = a.size ∧
      (a.insertFree b.addr).memory = a.memory := by
    refine ⟨h.wellFormed_insertFree hfree, fun c hc _ => ?_, by simp [insertFree_eq],
      by simp [insertFree_eq], by simp [insertFree_eq]⟩
    simp only [insertFree_eq, h.blocks]
    rcases List.mem_append.mp hc with hc | hc
    · exact List.mem_append_left _ hc
    · exact List.mem_append_right _ (List.mem_cons_of_mem _ hc)
  unfold SimpleAllocator.mergePrev
  rw [hprev]
  rcases List.eq_nil_or_concat pre with rfl | ⟨pre', p, rfl⟩
  · exact hkeep
  rw [List.concat_eq_append] at h hkeep ⊢
  rw [List.getLast?_concat]
  simp only
  by_cases hp : p.isFree = true
  · obtain ⟨hwf, hblocks⟩ := h.mergeInto hp
    simp only [hp, if_true]
    refine ⟨hwf, fun c hc hused => ?_, by simp [insertFree_eq, eraseBlock, modifyBlock, eraseFree],
      by simp [insertFree_eq, eraseBlock, modifyBlock, eraseFree],
      by simp [insertFree_eq, eraseBlock, modifyBlock, eraseFree]⟩
    rw [hblocks]
    rcases List.mem_append.mp hc with hc | hc
    · rcases List.mem_append.mp hc with hc | hc
      · exact List.mem_append_left _ hc
      · obtain rfl := List.mem_singleton.mp hc
        simp [hp] at hused
    · exact List.mem_append_right _ (List.mem_cons_of_mem _ hc)
  · simp only [hp, Bool.false_eq_true, if_false]
    exact hkeep

theorem free_error {ptr : Nat} {e : Status} (hrun : SimpleAllocator.free ptr a = .error e a') :
    a' = a := by
  unfold SimpleAllocator.free at hrun
  split at hrun
  · cases hrun
    rfl
  · split at hrun
    · cases hrun
      rfl
    · cases hrun

theorem WellFormed.free_ok (h : a.WellFormed) (hb : b ∈ a.allBlocks) (hused : b.isFree = false) :
    ∃ a', SimpleAllocator.free b.addr a = .ok () a' ∧ a'.WellFormed ∧ a'.localPtr = a.localPtr ∧
      a'.size = a.size ∧ a'.memory = a.memory ∧
      ∀ c ∈ a.allBlocks, c.isFree = false → c.addr ≠ b.addr → c ∈ a'.allBlocks := by
  obtain ⟨pre, post, hheld⟩ := h.heldOut_of_used hb hused
  have h1 := hheld.modify (fun x => { x with isFree := true }) rfl rfl
  obtain ⟨post', h2, haddr, hfree, hpost, hptr, hsize, hmem⟩ := h1.mergeNext
  obtain ⟨hwf, hkept, hptr', hsize', hmem'⟩ := h2.mergePrev (hfree.trans rfl)
  rw [haddr] at hwf hkept hptr' hsize' hmem'
  refine ⟨_, ?_, hwf, hptr'.trans hptr, hsize'.trans hsize, hmem'.trans hmem, ?_⟩
  · unfold SimpleAllocator.free
    rw [h.sorted.find_of_mem hb]
    simp only [hused, Bool.false_eq_true, if_false]
  · intro c hc hcused hne
    apply hkept c _ hcused
    rcases hheld.mem_split hc hne with hc | hc
    · exact List.mem_append_left _ hc
    · exact List.mem_append_right _ (hpost c hc hcused)

theorem HeldOut.growIntoNext (h : a.HeldOut pre b post) (r : Nat) :
    ∃ post', (a.growIntoNext b r).1.HeldOut pre (a.growIntoNext b r).2 post' ∧
      (a.growIntoNext b r).2.addr = b.addr ∧ (a.growIntoNext b r).2.isFree = b.isFree ∧
      (∀ c ∈ post, c.isFree = false → c ∈ post') ∧
      (a.growIntoNext b r).1.localPtr = a.localPtr ∧ (a.growIntoNext b r).1.size = a.size ∧
      (a.growIntoNext b r).1.memory = a.memory ∧
      ((a.growIntoNext b r).2.size < r → a.growIntoNext b r = (a, b)) := by
  have hnext : Blocks.next a.allBlocks b.addr = post.head? := h.blocks ▸ h.sorted.next
  have hshape : a.growIntoNext b r = (a, b) ∨
      ∃ nx rest, post = nx :: rest ∧ nx.isFree = true ∧ a.growIntoNext b r = a.absorbNext b nx ∧
        r ≤ b.size + nx.size := by
    unfold SimpleAllocator.growIntoNext
    split
    · rw [hnext]
      cases post with
      | nil => exact .inl rfl
      | cons nx rest =>
        by_cases hmerge : nx.isFree = true ∧ b.size + nx.size ≥ r
        · exact .inr ⟨nx, rest, rfl, hmerge.1, by simp [hmerge], hmerge.2⟩
        · exact .inl (by simp [hmerge])
    · exact .inl rfl
  obtain ⟨post', h', haddr, hfree, -, hpost, hptr, hsize, hmem⟩ := h.absorbNext_or_keep
    (a.growIntoNext b r)
    (hshape.imp id fun ⟨nx, rest, hpost, hnx, hres, _⟩ => ⟨nx, rest, hpost, hnx, hres⟩)
  refine ⟨post', h', haddr, hfree, hpost, hptr, hsize, hmem, fun hsmall => ?_⟩
  rcases hshape with hres | ⟨nx, rest, -, -, hres, hbig⟩
  · exact hres
  · rw [hres] at hsmall
    exact absurd hbig (Nat.not_le.mpr hsmall)

theorem memcpy_apply_dest (memory : Nat → UInt8) {dest src n i : Nat} (hi : i < n) :
    memcpy memory dest src n (dest + i) = memory (src + i) := by
  unfold memcpy
  rw [if_pos ⟨Nat.le_add_right _ _, by omega⟩, Nat.add_sub_cancel_left]

theorem WellFormed.reallocate_ok (h : a.WellFormed) (hb : b ∈ a.allBlocks) (hused : b.isFree = false)
    {n q : Nat} (hrun : reallocate b.addr n a = .ok q a') :
    a'.WellFormed ∧ a'.localPtr = a.localPtr ∧ a'.size = a.size ∧
      ⟨q, false, roundUp n kAlignment⟩ ∈ a'.allBlocks ∧
      (∀ c ∈ a.allBlocks, c.isFree = false → c.addr ≠ b.addr → c ∈ a'.allBlocks) ∧
      (q = b.addr ∨ ∀ c ∈ a.allBlocks, c.isFree = false → c.addr ≠ q) ∧
      ∀ i < min b.size (roundUp n kAlignment), a'.memory (q + i) = a.memory (b.addr + i) := by
  unfold reallocate at hrun
  split at hrun
  · cases hrun
  rename_i r halign
  obtain ⟨hn, hmax, rfl⟩ := alignSize_eq_ok.mp halign
  obtain ⟨hle, -, -, hrealign⟩ := roundUp_bounds hn hmax
  rw [h.sorted.find_of_mem hb] at hrun
  simp only at hrun
  obtain ⟨pre, post, hheld⟩ := h.heldOut_of_used hb hused
  obtain ⟨post', hg, haddr, hfree, hpost, hptr, hsize, hmem, hsmall⟩ :=
    hheld.growIntoNext (roundUp n kAlignment)
  have haround : ∀ c ∈ a.allBlocks, c.isFree = false → c.addr ≠ b.addr → c ∈ pre ∨ c ∈ post' :=
    fun c hc hcused hne => (hheld.mem_split hc hne).imp id (hpost c · hcused)
  generalize hres : a.growIntoNext b (roundUp n kAlignment) = res at hrun hg haddr hfree hptr hsize hmem hsmall
  obtain ⟨a1, b1⟩ := res
  simp only at hrun hg haddr hfree hptr hsize hmem hsmall
  split at hrun
  · -- in place, cut to the size asked for when it is larger
    rename_i hfits
    simp only [EStateM.Result.ok.injEq] at hrun
    obtain ⟨rfl, rfl⟩ := hrun
    have hpos : 0 < roundUp n kAlignment := Nat.lt_of_lt_of_le hn hle
    have hshape : (if b1.size > roundUp n kAlignment then a1.splitBlock b1 (roundUp n kAlignment)
          else a1).HeldOut pre ⟨b.addr, false, roundUp n kAlignment⟩
          (if b1.size > roundUp n kAlignment then ⟨b.addr + roundUp n kAlignment, true,
            b1.size - roundUp n kAlignment⟩ :: post' else post') ∧
        (if b1.size > roundUp n kAlignment then a1.splitBlock b1 (roundUp n kAlignment)
          else a1).localPtr = a.localPtr ∧
        (if b1.size > roundUp n kAlignment then a1.splitBlock b1 (roundUp n kAlignment)
          else a1).size = a.size ∧
        (if b1.size > roundUp n kAlignment then a1.splitBlock b1 (roundUp n kAlignment)
          else a1).memory = a.memory := by
      split
      · rename_i hgt
        have h2 := hg.splitBlock hpos hgt
        rw [haddr, hfree, hused] at h2
        exact ⟨h2, by simpa [splitBlock, insertFree_eq, insertBlock, modifyBlock] using hptr,
          by simpa [splitBlock, insertFree_eq, insertBlock, modifyBlock] using hsize,
          by simpa [splitBlock, insertFree_eq, insertBlock, modifyBlock] using hmem⟩
      · rename_i hngt
        have hsz : b1.size = roundUp n kAlignment := by omega
        have hb1 : b1 = ⟨b.addr, false, roundUp n kAlignment⟩ := by
          rw [← haddr, ← hsz, ← hused, ← hfree]
        exact ⟨hb1 ▸ hg, hptr, hsize, hmem⟩
    obtain ⟨h2, hptr2, hsize2, hmem2⟩ := hshape
    refine ⟨h2.wellFormed_of_used rfl, hptr2, hsize2, ?_, ?_, .inl rfl, fun i _ => by rw [hmem2]⟩
    · rw [h2.blocks]
      exact List.mem_append_right _ List.mem_cons_self
    · intro c hc hcused hne
      rw [h2.blocks]
      rcases haround c hc hcused hne with hc | hc
      · exact List.mem_append_left _ hc
      · refine List.mem_append_right _ (List.mem_cons_of_mem _ ?_)
        split
        · exact List.mem_cons_of_mem _ hc
        · exact hc
  · -- moved: `Allocate`, the copy, then `Free` of the old block
    rename_i hsmall'
    obtain ⟨ha1, hb1⟩ := Prod.mk.inj (hsmall (Nat.lt_of_not_le hsmall'))
    subst a1 b1
    simp only [EStateM.run] at hrun
    split at hrun
    · cases hrun
    rename_i newAddr a2 hal
    obtain ⟨bn, hfit, rfl, h2, hptr2, hsize2, hmem2, hnew, hkept2⟩ := h.allocate_ok hal
    obtain ⟨-, hbnfree, -, -⟩ := h.lowerBoundFree_some hfit
    have hbn : bn ∈ a.allBlocks := (h.lowerBoundFree_some hfit).1
    have hfresh : ∀ c ∈ a.allBlocks, c.isFree = false → c.addr ≠ bn.addr := by
      intro c hc hcused heq
      have := h.sorted.eq_of_addr_eq hc hbn heq
      subst this
      simp [hbnfree] at hcused
    have hrr : roundUp (roundUp n kAlignment) kAlignment = roundUp n kAlignment :=
      (alignSize_eq_ok.mp hrealign).2.2.symm
    rw [hrr] at hnew
    let a3 : SimpleAllocator := { a2 with
      memory := memcpy a2.memory bn.addr b.addr (min b.size (roundUp n kAlignment)) }
    have h3 : a3.WellFormed := ⟨h2.tiles, h2.free⟩
    obtain ⟨a4, hfree4, h4, hptr4, hsize4, hmem4, hkept4⟩ := h3.free_ok (hkept2 b hb hused) hused
    rw [hfree4] at hrun
    simp only [EStateM.Result.ok.injEq] at hrun
    obtain ⟨rfl, rfl⟩ := hrun
    refine ⟨h4, hptr4.trans hptr2, hsize4.trans hsize2, ?_, ?_, .inr hfresh, ?_⟩
    · exact hkept4 _ hnew rfl (Ne.symm (hfresh b hb hused))
    · intro c hc hcused hne
      exact hkept4 c (hkept2 c hc hcused) hcused hne
    · intro i hi
      rw [hmem4]
      simp only [a3, hmem2]
      exact memcpy_apply_dest a.memory hi

theorem WellFormed.reallocate_error (h : a.WellFormed) (hb : b ∈ a.allBlocks)
    (hused : b.isFree = false) {n : Nat} {e : Status} (hrun : reallocate b.addr n a = .error e a') :
    a' = a := by
  unfold reallocate at hrun
  split at hrun
  · cases hrun
    rfl
  rename_i r halign
  rw [h.sorted.find_of_mem hb] at hrun
  simp only at hrun
  obtain ⟨pre, post, hheld⟩ := h.heldOut_of_used hb hused
  obtain ⟨-, -, -, -, -, -, -, -, hsmall⟩ := hheld.growIntoNext r
  generalize hres : a.growIntoNext b r = res at hrun hsmall
  obtain ⟨a1, b1⟩ := res
  simp only at hrun hsmall
  split at hrun
  · cases hrun
  rename_i hsmall'
  obtain ⟨ha1, hb1⟩ := Prod.mk.inj (hsmall (Nat.lt_of_not_le hsmall'))
  subst a1 b1
  simp only [EStateM.run] at hrun
  split at hrun
  · rename_i e' a2 hal
    cases hrun
    exact (allocate_error hal).1
  · -- `Allocate` kept `b`, so the `Free` after it succeeds
    rename_i newAddr a2 hal
    obtain ⟨-, -, -, h2, -, -, -, -, hkept2⟩ := h.allocate_ok hal
    have h3 : ({ a2 with memory := memcpy a2.memory newAddr b.addr (min b.size r) } :
        SimpleAllocator).WellFormed := ⟨h2.tiles, h2.free⟩
    obtain ⟨a4, hfree4, -⟩ := h3.free_ok (hkept2 b hb hused) hused
    rw [hfree4] at hrun
    cases hrun

end SimpleAllocator

end SandboxedApi

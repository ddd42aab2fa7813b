import Mathlib.Data.List.Basic
import SandboxedApi.Allocator.Simple

namespace SandboxedApi

def Tiles : Nat → List Metadata → Nat → Prop
  | start, [], stop => start = stop
  | start, b :: bs, stop => b.addr = start ∧ 0 < b.size ∧ Tiles (start + b.size) bs stop

def AddrSorted (blocks : List Metadata) : Prop :=
  blocks.Pairwise (fun x y => x.addr < y.addr)

namespace Tiles

variable {start stop : Nat} {b c : Metadata} {pre post blocks : List Metadata}

theorem append_iff {xs ys : List Metadata} :
    Tiles start (xs ++ ys) stop ↔ ∃ mid, Tiles start xs mid ∧ Tiles mid ys stop := by
  induction xs generalizing start with
  | nil => exact ⟨fun h => ⟨start, rfl, h⟩, fun ⟨_, hm, h⟩ => hm ▸ h⟩
  | cons x xs ih =>
    simp only [List.cons_append, Tiles, ih]
    constructor
    · rintro ⟨hx, hpos, mid, hxs, hys⟩
      exact ⟨mid, ⟨hx, hpos, hxs⟩, hys⟩
    · rintro ⟨mid, ⟨hx, hpos, hxs⟩, hys⟩
      exact ⟨hx, hpos, mid, hxs, hys⟩

theorem bounds (h : Tiles start blocks stop) :
    start ≤ stop ∧ ∀ b ∈ blocks, start ≤ b.addr ∧ b.addr + b.size ≤ stop ∧ 0 < b.size := by
  induction blocks generalizing start with
  | nil => exact ⟨Nat.le_of_eq h, by simp⟩
  | cons x xs ih =>
    obtain ⟨hx, hpos, hxs⟩ := h
    obtain ⟨hle, hall⟩ := ih hxs
    refine ⟨by omega, ?_⟩
    intro b hb
    rcases List.mem_cons.mp hb with rfl | hb
    · exact ⟨by omega, by omega, hpos⟩
    · obtain ⟨h1, h2, h3⟩ := hall b hb
      exact ⟨by omega, h2, h3⟩

theorem pairwise_end_le (h : Tiles start blocks stop) :
    blocks.Pairwise (fun x y => x.addr + x.size ≤ y.addr) := by
  induction blocks generalizing start with
  | nil => exact .nil
  | cons x xs ih =>
    obtain ⟨hx, _, hxs⟩ := h
    have hafter := (bounds hxs).2
    refine List.Pairwise.cons (fun y hy => ?_) (ih hxs)
    have := (hafter y hy).1
    omega

theorem end_le_of_lt (h : Tiles start blocks stop) {x y : Metadata} (hx : x ∈ blocks)
    (hy : y ∈ blocks) (hlt : x.addr < y.addr) : x.addr + x.size ≤ y.addr := by
  induction blocks generalizing start with
  | nil => simp at hx
  | cons z zs ih =>
    have hhead := (List.pairwise_cons.mp (pairwise_end_le h)).1
    rcases List.mem_cons.mp hx with rfl | hx' <;> rcases List.mem_cons.mp hy with rfl | hy'
    · omega
    · exact hhead y hy'
    · have := hhead x hx'
      omega
    · exact ih h.2.2 hx' hy'

theorem addrSorted (h : Tiles start blocks stop) : AddrSorted blocks :=
  List.Pairwise.imp_of_mem (fun {x y} hx _ hxy => by
      have := ((bounds h).2 x hx).2.2
      omega)
    (pairwise_end_le h)

theorem next_addr (h : Tiles start (pre ++ b :: c :: post) stop) : c.addr = b.addr + b.size := by
  obtain ⟨mid, -, hb⟩ := append_iff.mp h
  obtain ⟨hbaddr, -, hc, -, -⟩ := hb
  omega

theorem after (h : Tiles start (pre ++ b :: post) stop) :
    b.addr + b.size ≤ stop ∧ ∀ y ∈ post, b.addr + b.size ≤ y.addr := by
  obtain ⟨mid, -, hb⟩ := append_iff.mp h
  obtain ⟨hbaddr, -, hpost⟩ := hb
  obtain ⟨hle, hall⟩ := bounds hpost
  exact ⟨by omega, fun y hy => by have := (hall y hy).1; omega⟩

theorem replace (h : Tiles start (pre ++ b :: post) stop) {b' : Metadata} (haddr : b'.addr = b.addr)
    (hsize : b'.size = b.size) : Tiles start (pre ++ b' :: post) stop := by
  obtain ⟨mid, hpre, hb⟩ := append_iff.mp h
  obtain ⟨hbaddr, hpos, hpost⟩ := hb
  exact append_iff.mpr ⟨mid, hpre, haddr.trans hbaddr, hsize ▸ hpos, hsize ▸ hpost⟩

theorem split (h : Tiles start (pre ++ b :: post) stop) {n : Nat} (hn : 0 < n) (hlt : n < b.size)
    (free : Bool) :
    Tiles start (pre ++ { b with size := n } :: ⟨b.addr + n, free, b.size - n⟩ :: post) stop := by
  obtain ⟨mid, hpre, hb⟩ := append_iff.mp h
  obtain ⟨hbaddr, -, hpost⟩ := hb
  refine append_iff.mpr ⟨mid, hpre, hbaddr, hn, by simp only; omega, by simp only; omega, ?_⟩
  have hend : mid + n + (b.size - n) = mid + b.size := by omega
  simpa only [hend] using hpost

theorem merge (h : Tiles start (pre ++ b :: c :: post) stop) :
    Tiles start (pre ++ { b with size := b.size + c.size } :: post) stop := by
  obtain ⟨mid, hpre, hb⟩ := append_iff.mp h
  obtain ⟨hbaddr, hpos, hcaddr, _, hpost⟩ := hb
  refine append_iff.mpr ⟨mid, hpre, hbaddr, by simp only; omega, ?_⟩
  have hend : mid + b.size + c.size = mid + (b.size + c.size) := by omega
  simpa only [hend] using hpost

end Tiles

namespace AddrSorted

variable {b : Metadata} {pre post : List Metadata}

theorem split (h : AddrSorted (pre ++ b :: post)) :
    (∀ x ∈ pre, x.addr < b.addr) ∧ (∀ y ∈ post, b.addr < y.addr) := by
  obtain ⟨-, hmid, hcross⟩ := List.pairwise_append.mp h
  exact ⟨fun x hx => hcross x hx b List.mem_cons_self, (List.pairwise_cons.mp hmid).1⟩

theorem find (h : AddrSorted (pre ++ b :: post)) : Blocks.find (pre ++ b :: post) b.addr = some b := by
  have hpre := h.split.1
  have hnone : pre.find? (fun x => x.addr = b.addr) = none :=
    List.find?_eq_none.mpr (fun x hx => by simpa using Nat.ne_of_lt (hpre x hx))
  simp [Blocks.find, List.find?_append, hnone]

theorem find_of_mem {blocks : List Metadata} (h : AddrSorted blocks) (hb : b ∈ blocks) :
    Blocks.find blocks b.addr = some b := by
  obtain ⟨pre, post, rfl⟩ := List.append_of_mem hb
  exact h.find

theorem eq_of_addr_eq {blocks : List Metadata} (h : AddrSorted blocks) {x y : Metadata}
    (hx : x ∈ blocks) (hy : y ∈ blocks) (hxy : x.addr = y.addr) : x = y := by
  have hfx := h.find_of_mem hx
  rw [hxy, h.find_of_mem hy] at hfx
  exact (Option.some.inj hfx).symm

theorem next (h : AddrSorted (pre ++ b :: post)) : Blocks.next (pre ++ b :: post) b.addr = post.head? := by
  obtain ⟨hpre, hpost⟩ := h.split
  have hfpre : pre.filter (fun x => b.addr < x.addr) = [] :=
    List.filter_eq_nil_iff.mpr (fun x hx => by simpa using Nat.le_of_lt (hpre x hx))
  have hfpost : post.filter (fun x => b.addr < x.addr) = post :=
    List.filter_eq_self.mpr (fun y hy => by simpa using hpost y hy)
  simp [Blocks.next, List.filter_append, hfpre, hfpost]

theorem prev (h : AddrSorted (pre ++ b :: post)) : Blocks.prev (pre ++ b :: post) b.addr = pre.getLast? := by
  obtain ⟨hpre, hpost⟩ := h.split
  have hfpre : pre.filter (fun x => x.addr < b.addr) = pre :=
    List.filter_eq_self.mpr (fun x hx => by simpa using hpre x hx)
  have hfpost : post.filter (fun x => x.addr < b.addr) = [] :=
    List.filter_eq_nil_iff.mpr (fun y hy => by simpa using Nat.le_of_lt (hpost y hy))
  simp [Blocks.prev, List.filter_append, hfpre, hfpost]

theorem map_modify_of_ne {xs : List Metadata} {addr : Nat} (f : Metadata → Metadata)
    (hne : ∀ x ∈ xs, x.addr ≠ addr) :
    xs.map (fun x => if x.addr = addr then f x else x) = xs := by
  conv_rhs => rw [← List.map_id xs]
  exact List.map_congr_left (fun x hx => by simp [hne x hx])

theorem modify (h : AddrSorted (pre ++ b :: post)) (f : Metadata → Metadata) :
    Blocks.modify (pre ++ b :: post) b.addr f = pre ++ f b :: post := by
  obtain ⟨hpre, hpost⟩ := h.split
  have hmpre := map_modify_of_ne f (fun x hx => Nat.ne_of_lt (hpre x hx))
  have hmpost := map_modify_of_ne f (fun y hy => Nat.ne_of_gt (hpost y hy))
  simp [Blocks.modify, hmpre, hmpost]

theorem replace (h : AddrSorted (pre ++ b :: post)) {b' : Metadata} (haddr : b'.addr = b.addr) :
    AddrSorted (pre ++ b' :: post) := by
  unfold AddrSorted at h ⊢
  rw [← List.pairwise_map] at h ⊢
  simpa [haddr] using h

theorem erase (h : AddrSorted (pre ++ b :: post)) : Blocks.erase (pre ++ b :: post) b.addr = pre ++ post := by
  obtain ⟨hpre, hpost⟩ := h.split
  have hfpre : pre.filter (fun x => x.addr ≠ b.addr) = pre :=
    List.filter_eq_self.mpr (fun x hx => by simpa using Nat.ne_of_lt (hpre x hx))
  have hfpost : post.filter (fun x => x.addr ≠ b.addr) = post :=
    List.filter_eq_self.mpr (fun y hy => by simpa using Nat.ne_of_gt (hpost y hy))
  unfold Blocks.erase
  rw [List.filter_append, hfpre, List.filter_cons_of_neg (by simp), hfpost]

theorem erase_next {c : Metadata} (h : AddrSorted (pre ++ b :: c :: post)) :
    Blocks.erase (pre ++ b :: c :: post) c.addr = pre ++ b :: post := by
  have h' : AddrSorted ((pre ++ [b]) ++ c :: post) := by simpa using h
  simpa using h'.erase

theorem insert (h : AddrSorted (pre ++ b :: post)) {c : Metadata} (hbc : b.addr < c.addr)
    (hcpost : ∀ y ∈ post, c.addr < y.addr) :
    Blocks.insert (pre ++ b :: post) c = pre ++ b :: c :: post := by
  obtain ⟨hpre, -⟩ := h.split
  have hfresh : (pre ++ b :: post).any (fun x => x.addr = c.addr) = false := by
    simp only [List.any_eq_false, decide_eq_true_eq]
    intro x hx
    rcases List.mem_append.mp hx with hx | hx
    · have := hpre x hx
      omega
    rcases List.mem_cons.mp hx with rfl | hx
    · omega
    · exact Nat.ne_of_gt (hcpost x hx)
  have hlow : (pre ++ b :: post).filter (fun x => x.addr < c.addr) = pre ++ [b] := by
    have hfpre : pre.filter (fun x => x.addr < c.addr) = pre :=
      List.filter_eq_self.mpr (fun x hx => by have := hpre x hx; simp only [decide_eq_true_eq]; omega)
    have hfpost : post.filter (fun x => x.addr < c.addr) = [] :=
      List.filter_eq_nil_iff.mpr (fun y hy => by simpa using Nat.le_of_lt (hcpost y hy))
    simp [List.filter_append, hfpre, hfpost, hbc]
  have hhigh : (pre ++ b :: post).filter (fun x => c.addr < x.addr) = post := by
    have hfpre : pre.filter (fun x => c.addr < x.addr) = [] :=
      List.filter_eq_nil_iff.mpr (fun x hx => by have := hpre x hx; simp only [decide_eq_true_eq]; omega)
    have hfpost : post.filter (fun x => c.addr < x.addr) = post :=
      List.filter_eq_self.mpr (fun y hy => by simpa using hcpost y hy)
    simp [List.filter_append, hfpre, hfpost, Nat.not_lt.mpr (Nat.le_of_lt hbc)]
  rw [Blocks.insert, hfresh, if_neg Bool.false_ne_true, hlow, hhigh]
  simp

theorem floor (h : AddrSorted (pre ++ b :: post)) {addr : Nat} (hb : b.addr ≤ addr)
    (hpost : ∀ y ∈ post, addr < y.addr) : Blocks.floor (pre ++ b :: post) addr = some b := by
  obtain ⟨hpre, -⟩ := h.split
  have hfpre : pre.filter (fun x => x.addr ≤ addr) = pre :=
    List.filter_eq_self.mpr (fun x hx => by have := hpre x hx; simp only [decide_eq_true_eq]; omega)
  have hfpost : post.filter (fun x => x.addr ≤ addr) = [] :=
    List.filter_eq_nil_iff.mpr (fun y hy => by simpa using hpost y hy)
  simp [Blocks.floor, List.filter_append, hfpre, hfpost, hb]

end AddrSorted

end SandboxedApi

import Mathlib.Tactic.SplitIfs
import SandboxedApi.Elf.Parser

namespace SandboxedApi

namespace ElfParser

variable {α β : Type}

def Safe (x : ElfM α) (post : α → Prop) : Prop :=
  Machine.Triple (fun _ => True) x (fun a _ => post a) (fun e _ => e ≠ .fault)

def NoFault (x : ElfM α) : Prop := ∀ p p', x.run p ≠ .error .fault p'

def nameAt (strtab : List UInt8) (offset : Nat) : List UInt8 :=
  (strtab.drop offset).takeWhile (· ≠ 0)

def TableName (strtab name : List UInt8) : Prop :=
  ∃ offset < strtab.length, name = nameAt strtab offset

variable {x : ElfM α} {post post' : α → Prop}

theorem Safe.noFault (h : Safe x post) : NoFault x :=
  fun _ _ hrun => h.error trivial hrun rfl

theorem safe_of_noFault (h : NoFault x) : Safe x (fun _ => True) :=
  Machine.Triple.of_run fun p _ =>
    ⟨fun _ _ _ => trivial, fun _ p' hrun hfault => h p p' (hfault ▸ hrun)⟩

theorem Safe.mono (h : Safe x post) (hpost : ∀ a, post a → post' a) : Safe x post' :=
  Machine.Triple.mono h (fun _ hs => hs) (fun a _ ha => hpost a ha) (fun _ _ he => he)

theorem Safe.bind {f : α → ElfM β} {mid : α → Prop} {post : β → Prop} (hx : Safe x mid)
    (hf : ∀ a, mid a → Safe (f a) post) : Safe (x >>= f) post :=
  Machine.Triple.bind hx fun a s hs => hf a hs s trivial

theorem safe_pure {a : α} (h : post a) : Safe (pure a) post :=
  Machine.triple_pure a fun _ _ => h

theorem safe_fail {code : StatusCode} {message : String} : Safe (fail code message : ElfM α) post :=
  Machine.triple_throw _ fun _ _ => ElfError.noConfusion

theorem safe_ite {c : Prop} [Decidable c] {y : ElfM α} (hx : c → Safe x post)
    (hy : ¬ c → Safe y post) : Safe (if c then x else y) post :=
  Machine.triple_ite hx hy

theorem safe_dite {c : Prop} [Decidable c] {x : c → ElfM α} {y : ¬ c → ElfM α}
    (hx : ∀ h, Safe (x h) post) (hy : ∀ h, Safe (y h) post) :
    Safe (if h : c then x h else y h) post :=
  Machine.triple_dite hx hy

theorem safe_get : Safe (get : ElfM ElfParser) (fun _ => True) :=
  Machine.triple_get fun _ _ => trivial

theorem safe_modify {f : ElfParser → ElfParser} : Safe (modify f : ElfM PUnit) (fun _ => True) :=
  Machine.triple_modify fun _ _ => trivial

theorem safe_substr {s : List UInt8} {pos : Nat} (count : Nat) (h : pos ≤ s.length) :
    Safe (substr s pos count) (fun r => r = (s.drop pos).take count) := by
  unfold substr
  rw [if_neg (Nat.not_lt.mpr h)]
  exact safe_pure rfl

theorem safe_byteAt {s : List UInt8} {i : Nat} (h : i < s.length) :
    Safe (byteAt s i) (fun _ => True) := by
  unfold byteAt
  rw [List.getElem?_eq_getElem h]
  exact safe_pure trivial

theorem safe_vectorAt {γ : Type} {v : List γ} {i : Nat} (h : i < v.length) :
    Safe (vectorAt v i) (fun a => v[i]? = some a) := by
  unfold vectorAt
  rw [List.getElem?_eq_getElem h]
  exact safe_pure rfl

theorem safe_load {src : List UInt8} {off width : Nat} (h : off + width ≤ src.length) :
    Safe (load src off width) (fun _ => True) := by
  intro p _
  simp only [EStateM.run, load, if_pos h]

theorem Safe.load_bind {src : List UInt8} {off width : Nat} {f : Nat → ElfM α}
    (h : off + width ≤ src.length) (hf : ∀ v, Safe (f v) post) :
    Safe (load src off width >>= f) post :=
  Safe.bind (safe_load h) fun v _ => hf v

theorem safe_readString {strtab : List UInt8} {offset : Nat} (h : offset ≤ strtab.length) :
    Safe (readString offset strtab) (fun name => name = nameAt strtab offset) := by
  refine Safe.bind (safe_substr strtab.length h) fun str hstr => safe_pure ?_
  rw [hstr, List.take_of_length_le (by simp)]
  rfl

theorem readLoop_eq (file : List UInt8) (pos remaining : Nat) :
    readLoop file pos remaining =
      if remaining = 0 ∨ pos + remaining ≤ file.length then .ok ((file.drop pos).take remaining)
      else .error ⟨.outOfRange, "failed to read (EOF)"⟩ := by
  induction remaining using Nat.strongRecOn generalizing pos with
  | ind remaining ih =>
    rw [readLoop]
    by_cases hzero : remaining = 0
    · subst hzero
      simp
    · rw [dif_neg hzero]
      dsimp only
      by_cases hend : min remaining (file.length - pos) = 0
      · rw [dif_pos hend]
        have hpast : ¬ pos + remaining ≤ file.length := by omega
        simp [hzero, hpast]
      · rw [dif_neg hend, ih _ (by omega)]
        by_cases hfit : pos + remaining ≤ file.length
        · -- one `read` gets it all
          have hall : min remaining (file.length - pos) = remaining := by omega
          simp [hall, hfit, Except.map]
        · -- the first `read` stops at the end, and the next one finds nothing
          have hsome : min remaining (file.length - pos) = file.length - pos := by omega
          have hpast : ¬ (remaining - (file.length - pos) = 0 ∨
              pos + (file.length - pos) + (remaining - (file.length - pos)) ≤ file.length) := by
            omega
          rw [hsome, if_neg hpast, if_neg (by omega)]
          rfl

theorem readData_ok {offset size : Nat} {p p' : ElfParser} {bytes : List UInt8}
    (h : (readData offset size).run p = .ok bytes p') :
    p' = p ∧ bytes = (p.file.drop offset).take size ∧ (size = 0 ∨ offset + size ≤ p.file.length) := by
  simp only [EStateM.run, readData] at h
  split at h
  · cases h
  · split at h
    · split at h
      · cases h
      · rename_i hbounds
        simp only [substr] at h
        rw [if_neg (by omega)] at h
        cases h
        exact ⟨rfl, rfl, Or.inr (by omega)⟩
    · split at h
      · cases h
      · rw [readLoop_eq] at h
        by_cases hfit : size = 0 ∨ offset + size ≤ p.file.length
        · rw [if_pos hfit] at h
          cases h
          exact ⟨rfl, rfl, hfit⟩
        · rw [if_neg hfit] at h
          cases h

theorem readData_mmap_ok_iff {offset size : Nat} {p p' : ElfParser} {bytes : List UInt8}
    (hmmap : p.mmapFile = true) :
    (readData offset size).run p = .ok bytes p' ↔
      size ≤ kMaxDataSize ∧ offset < p.file.length ∧ offset + size ≤ p.file.length ∧
        bytes = (p.file.drop offset).take size ∧ p' = p := by
  simp only [EStateM.run, readData, hmmap, if_true]
  by_cases hsize : size > kMaxDataSize
  · rw [if_pos hsize]
    simp only [reduceCtorEq, false_iff]
    omega
  · by_cases hbounds : offset ≥ p.file.length ∨ size > p.file.length ∨ offset + size > p.file.length
    · rw [if_neg hsize, if_pos hbounds]
      simp only [reduceCtorEq, false_iff]
      omega
    · rw [if_neg hsize, if_neg hbounds]
      simp only [substr, if_neg (show ¬ offset > p.file.length by omega)]
      constructor
      · intro h
        cases h
        exact ⟨by omega, by omega, by omega, rfl, rfl⟩
      · rintro ⟨-, -, -, rfl, rfl⟩
        rfl

theorem readData_read_ok_iff {offset size : Nat} {p p' : ElfParser} {bytes : List UInt8}
    (hread : p.mmapFile = false) :
    (readData offset size).run p = .ok bytes p' ↔
      size ≤ kMaxDataSize ∧ offset < 2 ^ 63 ∧ (size = 0 ∨ offset + size ≤ p.file.length) ∧
        bytes = (p.file.drop offset).take size ∧ p' = p := by
  simp only [EStateM.run, readData, hread, Bool.false_eq_true, if_false]
  by_cases hsize : size > kMaxDataSize
  · rw [if_pos hsize]
    simp only [reduceCtorEq, false_iff]
    omega
  · by_cases hoffset : offset ≥ 2 ^ 63
    · rw [if_neg hsize, if_pos hoffset]
      simp only [reduceCtorEq, false_iff]
      omega
    · rw [if_neg hsize, if_neg hoffset, readLoop_eq]
      by_cases hfit : size = 0 ∨ offset + size ≤ p.file.length
      · rw [if_pos hfit]
        constructor
        · intro h
          cases h
          exact ⟨by omega, by omega, hfit, rfl, rfl⟩
        · rintro ⟨-, -, -, rfl, rfl⟩
          rfl
      · rw [if_neg hfit]
        simp only [reduceCtorEq, false_iff]
        intro ⟨_, _, hfit', _⟩
        exact hfit hfit'

/-- `ReadData` on a mapped file agrees with `ReadData` by `read` on every file below `2^63`
bytes: what the mapping returns, `read` returns too, and `read` returns more only for an empty
range at or past the end of the file. -/
theorem readData_mmap_agrees_read (p : ElfParser) (offset size : Nat) (bytes : List UInt8)
    (hfile : p.file.length < 2 ^ 63) :
    ((readData offset size).run { p with mmapFile := true } = .ok bytes { p with mmapFile := true } →
      (readData offset size).run { p with mmapFile := false } = .ok bytes { p with mmapFile := false }) ∧
    ((readData offset size).run { p with mmapFile := false } = .ok bytes { p with mmapFile := false } →
      (readData offset size).run { p with mmapFile := true } = .ok bytes { p with mmapFile := true } ∨
        size = 0 ∧ p.file.length ≤ offset ∧ bytes = []) := by
  constructor
  · intro h
    obtain ⟨hsize, hoffset, hend, hbytes, -⟩ := (readData_mmap_ok_iff rfl).mp h
    exact (readData_read_ok_iff rfl).mpr ⟨hsize, by simp only at hoffset; omega, Or.inr hend, hbytes, rfl⟩
  · intro h
    obtain ⟨hsize, hoffset, hfit, hbytes, -⟩ := (readData_read_ok_iff rfl).mp h
    by_cases hinside : offset < p.file.length ∧ offset + size ≤ p.file.length
    · exact .inl ((readData_mmap_ok_iff rfl).mpr ⟨hsize, hinside.1, hinside.2, hbytes, rfl⟩)
    · -- only an empty range can start at or past the end
      have hzero : size = 0 := by
        simp only at hfit hinside
        omega
      subst hzero
      refine .inr ⟨rfl, by omega, ?_⟩
      simpa using hbytes

theorem readData_mmap_agrees_read_tail :
    (empty [1, 2, 3] false).file.length < 2 ^ 63 ∧
    ((readData 1 2).run { empty [1, 2, 3] false with mmapFile := true } =
        .ok [2, 3] { empty [1, 2, 3] false with mmapFile := true } →
      (readData 1 2).run { empty [1, 2, 3] false with mmapFile := false } =
        .ok [2, 3] { empty [1, 2, 3] false with mmapFile := false }) ∧
    ((readData 1 2).run { empty [1, 2, 3] false with mmapFile := false } =
        .ok [2, 3] { empty [1, 2, 3] false with mmapFile := false } →
      (readData 1 2).run { empty [1, 2, 3] false with mmapFile := true } =
        .ok [2, 3] { empty [1, 2, 3] false with mmapFile := true } ∨
        2 = 0 ∧ (empty [1, 2, 3] false).file.length ≤ 1 ∧ [(2 : UInt8), 3] = []) :=
  ⟨by decide, readData_mmap_agrees_read (empty [1, 2, 3] false) 1 2 [2, 3] (by decide)⟩

theorem readData_length {offset size : Nat} {p p' : ElfParser} {bytes : List UInt8}
    (h : (readData offset size).run p = .ok bytes p') : bytes.length = size := by
  obtain ⟨-, rfl, hfit⟩ := readData_ok h
  rcases hfit with rfl | hfit
  · simp
  · simp only [List.length_take, List.length_drop]
    omega

theorem readData_noFault (offset size : Nat) : NoFault (readData offset size) := by
  intro p p' h
  simp only [EStateM.run, readData] at h
  split at h
  · cases h
  · split at h
    · split at h
      · cases h
      · simp only [substr] at h
        rw [if_neg (by omega)] at h
        cases h
    · split at h
      · cases h
      · split at h <;> cases h

theorem safe_readData (offset size : Nat) :
    Safe (readData offset size) (fun bytes => bytes.length = size) :=
  Machine.Triple.of_run fun p _ =>
    ⟨fun _ _ hrun => readData_length hrun,
      fun _ p' hrun hfault => readData_noFault offset size p p' (hfault ▸ hrun)⟩

theorem safe_readFileHeader : Safe readFileHeader (fun _ => True) := by
  unfold readFileHeader
  refine Safe.bind (safe_readData 0 sizeofEhdr) fun header hlen => ?_
  have hin : ∀ off width : Nat, off + width ≤ 64 → off + width ≤ header.length := by
    intro off width h
    simp only [hlen, sizeofEhdr]
    exact h
  refine safe_ite (fun _ => safe_fail) fun _ => ?_
  refine Safe.bind (safe_byteAt (hin _ 1 (by decide))) fun _ _ => ?_
  refine safe_ite (fun _ => safe_fail) fun _ => ?_
  refine Safe.bind (safe_byteAt (hin _ 1 (by decide))) fun _ _ => ?_
  refine Safe.bind safe_modify fun _ _ => ?_
  refine safe_ite (fun _ => safe_fail) fun _ => ?_
  refine Safe.bind (safe_byteAt (hin _ 1 (by decide))) fun _ _ => ?_
  refine safe_ite (fun _ => safe_fail) fun _ => ?_
  repeat refine Safe.load_bind (hin _ _ (by decide)) fun _ => ?_
  exact safe_modify

theorem safe_readSectionHeader (src : List UInt8) : Safe (readSectionHeader src) (fun _ => True) := by
  unfold readSectionHeader
  refine safe_ite (fun _ => safe_fail) fun hlen => ?_
  simp only [sizeofShdr, Nat.not_lt] at hlen
  repeat refine Safe.load_bind (by omega) fun _ => ?_
  exact safe_pure trivial

theorem safe_readProgramHeader (src : List UInt8) : Safe (readProgramHeader src) (fun _ => True) := by
  unfold readProgramHeader
  refine safe_ite (fun _ => safe_fail) fun hlen => ?_
  simp only [sizeofPhdr, Nat.not_lt] at hlen
  repeat refine Safe.load_bind (by omega) fun _ => ?_
  exact safe_pure trivial

theorem safe_readSectionHeadersLoop (entsize : Nat) :
    ∀ (count : Nat) (src : List UInt8), entsize * count ≤ src.length →
      Safe (readSectionHeadersLoop entsize count src) (fun _ => True)
  | 0, _, _ => safe_pure trivial
  | count + 1, src, hlen => by
    unfold readSectionHeadersLoop
    refine Safe.bind (safe_readSectionHeader src) fun _ _ => ?_
    rw [Nat.mul_succ] at hlen
    refine Safe.bind (safe_substr src.length (by omega)) fun rest hrest => ?_
    refine Safe.bind (safe_readSectionHeadersLoop entsize count rest ?_) fun _ _ => safe_pure trivial
    rw [hrest, List.length_take, List.length_drop]
    omega

theorem safe_readProgramHeadersLoop (entsize : Nat) :
    ∀ (count : Nat) (src : List UInt8), entsize * count ≤ src.length →
      Safe (readProgramHeadersLoop entsize count src) (fun _ => True)
  | 0, _, _ => safe_pure trivial
  | count + 1, src, hlen => by
    unfold readProgramHeadersLoop
    refine Safe.bind (safe_readProgramHeader src) fun _ _ => ?_
    rw [Nat.mul_succ] at hlen
    refine Safe.bind (safe_substr src.length (by omega)) fun rest hrest => ?_
    refine Safe.bind (safe_readProgramHeadersLoop entsize count rest ?_) fun _ _ => safe_pure trivial
    rw [hrest, List.length_take, List.length_drop]
    omega

theorem safe_readSectionHeaders : Safe readSectionHeaders (fun _ => True) := by
  unfold readSectionHeaders
  refine Safe.bind safe_get fun p _ => ?_
  refine safe_ite (fun _ => safe_pure trivial) fun _ => ?_
  refine safe_ite (fun _ => safe_fail) fun _ => ?_
  refine safe_ite (fun _ => safe_fail) fun _ => ?_
  refine Safe.bind (safe_readData _ _) fun headers hlen => ?_
  exact Safe.bind (safe_readSectionHeadersLoop _ _ _ (Nat.le_of_eq hlen.symm)) fun _ _ => safe_modify

theorem safe_readProgramHeaders : Safe readProgramHeaders (fun _ => True) := by
  unfold readProgramHeaders
  refine Safe.bind safe_get fun p _ => ?_
  refine safe_ite (fun _ => safe_pure trivial) fun _ => ?_
  refine safe_ite (fun _ => safe_fail) fun _ => ?_
  refine safe_ite (fun _ => safe_fail) fun _ => ?_
  refine Safe.bind (safe_readData _ _) fun headers hlen => ?_
  exact Safe.bind (safe_readProgramHeadersLoop _ _ _ (Nat.le_of_eq hlen.symm)) fun _ _ => safe_modify

theorem safe_readSectionContents (hdr : ElfShdr) :
    Safe (readSectionContents hdr) (fun bytes => bytes.length = hdr.shSize) :=
  safe_readData hdr.shOffset hdr.shSize

theorem safe_readSectionContentsIdx (idx : Nat) :
    Safe (readSectionContentsIdx idx) (fun _ => True) := by
  unfold readSectionContentsIdx
  refine Safe.bind safe_get fun p _ => ?_
  refine safe_ite (fun _ => safe_fail) fun hidx => ?_
  exact Safe.bind (safe_vectorAt (by omega)) fun hdr _ =>
    (safe_readSectionContents hdr).mono fun _ _ => trivial

theorem safe_forEachSectionLoop {callback : β → List UInt8 → ElfShdr → ElfM β}
    {strtab : List UInt8}
    (hcb : ∀ acc hdr, hdr.shName < strtab.length →
      NoFault (callback acc (nameAt strtab hdr.shName) hdr)) :
    ∀ (hdrs : List ElfShdr) (acc : β), Safe (forEachSectionLoop callback strtab hdrs acc) (fun _ => True)
  | [], _ => safe_pure trivial
  | hdr :: hdrs, acc => by
    unfold forEachSectionLoop
    refine safe_ite (fun _ => safe_fail) fun hname => ?_
    have hlt : hdr.shName < strtab.length := Nat.lt_of_not_ge hname
    refine Safe.bind (safe_readString (Nat.le_of_lt hlt)) fun name hname' => ?_
    subst hname'
    exact Safe.bind (safe_of_noFault (hcb acc hdr hlt)) fun acc' _ =>
      safe_forEachSectionLoop hcb hdrs acc'

theorem noFault_forEachSection {callback : β → List UInt8 → ElfShdr → ElfM β}
    (hcb : ∀ acc strtab hdr, hdr.shName < strtab.length →
      NoFault (callback acc (nameAt strtab hdr.shName) hdr)) (init : β) :
    NoFault (forEachSection callback init) := by
  suffices h : Safe (forEachSection callback init) (fun _ => True) from h.noFault
  unfold forEachSection
  refine Safe.bind safe_readSectionHeaders fun _ _ => Safe.bind safe_get fun p _ => ?_
  refine Safe.bind (safe_readSectionContentsIdx _) fun strtab _ => Safe.bind safe_get fun q _ => ?_
  exact safe_forEachSectionLoop (hcb · strtab) q.sectionHeaders init

theorem safe_forEachProgramLoop {callback : β → ElfPhdr → ElfM β}
    (hcb : ∀ acc hdr, NoFault (callback acc hdr)) :
    ∀ (hdrs : List ElfPhdr) (acc : β), Safe (forEachProgramLoop callback hdrs acc) (fun _ => True)
  | [], _ => safe_pure trivial
  | hdr :: hdrs, acc => by
    unfold forEachProgramLoop
    exact Safe.bind (safe_of_noFault (hcb acc hdr)) fun acc' _ => safe_forEachProgramLoop hcb hdrs acc'

theorem noFault_forEachProgram {callback : β → ElfPhdr → ElfM β}
    (hcb : ∀ acc hdr, NoFault (callback acc hdr)) (init : β) :
    NoFault (forEachProgram callback init) := by
  suffices h : Safe (forEachProgram callback init) (fun _ => True) from h.noFault
  unfold forEachProgram
  exact Safe.bind safe_readProgramHeaders fun _ _ => Safe.bind safe_get fun p _ =>
    safe_forEachProgramLoop hcb p.programHeaders init

theorem safe_readInterpreter : Safe readInterpreter (fun _ => True) := by
  unfold readInterpreter
  refine Safe.bind safe_readProgramHeaders fun _ _ => Safe.bind safe_get fun p _ => ?_
  split
  · exact safe_pure trivial
  · refine safe_ite (fun _ => safe_fail) fun _ => ?_
    exact Safe.bind (safe_readData _ _) fun interpreter _ =>
      (safe_readString (Nat.zero_le interpreter.length)).mono fun _ _ => trivial

theorem safe_readSymbolsLoop {entsize : Nat} (hent : 0 < entsize) (hsize : entsize = sizeofSym)
    (strtab src : List UInt8) (hdiv : src.length % entsize = 0) :
    Safe (readSymbolsLoop entsize hent strtab src) (fun syms => ∀ sym ∈ syms, TableName strtab sym.2) := by
  rw [readSymbolsLoop]
  refine safe_dite (fun _ => safe_pure (by simp)) fun hsrc => ?_
  have hpos := List.length_pos_iff.mpr hsrc
  subst hsize
  simp only [sizeofSym] at hdiv ⊢
  have hentry : 24 ≤ src.length := by omega
  repeat refine Safe.load_bind (by omega) fun _ => ?_
  have hnext : Safe (if _hlen : 24 > src.length then throw .fault
      else readSymbolsLoop 24 hent strtab (src.drop 24))
      (fun syms => ∀ sym ∈ syms, TableName strtab sym.2) := by
    rw [dif_neg (by omega)]
    exact safe_readSymbolsLoop hent rfl strtab (src.drop 24) (by simp only [List.length_drop, sizeofSym]; omega)
  refine safe_ite (fun _ => hnext) fun _ => safe_ite (fun _ => hnext) fun _ => ?_
  refine Safe.bind safe_get fun p _ => ?_
  refine safe_ite (fun _ => safe_fail) fun _ => safe_ite (fun _ => safe_fail) fun hname => ?_
  have hlt := Nat.lt_of_not_ge hname
  refine Safe.bind (safe_readString (Nat.le_of_lt hlt)) fun name hname' => ?_
  refine Safe.bind hnext fun rest hrest => safe_pure ?_
  intro sym hsym
  rcases List.mem_cons.mp hsym with rfl | hsym
  · exact ⟨_, hlt, hname'⟩
  · exact hrest sym hsym
termination_by src.length
decreasing_by
  simp only [List.length_drop]
  omega

theorem safe_readDynamicLoop {entsize : Nat} (hent : 0 < entsize) (hsize : entsize = sizeofDyn)
    (strtab src : List UInt8) (hdiv : src.length % entsize = 0) :
    Safe (readDynamicLoop entsize hent strtab src) (fun paths => ∀ path ∈ paths, TableName strtab path) := by
  rw [readDynamicLoop]
  refine safe_dite (fun _ => safe_pure (by simp)) fun hsrc => ?_
  have hpos := List.length_pos_iff.mpr hsrc
  subst hsize
  simp only [sizeofDyn] at hdiv ⊢
  have hentry : 16 ≤ src.length := by omega
  repeat refine Safe.load_bind (by omega) fun _ => ?_
  have hnext : Safe (if _hlen : 16 > src.length then throw .fault
      else readDynamicLoop 16 hent strtab (src.drop 16))
      (fun paths => ∀ path ∈ paths, TableName strtab path) := by
    rw [dif_neg (by omega)]
    exact safe_readDynamicLoop hent rfl strtab (src.drop 16) (by simp only [List.length_drop, sizeofDyn]; omega)
  refine safe_ite (fun _ => hnext) fun _ => safe_ite (fun _ => safe_fail) fun hname => ?_
  have hlt := Nat.lt_of_not_ge hname
  refine Safe.bind (safe_readString (Nat.le_of_lt hlt)) fun path hpath => ?_
  refine Safe.bind hnext fun rest hrest => safe_pure ?_
  intro path' hmem
  rcases List.mem_cons.mp hmem with rfl | hmem
  · exact ⟨_, hlt, hpath⟩
  · exact hrest path' hmem
termination_by src.length
decreasing_by
  simp only [List.length_drop]
  omega

theorem safe_readSymbolsFromSymtab (symtab : ElfShdr) :
    Safe (readSymbolsFromSymtab symtab) (fun _ => True) := by
  unfold readSymbolsFromSymtab
  refine safe_ite (fun _ => safe_fail) fun _ => safe_dite (fun _ => safe_fail) fun hent => ?_
  refine safe_ite (fun _ => safe_fail) fun hdiv => ?_
  refine Safe.bind safe_get fun p _ => ?_
  refine safe_ite (fun _ => safe_fail) fun _ => Safe.bind safe_modify fun _ _ => ?_
  refine safe_ite (fun _ => safe_fail) fun _ => ?_
  refine Safe.bind (safe_readSectionContentsIdx _) fun strtab _ => ?_
  refine Safe.bind (safe_readSectionContents symtab) fun symbols hlen => ?_
  have hsize : symtab.shEntsize = sizeofSym := Decidable.of_not_not hent
  refine (safe_readSymbolsLoop _ hsize strtab symbols ?_).mono fun _ _ => trivial
  rw [hlen]
  exact Decidable.of_not_not hdiv

theorem safe_readImportedLibrariesFromDynamic (dynamic : ElfShdr) :
    Safe (readImportedLibrariesFromDynamic dynamic) (fun _ => True) := by
  unfold readImportedLibrariesFromDynamic
  refine safe_ite (fun _ => safe_fail) fun _ => safe_dite (fun _ => safe_fail) fun hent => ?_
  refine safe_ite (fun _ => safe_fail) fun hdiv => ?_
  refine Safe.bind safe_get fun p _ => ?_
  refine safe_ite (fun _ => safe_fail) fun _ => Safe.bind safe_modify fun _ _ => ?_
  refine safe_ite (fun _ => safe_fail) fun hlink => ?_
  refine Safe.bind (safe_vectorAt (Nat.lt_of_not_ge hlink)) fun strtabSection _ => ?_
  refine Safe.bind (safe_readSectionContents strtabSection) fun strtab _ => ?_
  refine Safe.bind (safe_readSectionContents dynamic) fun entries hlen => ?_
  have hsize : dynamic.shEntsize = sizeofDyn := Decidable.of_not_not hent
  refine (safe_readDynamicLoop _ hsize strtab entries ?_).mono fun _ _ => trivial
  rw [hlen]
  exact Decidable.of_not_not hdiv

theorem noFault_readImportedLibraries : NoFault readImportedLibraries := by
  refine noFault_forEachSection (fun result _ hdr _ => ?_) []
  have hcallback : Safe (if hdr.shType = shtDynamic then
      readImportedLibrariesFromDynamic hdr >>= fun paths => pure (result ++ paths)
    else pure result) (fun _ => True) :=
    safe_ite (fun _ => Safe.bind (safe_readImportedLibrariesFromDynamic hdr) fun _ _ => safe_pure trivial)
      fun _ => safe_pure trivial
  exact hcallback.noFault

theorem readSectionContentsIdx_ok {idx : Nat} {p p' : ElfParser} {bytes : List UInt8}
    (h : (readSectionContentsIdx idx).run p = .ok bytes p') :
    p' = p ∧ ∃ hdr, p.sectionHeaders[idx]? = some hdr ∧
      bytes = (p.file.drop hdr.shOffset).take hdr.shSize := by
  obtain ⟨q, p₁, hget, h⟩ := Machine.run_bind_eq_ok h
  cases hget
  by_cases hidx : idx ≥ p.sectionHeaders.length
  · rw [if_pos hidx] at h
    cases h
  · rw [if_neg hidx] at h
    obtain ⟨hdr, p₂, hat, h⟩ := Machine.run_bind_eq_ok h
    simp only [vectorAt, List.getElem?_eq_getElem (Nat.lt_of_not_ge hidx)] at hat
    cases hat
    obtain ⟨rfl, rfl, -⟩ := readData_ok h
    exact ⟨rfl, _, List.getElem?_eq_getElem (Nat.lt_of_not_ge hidx), rfl⟩

theorem readSymbolsFromSymtab_names {symtab : ElfShdr} {p p' : ElfParser}
    {syms : List (Nat × List UInt8)} (h : (readSymbolsFromSymtab symtab).run p = .ok syms p') :
    ∃ link, p.sectionHeaders[symtab.shLink]? = some link ∧
      ∀ sym ∈ syms, TableName ((p.file.drop link.shOffset).take link.shSize) sym.2 := by
  unfold readSymbolsFromSymtab at h
  dsimp only at h
  split_ifs at h with htype hent hdiv
  · cases h
  · cases h
  · cases h
  · obtain ⟨q, p₁, hget, h⟩ := Machine.run_bind_eq_ok h
    cases hget
    split_ifs at h with hcount hlink
    · cases h
    · obtain ⟨_, p₂, -, h⟩ := Machine.run_bind_eq_ok h
      cases h
    · obtain ⟨_, p₂, hmod, h⟩ := Machine.run_bind_eq_ok h
      cases hmod
      obtain ⟨strtab, p₃, hstrtab, h⟩ := Machine.run_bind_eq_ok h
      obtain ⟨rfl, link, hlink', rfl⟩ := readSectionContentsIdx_ok hstrtab
      obtain ⟨symbols, p₄, hsymbols, h⟩ := Machine.run_bind_eq_ok h
      have hlen := readData_length hsymbols
      have hsize : symtab.shEntsize = sizeofSym := Decidable.of_not_not hent
      exact ⟨link, hlink', (safe_readSymbolsLoop _ hsize _ symbols
        (by rw [hlen]; exact Decidable.of_not_not hdiv)).ok trivial h⟩

theorem readImportedLibrariesFromDynamic_names {dynamic : ElfShdr} {p p' : ElfParser}
    {paths : List (List UInt8)} (h : (readImportedLibrariesFromDynamic dynamic).run p = .ok paths p') :
    ∃ link, p.sectionHeaders[dynamic.shLink]? = some link ∧
      ∀ path ∈ paths, TableName ((p.file.drop link.shOffset).take link.shSize) path := by
  unfold readImportedLibrariesFromDynamic at h
  dsimp only at h
  split_ifs at h with htype hent hdiv
  · cases h
  · cases h
  · cases h
  · obtain ⟨q, p₁, hget, h⟩ := Machine.run_bind_eq_ok h
    cases hget
    split_ifs at h with hcount hlink
    · cases h
    · obtain ⟨_, p₂, -, h⟩ := Machine.run_bind_eq_ok h
      cases h
    · obtain ⟨_, p₂, hmod, h⟩ := Machine.run_bind_eq_ok h
      cases hmod
      have hlt := Nat.lt_of_not_ge hlink
      obtain ⟨link, p₃, hat, h⟩ := Machine.run_bind_eq_ok h
      simp only [vectorAt, List.getElem?_eq_getElem hlt] at hat
      cases hat
      obtain ⟨strtab, p₄, hstrtab, h⟩ := Machine.run_bind_eq_ok h
      obtain ⟨rfl, rfl, -⟩ := readData_ok hstrtab
      obtain ⟨entries, p₅, hentries, h⟩ := Machine.run_bind_eq_ok h
      have hlen := readData_length hentries
      have hsize : dynamic.shEntsize = sizeofDyn := Decidable.of_not_not hent
      exact ⟨_, List.getElem?_eq_getElem hlt, (safe_readDynamicLoop _ hsize _ entries
        (by rw [hlen]; exact Decidable.of_not_not hdiv)).ok trivial h⟩

theorem create_ne_fault (filename : String) (file : List UInt8) (mmapFile : Bool) :
    create filename file mmapFile ≠ .error .fault := by
  unfold create
  split
  · simp
  · split
    · simp
    · rename_i e p hrun
      intro hfault
      cases hfault
      exact safe_readFileHeader.error trivial hrun rfl

/-- On every file, read or mapped, `Create` and every parse function run after it (from any
parser state) end in data or an error status and never in an access outside the bytes read:
every `ReadData` range lies inside the file, and every name comes from a string table at an
offset below its size. -/
theorem elfParser_robust (filename : String) (file : List UInt8) (mmapFile : Bool) :
    create filename file mmapFile ≠ .error .fault ∧
    NoFault readInterpreter ∧ NoFault readImportedLibraries ∧
    (∀ symtab, NoFault (readSymbolsFromSymtab symtab)) ∧
    (∀ {β : Type} (callback : β → List UInt8 → ElfShdr → ElfM β) (init : β),
      (∀ acc strtab hdr, hdr.shName < strtab.length →
        NoFault (callback acc (nameAt strtab hdr.shName) hdr)) →
      NoFault (forEachSection callback init)) ∧
    (∀ {β : Type} (callback : β → ElfPhdr → ElfM β) (init : β),
      (∀ acc hdr, NoFault (callback acc hdr)) → NoFault (forEachProgram callback init)) ∧
    (∀ offset size (p p' : ElfParser) bytes, (readData offset size).run p = .ok bytes p' →
      bytes = (p.file.drop offset).take size ∧ (size = 0 ∨ offset + size ≤ p.file.length)) ∧
    (∀ symtab (p p' : ElfParser) syms, (readSymbolsFromSymtab symtab).run p = .ok syms p' →
      ∃ link, p.sectionHeaders[symtab.shLink]? = some link ∧
        ∀ sym ∈ syms, TableName ((p.file.drop link.shOffset).take link.shSize) sym.2) ∧
    (∀ dynamic (p p' : ElfParser) paths,
      (readImportedLibrariesFromDynamic dynamic).run p = .ok paths p' →
      ∃ link, p.sectionHeaders[dynamic.shLink]? = some link ∧
        ∀ path ∈ paths, TableName ((p.file.drop link.shOffset).take link.shSize) path) :=
  ⟨create_ne_fault filename file mmapFile, safe_readInterpreter.noFault,
    noFault_readImportedLibraries, fun symtab => (safe_readSymbolsFromSymtab symtab).noFault,
    fun _ init hcb => noFault_forEachSection hcb init,
    fun _ init hcb => noFault_forEachProgram hcb init,
    fun _ _ _ _ _ h => (readData_ok h).2,
    fun _ _ _ _ h => readSymbolsFromSymtab_names h,
    fun _ _ _ _ h => readImportedLibrariesFromDynamic_names h⟩

end ElfParser

end SandboxedApi

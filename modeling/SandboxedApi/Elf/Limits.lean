import SandboxedApi.Elf.Safety

namespace SandboxedApi

namespace ElfParser

variable {α β : Type}

/-- `symbol_entries_read_` and `dynamic_entries_read_`. -/
def counters (p : ElfParser) : Nat × Nat := (p.symbolEntriesRead, p.dynamicEntriesRead)

def CountsWithin (n d : Nat) (c : Nat × Nat) : Prop :=
  n ≤ c.1 ∧ (c.1 : Int) ≤ kMaxSymbolEntries ∧ d ≤ c.2 ∧ (c.2 : Int) ≤ kMaxDynamicEntries

theorem CountsWithin.mono {n d n' d' : Nat} {c : Nat × Nat} (h : CountsWithin n d c) (hn : n' ≤ n)
    (hd : d' ≤ d) : CountsWithin n' d' c := by
  obtain ⟨h₁, h₂, h₃, h₄⟩ := h
  exact ⟨by omega, h₂, by omega, h₄⟩

theorem toSizeT_cap_sub {cap : Int} {read : Nat} (hread : (read : Int) ≤ cap) (hcap : cap < 2 ^ 64) :
    toSizeT (cap - read) = (cap - read).toNat := by
  unfold toSizeT
  rw [Int.emod_eq_of_lt (by omega) (by omega)]

theorem triple_fail {pre : ElfParser → Prop} {post : α → ElfParser → Prop}
    {err : ElfError → ElfParser → Prop} {code : StatusCode} {message : String}
    (h : ∀ s, pre s → err (.status ⟨code, message⟩) s) :
    Machine.Triple pre (fail code message) post err :=
  Machine.triple_throw _ h

theorem keeps_fail {f : ElfParser → β} (code : StatusCode) (message : String) :
    Machine.Keeps f (fail code message : ElfM α) :=
  Machine.keeps_throw _

theorem keeps_substr (s : List UInt8) (pos count : Nat) : Machine.Keeps id (substr s pos count) := by
  unfold substr
  exact Machine.Keeps.ite (Machine.keeps_throw _) (Machine.keeps_pure _)

theorem keeps_byteAt (s : List UInt8) (i : Nat) : Machine.Keeps id (byteAt s i) := by
  unfold byteAt
  split
  · exact Machine.keeps_pure _
  · exact Machine.keeps_throw _

theorem keeps_vectorAt {γ : Type} (v : List γ) (i : Nat) : Machine.Keeps id (vectorAt v i) := by
  unfold vectorAt
  split
  · exact Machine.keeps_pure _
  · exact Machine.keeps_throw _

theorem keeps_load (src : List UInt8) (off width : Nat) : Machine.Keeps id (load src off width) := by
  intro p
  simp only [EStateM.run, load]
  split <;> rfl

theorem keeps_readString (offset : Nat) (strtab : List UInt8) :
    Machine.Keeps id (readString offset strtab) :=
  (keeps_substr _ _ _).bind fun _ => Machine.keeps_pure _

theorem keeps_readData (offset size : Nat) : Machine.Keeps id (readData offset size) := by
  intro p
  simp only [EStateM.run, readData]
  split
  · rfl
  · split
    · split
      · rfl
      · exact keeps_substr _ _ _ p
    · split
      · rfl
      · split <;> rfl

theorem keeps_readSectionContents (hdr : ElfShdr) : Machine.Keeps id (readSectionContents hdr) :=
  keeps_readData _ _

theorem keeps_readSectionContentsIdx (idx : Nat) : Machine.Keeps id (readSectionContentsIdx idx) :=
  Machine.keeps_get.bind fun _ => Machine.Keeps.ite (keeps_fail _ _)
    ((keeps_vectorAt _ _).bind keeps_readSectionContents)

theorem keeps_readSectionHeader (src : List UInt8) : Machine.Keeps id (readSectionHeader src) := by
  unfold readSectionHeader
  refine Machine.Keeps.ite (keeps_fail _ _) ?_
  repeat refine (keeps_load _ _ _).bind fun _ => ?_
  exact Machine.keeps_pure _

theorem keeps_readProgramHeader (src : List UInt8) : Machine.Keeps id (readProgramHeader src) := by
  unfold readProgramHeader
  refine Machine.Keeps.ite (keeps_fail _ _) ?_
  repeat refine (keeps_load _ _ _).bind fun _ => ?_
  exact Machine.keeps_pure _

theorem keeps_readSectionHeadersLoop (entsize : Nat) :
    ∀ (count : Nat) (src : List UInt8), Machine.Keeps id (readSectionHeadersLoop entsize count src)
  | 0, _ => Machine.keeps_pure _
  | count + 1, src =>
    (keeps_readSectionHeader src).bind fun _ => (keeps_substr _ _ _).bind fun rest =>
      (keeps_readSectionHeadersLoop entsize count rest).bind fun _ => Machine.keeps_pure _

theorem keeps_readProgramHeadersLoop (entsize : Nat) :
    ∀ (count : Nat) (src : List UInt8), Machine.Keeps id (readProgramHeadersLoop entsize count src)
  | 0, _ => Machine.keeps_pure _
  | count + 1, src =>
    (keeps_readProgramHeader src).bind fun _ => (keeps_substr _ _ _).bind fun rest =>
      (keeps_readProgramHeadersLoop entsize count rest).bind fun _ => Machine.keeps_pure _

theorem keeps_readSymbolsLoop (entsize : Nat) (hent : 0 < entsize) (strtab src : List UInt8) :
    Machine.Keeps id (readSymbolsLoop entsize hent strtab src) := by
  rw [readSymbolsLoop]
  refine Machine.Keeps.dite (fun _ => Machine.keeps_pure _) fun hsrc => ?_
  repeat refine (keeps_load _ _ _).bind fun _ => ?_
  have hnext : Machine.Keeps id (if _hlen : entsize > src.length then throw .fault
      else readSymbolsLoop entsize hent strtab (src.drop entsize)) :=
    Machine.Keeps.dite (fun _ => Machine.keeps_throw _) fun _ =>
      keeps_readSymbolsLoop entsize hent strtab (src.drop entsize)
  refine Machine.Keeps.ite hnext (Machine.Keeps.ite hnext ?_)
  refine Machine.keeps_get.bind fun _ => Machine.Keeps.ite (keeps_fail _ _) ?_
  refine Machine.Keeps.ite (keeps_fail _ _) ?_
  exact (keeps_readString _ _).bind fun _ => hnext.bind fun _ => Machine.keeps_pure _
termination_by src.length
decreasing_by
  have := List.length_pos_iff.mpr hsrc
  simp only [List.length_drop]
  omega

theorem keeps_readDynamicLoop (entsize : Nat) (hent : 0 < entsize) (strtab src : List UInt8) :
    Machine.Keeps id (readDynamicLoop entsize hent strtab src) := by
  rw [readDynamicLoop]
  refine Machine.Keeps.dite (fun _ => Machine.keeps_pure _) fun hsrc => ?_
  repeat refine (keeps_load _ _ _).bind fun _ => ?_
  have hnext : Machine.Keeps id (if _hlen : entsize > src.length then throw .fault
      else readDynamicLoop entsize hent strtab (src.drop entsize)) :=
    Machine.Keeps.dite (fun _ => Machine.keeps_throw _) fun _ =>
      keeps_readDynamicLoop entsize hent strtab (src.drop entsize)
  refine Machine.Keeps.ite hnext (Machine.Keeps.ite (keeps_fail _ _) ?_)
  exact (keeps_readString _ _).bind fun _ => hnext.bind fun _ => Machine.keeps_pure _
termination_by src.length
decreasing_by
  have := List.length_pos_iff.mpr hsrc
  simp only [List.length_drop]
  omega

theorem keeps_readFileHeader : Machine.Keeps counters readFileHeader := by
  unfold readFileHeader
  refine (keeps_readData _ _).of_id.bind fun _ => Machine.Keeps.ite (keeps_fail _ _) ?_
  refine (keeps_byteAt _ _).of_id.bind fun _ => Machine.Keeps.ite (keeps_fail _ _) ?_
  refine (keeps_byteAt _ _).of_id.bind fun _ => Machine.Keeps.bind ?_ fun _ => ?_
  · exact Machine.keeps_modify fun _ => rfl
  refine Machine.Keeps.ite (keeps_fail _ _) ((keeps_byteAt _ _).of_id.bind fun _ => ?_)
  refine Machine.Keeps.ite (keeps_fail _ _) ?_
  repeat refine (keeps_load _ _ _).of_id.bind fun _ => ?_
  exact Machine.keeps_modify fun _ => rfl

theorem keeps_readSectionHeaders : Machine.Keeps counters readSectionHeaders := by
  unfold readSectionHeaders
  refine Machine.keeps_get.bind fun _ => Machine.Keeps.ite (Machine.keeps_pure _) ?_
  refine Machine.Keeps.ite (keeps_fail _ _) (Machine.Keeps.ite (keeps_fail _ _) ?_)
  exact (keeps_readData _ _).of_id.bind fun _ => (keeps_readSectionHeadersLoop _ _ _).of_id.bind
    fun _ => Machine.keeps_modify fun _ => rfl

theorem keeps_readProgramHeaders : Machine.Keeps counters readProgramHeaders := by
  unfold readProgramHeaders
  refine Machine.keeps_get.bind fun _ => Machine.Keeps.ite (Machine.keeps_pure _) ?_
  refine Machine.Keeps.ite (keeps_fail _ _) (Machine.Keeps.ite (keeps_fail _ _) ?_)
  exact (keeps_readData _ _).of_id.bind fun _ => (keeps_readProgramHeadersLoop _ _ _).of_id.bind
    fun _ => Machine.keeps_modify fun _ => rfl

theorem keeps_readInterpreter : Machine.Keeps counters readInterpreter := by
  unfold readInterpreter
  refine keeps_readProgramHeaders.bind fun _ => Machine.keeps_get.bind fun p => ?_
  split
  · exact Machine.keeps_pure _
  · exact Machine.Keeps.ite (keeps_fail _ _)
      ((keeps_readData _ _).of_id.bind fun _ => (keeps_readString _ _).of_id)

theorem create_counters {filename : String} {file : List UInt8} {mmapFile : Bool} {p : ElfParser}
    (h : create filename file mmapFile = .ok p) : counters p = (0, 0) := by
  unfold create at h
  split at h
  · cases h
  · split at h
    · rename_i hrun
      cases h
      exact keeps_readFileHeader.of_run_ok hrun
    · cases h

theorem readSymbolsLoop_length (entsize : Nat) (hent : 0 < entsize) (strtab src : List UInt8) :
    Machine.Triple (fun _ => True) (readSymbolsLoop entsize hent strtab src)
      (fun syms _ => syms.length * entsize ≤ src.length) (fun _ _ => True) := by
  rw [readSymbolsLoop]
  refine Machine.triple_dite (fun _ => Machine.triple_pure _ fun _ _ => by simp) fun hsrc => ?_
  repeat refine Machine.Triple.bind Machine.triple_true fun _ => ?_
  have hnext : Machine.Triple (fun _ => True) (if _hlen : entsize > src.length then throw .fault
      else readSymbolsLoop entsize hent strtab (src.drop entsize))
      (fun rest _ => rest.length * entsize + entsize ≤ src.length) (fun _ _ => True) := by
    refine Machine.triple_dite (fun _ => Machine.triple_throw _ fun _ _ => trivial) fun hlen => ?_
    refine (readSymbolsLoop_length entsize hent strtab (src.drop entsize)).mono (fun _ h => h)
      (fun rest _ h => ?_) (fun _ _ h => h)
    simp only [List.length_drop] at h
    omega
  refine Machine.triple_ite (fun _ => ?_) fun _ => Machine.triple_ite (fun _ => ?_) fun _ => ?_
  iterate 2 exact hnext.mono (fun _ h => h) (fun _ _ h => by omega) (fun _ _ h => h)
  refine Machine.Triple.bind Machine.triple_true fun _ => ?_
  refine Machine.triple_ite (fun _ => triple_fail fun _ _ => trivial) fun _ => ?_
  refine Machine.triple_ite (fun _ => triple_fail fun _ _ => trivial) fun _ => ?_
  refine Machine.Triple.bind Machine.triple_true fun _ => Machine.Triple.bind hnext fun rest => ?_
  exact Machine.triple_pure _ fun _ h => by rw [List.length_cons, Nat.succ_mul]; exact h
termination_by src.length
decreasing_by
  have := List.length_pos_iff.mpr hsrc
  simp only [List.length_drop]
  omega

theorem readDynamicLoop_length (entsize : Nat) (hent : 0 < entsize) (strtab src : List UInt8) :
    Machine.Triple (fun _ => True) (readDynamicLoop entsize hent strtab src)
      (fun paths _ => paths.length * entsize ≤ src.length) (fun _ _ => True) := by
  rw [readDynamicLoop]
  refine Machine.triple_dite (fun _ => Machine.triple_pure _ fun _ _ => by simp) fun hsrc => ?_
  repeat refine Machine.Triple.bind Machine.triple_true fun _ => ?_
  have hnext : Machine.Triple (fun _ => True) (if _hlen : entsize > src.length then throw .fault
      else readDynamicLoop entsize hent strtab (src.drop entsize))
      (fun rest _ => rest.length * entsize + entsize ≤ src.length) (fun _ _ => True) := by
    refine Machine.triple_dite (fun _ => Machine.triple_throw _ fun _ _ => trivial) fun hlen => ?_
    refine (readDynamicLoop_length entsize hent strtab (src.drop entsize)).mono (fun _ h => h)
      (fun rest _ h => ?_) (fun _ _ h => h)
    simp only [List.length_drop] at h
    omega
  refine Machine.triple_ite (fun _ => hnext.mono (fun _ h => h) (fun _ _ h => by omega) (fun _ _ h => h))
    fun _ => ?_
  refine Machine.triple_ite (fun _ => triple_fail fun _ _ => trivial) fun _ => ?_
  refine Machine.Triple.bind Machine.triple_true fun _ => Machine.Triple.bind hnext fun rest => ?_
  exact Machine.triple_pure _ fun _ h => by rw [List.length_cons, Nat.succ_mul]; exact h
termination_by src.length
decreasing_by
  have := List.length_pos_iff.mpr hsrc
  simp only [List.length_drop]
  omega

theorem readSymbolsFromSymtab_caps (symtab : ElfShdr) (n d : Nat) :
    Machine.Triple (fun p => CountsWithin n d (counters p)) (readSymbolsFromSymtab symtab)
      (fun syms p => CountsWithin (n + syms.length) d (counters p))
      (fun _ p => CountsWithin n d (counters p)) := by
  unfold readSymbolsFromSymtab
  refine Machine.triple_ite (fun _ => triple_fail fun _ h => h) fun _ => ?_
  refine Machine.triple_dite (fun _ => triple_fail fun _ h => h) fun hent => ?_
  refine Machine.triple_ite (fun _ => triple_fail fun _ h => h) fun _ => ?_
  refine Machine.triple_get_bind fun p hp => ?_
  refine Machine.triple_ite (fun _ => triple_fail fun _ h => h ▸ hp) fun hcount => ?_
  have hpos : 0 < symtab.shEntsize := by
    simp only [ne_eq, Decidable.not_not, sizeofSym] at hent
    omega
  have hread : n ≤ p.symbolEntriesRead ∧ (p.symbolEntriesRead : Int) ≤ kMaxSymbolEntries :=
    ⟨hp.1, hp.2.1⟩
  have hfit :
      (p.symbolEntriesRead : Int) + ↑(symtab.shSize / symtab.shEntsize) ≤ kMaxSymbolEntries := by
    rw [toSizeT_cap_sub hread.2 (by unfold kMaxSymbolEntries; omega)] at hcount
    omega
  have hc : CountsWithin (n + symtab.shSize / symtab.shEntsize) d
      (p.symbolEntriesRead + symtab.shSize / symtab.shEntsize, p.dynamicEntriesRead) :=
    ⟨by omega, by push_cast; omega, hp.2.2⟩
  refine Machine.Triple.bind (Machine.triple_modify fun s hs => ?_ : Machine.Triple _ _
    (fun _ s => counters s = (p.symbolEntriesRead + symtab.shSize / symtab.shEntsize,
      p.dynamicEntriesRead)) _) fun _ => ?_
  · rw [hs]
    rfl
  refine Machine.triple_ite (fun _ => triple_fail fun s hs =>
    hs ▸ hc.mono (Nat.le_add_right _ _) (Nat.le_refl _)) fun _ => ?_
  refine Machine.Triple.of_run fun s hs => ⟨fun syms s' hrun => ?_, fun e s' hrun => ?_⟩
  · obtain ⟨strtab, s₁, hstrtab, hrun⟩ := Machine.run_bind_eq_ok hrun
    obtain ⟨symbols, s₂, hsymbols, hrun⟩ := Machine.run_bind_eq_ok hrun
    have e₁ : s₁ = s := (keeps_readSectionContentsIdx _).of_run_ok hstrtab
    have e₂ : s₂ = s₁ := (keeps_readSectionContents _).of_run_ok hsymbols
    have e₃ : s' = s₂ := (keeps_readSymbolsLoop _ _ _ _).of_run_ok hrun
    have hlen := (readSymbolsLoop_length _ _ _ _).ok trivial hrun
    rw [readData_length hsymbols] at hlen
    have hsyms : syms.length ≤ symtab.shSize / symtab.shEntsize := (Nat.le_div_iff_mul_le hpos).mpr hlen
    rw [e₃, e₂, e₁, hs]
    exact hc.mono (Nat.add_le_add_left hsyms n) (Nat.le_refl _)
  · have e₁ : s' = s := ((keeps_readSectionContentsIdx _).bind fun _ =>
      (keeps_readSectionContents _).bind fun _ => keeps_readSymbolsLoop _ _ _ _).of_run_error hrun
    rw [e₁, hs]
    exact hc.mono (Nat.le_add_right _ _) (Nat.le_refl _)

theorem readImportedLibrariesFromDynamic_caps (dynamic : ElfShdr) (n d : Nat) :
    Machine.Triple (fun p => CountsWithin n d (counters p)) (readImportedLibrariesFromDynamic dynamic)
      (fun paths p => CountsWithin n (d + paths.length) (counters p))
      (fun _ p => CountsWithin n d (counters p)) := by
  unfold readImportedLibrariesFromDynamic
  refine Machine.triple_ite (fun _ => triple_fail fun _ h => h) fun _ => ?_
  refine Machine.triple_dite (fun _ => triple_fail fun _ h => h) fun hent => ?_
  refine Machine.triple_ite (fun _ => triple_fail fun _ h => h) fun _ => ?_
  refine Machine.triple_get_bind fun p hp => ?_
  refine Machine.triple_ite (fun _ => triple_fail fun _ h => h ▸ hp) fun hcount => ?_
  have hpos : 0 < dynamic.shEntsize := by
    simp only [ne_eq, Decidable.not_not, sizeofDyn] at hent
    omega
  have hread : d ≤ p.dynamicEntriesRead ∧ (p.dynamicEntriesRead : Int) ≤ kMaxDynamicEntries :=
    ⟨hp.2.2.1, hp.2.2.2⟩
  have hfit :
      (p.dynamicEntriesRead : Int) + ↑(dynamic.shSize / dynamic.shEntsize) ≤ kMaxDynamicEntries := by
    rw [toSizeT_cap_sub hread.2 (by unfold kMaxDynamicEntries; omega)] at hcount
    omega
  have hc : CountsWithin n (d + dynamic.shSize / dynamic.shEntsize)
      (p.symbolEntriesRead, p.dynamicEntriesRead + dynamic.shSize / dynamic.shEntsize) :=
    ⟨hp.1, hp.2.1, by omega, by push_cast; omega⟩
  refine Machine.Triple.bind (Machine.triple_modify fun s hs => ?_ : Machine.Triple _ _
    (fun _ s => counters s = (p.symbolEntriesRead,
      p.dynamicEntriesRead + dynamic.shSize / dynamic.shEntsize)) _) fun _ => ?_
  · rw [hs]
    rfl
  refine Machine.triple_ite (fun _ => triple_fail fun s hs =>
    hs ▸ hc.mono (Nat.le_refl _) (Nat.le_add_right _ _)) fun _ => ?_
  refine Machine.Triple.of_run fun s hs => ⟨fun paths s' hrun => ?_, fun e s' hrun => ?_⟩
  · obtain ⟨strtabSection, s₁, hat, hrun⟩ := Machine.run_bind_eq_ok hrun
    obtain ⟨strtab, s₂, hstrtab, hrun⟩ := Machine.run_bind_eq_ok hrun
    obtain ⟨entries, s₃, hentries, hrun⟩ := Machine.run_bind_eq_ok hrun
    have e₁ : s₁ = s := (keeps_vectorAt _ _).of_run_ok hat
    have e₂ : s₂ = s₁ := (keeps_readSectionContents _).of_run_ok hstrtab
    have e₃ : s₃ = s₂ := (keeps_readSectionContents _).of_run_ok hentries
    have e₄ : s' = s₃ := (keeps_readDynamicLoop _ _ _ _).of_run_ok hrun
    have hlen := (readDynamicLoop_length _ _ _ _).ok trivial hrun
    rw [readData_length hentries] at hlen
    have hpaths : paths.length ≤ dynamic.shSize / dynamic.shEntsize :=
      (Nat.le_div_iff_mul_le hpos).mpr hlen
    rw [e₄, e₃, e₂, e₁, hs]
    exact hc.mono (Nat.le_refl _) (Nat.add_le_add_left hpaths d)
  · have e₁ : s' = s := ((keeps_vectorAt _ _).bind fun _ => (keeps_readSectionContents _).bind fun _ =>
      (keeps_readSectionContents _).bind fun _ => keeps_readDynamicLoop _ _ _ _).of_run_error hrun
    rw [e₁, hs]
    exact hc.mono (Nat.le_refl _) (Nat.le_add_right _ _)

theorem triple_keeps_counters {x : ElfM α} {P F : Nat × Nat → Prop} (hx : Machine.Keeps counters x)
    (hF : ∀ c, P c → F c) :
    Machine.Triple (fun p => P (counters p)) x (fun _ p => P (counters p)) (fun _ p => F (counters p)) :=
  (Machine.Triple.of_keeps hx).mono (fun _ h => h) (fun _ _ h => h) (fun _ _ h => hF _ h)

theorem forEachSectionLoop_counts {callback : β → List UInt8 → ElfShdr → ElfM β}
    {strtab : List UInt8} (I : β → Nat × Nat → Prop) (F : Nat × Nat → Prop)
    (hF : ∀ acc c, I acc c → F c)
    (hcb : ∀ acc name hdr, Machine.Triple (fun p => I acc (counters p)) (callback acc name hdr)
      (fun acc' p => I acc' (counters p)) (fun _ p => F (counters p))) :
    ∀ (hdrs : List ElfShdr) (acc : β), Machine.Triple (fun p => I acc (counters p))
      (forEachSectionLoop callback strtab hdrs acc) (fun acc' p => I acc' (counters p))
      (fun _ p => F (counters p))
  | [], acc => Machine.triple_pure _ fun _ h => h
  | hdr :: hdrs, acc => by
    unfold forEachSectionLoop
    refine Machine.triple_ite (fun _ => triple_fail fun _ h => hF _ _ h) fun _ => ?_
    exact Machine.Triple.bind (triple_keeps_counters (keeps_readString _ _).of_id (hF acc)) fun name =>
      Machine.Triple.bind (hcb acc name hdr) fun acc' => forEachSectionLoop_counts I F hF hcb hdrs acc'

theorem forEachSection_counts {callback : β → List UInt8 → ElfShdr → ElfM β}
    (I : β → Nat × Nat → Prop) (F : Nat × Nat → Prop) (hF : ∀ acc c, I acc c → F c)
    (hcb : ∀ acc name hdr, Machine.Triple (fun p => I acc (counters p)) (callback acc name hdr)
      (fun acc' p => I acc' (counters p)) (fun _ p => F (counters p))) (init : β) :
    Machine.Triple (fun p => I init (counters p)) (forEachSection callback init)
      (fun acc p => I acc (counters p)) (fun _ p => F (counters p)) := by
  unfold forEachSection
  refine Machine.Triple.bind (triple_keeps_counters keeps_readSectionHeaders (hF init)) fun _ => ?_
  refine Machine.Triple.bind (triple_keeps_counters Machine.keeps_get (hF init)) fun _ => ?_
  refine Machine.Triple.bind
    (triple_keeps_counters (keeps_readSectionContentsIdx _).of_id (hF init)) fun strtab => ?_
  exact Machine.Triple.bind (triple_keeps_counters Machine.keeps_get (hF init)) fun p =>
    forEachSectionLoop_counts I F hF hcb p.sectionHeaders init

theorem collectSymbols_counts (n d : Nat) (symbols : List (Nat × List UInt8)) (name : List UInt8)
    (hdr : ElfShdr) :
    Machine.Triple (fun p => CountsWithin (n + symbols.length) d (counters p))
      (ElfFile.collectSymbols symbols name hdr)
      (fun symbols' p => CountsWithin (n + symbols'.length) d (counters p))
      (fun _ p => CountsWithin n d (counters p)) := by
  unfold ElfFile.collectSymbols
  refine Machine.triple_ite (fun _ => ?_) fun _ => Machine.triple_pure _ fun _ h => h
  refine Machine.Triple.bind ((readSymbolsFromSymtab_caps hdr _ d).mono (fun _ h => h) (fun _ _ h => h)
    fun _ _ h => h.mono (Nat.le_add_right _ _) (Nat.le_refl _)) fun found => ?_
  refine Machine.triple_pure _ fun _ h => ?_
  rwa [List.length_append, ← Nat.add_assoc]

theorem readImportedLibraries_caps (n d : Nat) :
    Machine.Triple (fun p => CountsWithin n d (counters p)) readImportedLibraries
      (fun paths p => CountsWithin n (d + paths.length) (counters p))
      (fun _ p => CountsWithin n d (counters p)) := by
  unfold readImportedLibraries
  refine forEachSection_counts (fun (paths : List (List UInt8)) c => CountsWithin n (d + paths.length) c)
    (CountsWithin n d)
    (fun _ _ h => h.mono (Nat.le_refl _) (Nat.le_add_right _ _)) (fun paths _ hdr => ?_) []
  refine Machine.triple_ite (fun _ => ?_) fun _ => Machine.triple_pure _ fun _ h => h
  refine Machine.Triple.bind ((readImportedLibrariesFromDynamic_caps hdr n _).mono (fun _ h => h)
    (fun _ _ h => h) fun _ _ h => h.mono (Nat.le_refl _) (Nat.le_add_right _ _)) fun found => ?_
  refine Machine.triple_pure _ fun _ h => ?_
  rwa [List.length_append, ← Nat.add_assoc]

theorem parse_caps (features : UInt32) (n d : Nat) :
    Machine.Triple (fun p => CountsWithin n d (counters p)) (ElfFile.parse features)
      (fun f p => CountsWithin (n + f.symbols.length) (d + f.importedLibraries.length) (counters p))
      (fun _ p => CountsWithin n d (counters p)) := by
  unfold ElfFile.parse
  refine Machine.triple_ite (fun _ => triple_fail fun _ h => h) fun _ => ?_
  refine Machine.Triple.bind (triple_keeps_counters Machine.keeps_get fun _ h => h) fun _ => ?_
  refine Machine.Triple.bind (triple_keeps_counters ?_ fun _ h => h) fun positionIndependent => ?_
  · exact Machine.Keeps.ite (Machine.keeps_pure _)
      (Machine.Keeps.ite (Machine.keeps_pure _) (keeps_fail _ _))
  refine Machine.Triple.bind (triple_keeps_counters
    (Machine.Keeps.ite keeps_readInterpreter (Machine.keeps_pure _)) fun _ h => h) fun interpreter => ?_
  refine Machine.Triple.bind (?_ : Machine.Triple _ _
    (fun symbols p => CountsWithin (n + symbols.length) d (counters p)) _) fun symbols => ?_
  · refine Machine.triple_ite (fun _ => ?_) fun _ => Machine.triple_pure _ fun _ h => h
    exact forEachSection_counts
      (fun (symbols : List (Nat × List UInt8)) c => CountsWithin (n + symbols.length) d c)
      (CountsWithin n d) (fun _ _ h => h.mono (Nat.le_add_right _ _) (Nat.le_refl _))
      (collectSymbols_counts n d) []
  refine Machine.Triple.bind (?_ : Machine.Triple _ _
    (fun libs p => CountsWithin (n + symbols.length) (d + libs.length) (counters p)) _)
    fun libs => Machine.triple_pure _ fun _ h => h
  refine Machine.triple_ite (fun _ => ?_) fun _ => Machine.triple_pure _ fun _ h => h
  exact (readImportedLibraries_caps _ d).mono (fun _ h => h) (fun _ _ h => h)
    fun _ _ h => h.mono (Nat.le_add_right _ _) (Nat.le_refl _)

/-- `ElfFile::ParseFromFile` on every file, read or mapped, and every feature set: what `Parse`
returns from the parser `Create` made holds at most `kMaxSymbolEntries` symbols and
`kMaxDynamicEntries` imported libraries. From any parser whose counters are within the caps,
every run of `Parse`, returned or failed, leaves them within the caps, having counted what it
returns. -/
theorem elfFile_parse_within_caps (filename : String) (file : List UInt8) (mmapFile : Bool)
    (features : UInt32) :
    (∀ p f q, create filename file mmapFile = .ok p → (ElfFile.parse features).run p = .ok f q →
      (f.symbols.length : Int) ≤ kMaxSymbolEntries ∧
        (f.importedLibraries.length : Int) ≤ kMaxDynamicEntries) ∧
    ∀ n d, Machine.Triple (fun p => CountsWithin n d (counters p)) (ElfFile.parse features)
      (fun f p => CountsWithin (n + f.symbols.length) (d + f.importedLibraries.length) (counters p))
      (fun _ p => CountsWithin n d (counters p)) := by
  refine ⟨fun p f q hcreate hrun => ?_, parse_caps features⟩
  have hzero : CountsWithin 0 0 (counters p) := by
    rw [create_counters hcreate]
    exact ⟨Nat.le_refl _, by decide, Nat.le_refl _, by decide⟩
  obtain ⟨h₁, h₂, h₃, h₄⟩ := (parse_caps features 0 0).ok hzero hrun
  exact ⟨by omega, by omega⟩

end ElfParser

end SandboxedApi

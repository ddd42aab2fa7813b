import Mathlib.Order.Basic
import SandboxedApi.Lib.OrderedMap

namespace SandboxedApi

open OrderedMap

instance instLinearOrderAddress : LinearOrder UInt64 where
  le := (· ≤ ·)
  lt := (· < ·)
  le_refl := UInt64.le_refl
  le_trans _ _ _ := UInt64.le_trans
  le_antisymm _ _ := UInt64.le_antisymm
  le_total := UInt64.le_total
  lt_iff_le_not_ge a b := by
    simp only [UInt64.lt_iff_toNat_lt, UInt64.le_iff_toNat_le]
    omega
  toDecidableLE := inferInstance
  min_def _ _ := rfl
  max_def _ _ := rfl

/-- `SymbolMap`, a `std::map<uint64_t, std::string>`: its entries in increasing key order. -/
structure SymbolMap where
  entries : List (UInt64 × String)
  sorted : Sorted entries

namespace SymbolMap

def empty : SymbolMap := ⟨[], sorted_nil⟩

/-- `addr_to_symbol[k] = v`. -/
def assign (m : SymbolMap) (k : UInt64) (v : String) : SymbolMap :=
  ⟨OrderedMap.assign k v m.entries, m.sorted.assign⟩

end SymbolMap

/-- `absl::Hex`: lowercase hexadecimal digits, without padding. -/
def hex (n : UInt64) : String := String.ofList (Nat.toDigits 16 n.toNat)

structure MapsEntry where
  start : UInt64
  «end» : UInt64
  isExecutable : Bool
  pgoff : UInt64
  inode : UInt64
  path : String

/-- `ElfFile::Symbol`. -/
structure ElfSymbol where
  address : UInt64
  name : String

structure ElfFile where
  positionIndependent : Bool
  symbols : List ElfSymbol

def isMappingSymbol (name : String) : Bool :=
  ["$x", "$d", "$t", "$a", "$v"].any (fun p => name.startsWith p)

def addSymbol (isArm : Bool) (entry : MapsEntry) (positionIndependent : Bool)
    (addrToSymbol : SymbolMap) (symbol : ElfSymbol) : SymbolMap :=
  if isArm && isMappingSymbol symbol.name then addrToSymbol
  else if positionIndependent then
    if symbol.address ≥ entry.pgoff ∧ symbol.address - entry.pgoff < entry.end - entry.start then
      addrToSymbol.assign (symbol.address + entry.start - entry.pgoff) symbol.name
    else addrToSymbol
  else if symbol.address ≥ entry.start ∧ symbol.address < entry.end then
    addrToSymbol.assign symbol.address symbol.name
  else addrToSymbol

def addMapping (isArm : Bool) (loadSymbols : String → Option ElfFile)
    (addrToSymbol : SymbolMap) (entry : MapsEntry) : SymbolMap :=
  if !entry.isExecutable || entry.inode == 0 || entry.path.isEmpty then addrToSymbol
  else
    let map := "map:" ++ entry.path ++ (if entry.pgoff ≠ 0 then "+0x" ++ hex entry.pgoff else "")
    let addrToSymbol := (addrToSymbol.assign entry.start map).assign entry.end ""
    match loadSymbols entry.path with
    | none => addrToSymbol
    | some elf => elf.symbols.foldl (addSymbol isArm entry elf.positionIndependent) addrToSymbol

/-- `LoadSymbolsMap`, over the parsed maps. -/
def loadSymbolsMap (isArm : Bool) (loadSymbols : String → Option ElfFile)
    (maps : List MapsEntry) : SymbolMap :=
  maps.foldl (addMapping isArm loadSymbols) SymbolMap.empty

section

variable (cxaDemangle : String → Option String)

/-- `DemangleSymbol`: what `abi::__cxa_demangle` makes of the name, or the name itself when it
fails. -/
def demangleSymbol (maybeMangled : String) : String :=
  match cxaDemangle maybeMangled with
  | some symbol => symbol
  | none => maybeMangled

/-- `GetSymbolAt`. Iterators are positions in the entries: `begin()` is `0`, `end()` the
length, and `lowerBound` never goes past the end. -/
def getSymbolAt (addrToSymbol : SymbolMap) (addr : UInt64) : String :=
  let entries := addrToSymbol.entries
  let entryForNextSymbol := lowerBound addr entries
  if h : entryForNextSymbol < entries.length ∧ entryForNextSymbol ≠ 0 then
    let next := entries.get ⟨entryForNextSymbol, h.1⟩
    if next.1 = addr then demangleSymbol cxaDemangle next.2
    else
      let previous := entries.get ⟨entryForNextSymbol - 1, by omega⟩
      if previous.2 ≠ "" then demangleSymbol cxaDemangle previous.2 ++ "+0x" ++ hex (addr - previous.1)
      else ""
  else ""

def floorSymbol (m : SymbolMap) (addr : UInt64) : String :=
  match floor? addr m.entries with
  | none => ""
  | some (k, name) =>
    if k = addr then demangleSymbol cxaDemangle name
    else if name ≠ "" then demangleSymbol cxaDemangle name ++ "+0x" ++ hex (addr - k)
    else ""

theorem getSymbolAt_eq (m : SymbolMap) (addr : UInt64) :
    getSymbolAt cxaDemangle m addr =
      if (∃ e ∈ m.entries, e.1 < addr) ∧ (∃ e ∈ m.entries, addr ≤ e.1) then
        floorSymbol cxaDemangle m addr
      else "" := by
  obtain ⟨entries, hsorted⟩ := m
  obtain ⟨pre, post, rfl, hpre, hpost⟩ := hsorted.exists_split addr
  have hlb := lowerBound_append hpre hpost
  cases post with
  | nil =>
    have hend : lowerBound addr (pre ++ []) = (pre ++ []).length := by
      rw [hlb, List.append_nil]
    have habove : ¬ ∃ e ∈ pre ++ [], addr ≤ e.1 := by
      rintro ⟨e, he, hle⟩
      exact not_le.mpr (hpre e (by simpa using he)) hle
    rw [getSymbolAt, dif_neg (fun h => absurd hend (Nat.ne_of_lt h.1)),
      if_neg (fun h => habove h.2)]
  | cons p rest =>
    rcases List.eq_nil_or_concat pre with rfl | ⟨ps, q, hpq⟩
    · -- every key is at or above `addr`: `lower_bound` is the beginning
      have hbelow : ¬ ∃ e ∈ [] ++ p :: rest, e.1 < addr := by
        rintro ⟨e, he, hlt⟩
        exact not_le.mpr hlt (hpost e (by simpa using he))
      rw [getSymbolAt, dif_neg (fun h => h.2 hlb), if_neg (fun h => hbelow h.1)]
    · -- `lower_bound` is at `p`, and the entry before it is `q`
      rw [List.concat_eq_append] at hpq
      subst hpq
      have hq : q.1 < addr := hpre q (by simp)
      have hp : addr ≤ p.1 := hpost p (by simp)
      have hcond : lowerBound addr (ps ++ [q] ++ p :: rest) < (ps ++ [q] ++ p :: rest).length ∧
          lowerBound addr (ps ++ [q] ++ p :: rest) ≠ 0 := by
        rw [hlb]
        simp
      have hnext : (ps ++ [q] ++ p :: rest).get ⟨_, hcond.1⟩ = p := by
        simp only [List.get_eq_getElem, hlb]
        simp
      have hprev : (ps ++ [q] ++ p :: rest).get
          ⟨lowerBound addr (ps ++ [q] ++ p :: rest) - 1, by omega⟩ = q := by
        simp only [List.get_eq_getElem, hlb]
        simp
      have hfloor := floor?_append_cons hsorted hpre hp
      have hboth : (∃ e ∈ ps ++ [q] ++ p :: rest, e.1 < addr) ∧
          (∃ e ∈ ps ++ [q] ++ p :: rest, addr ≤ e.1) :=
        ⟨⟨q, by simp, hq⟩, ⟨p, by simp, hp⟩⟩
      rw [getSymbolAt, dif_pos hcond, if_pos hboth]
      simp only [hnext, hprev, floorSymbol, hfloor]
      by_cases hpeq : p.1 = addr
      · simp [hpeq]
      · simp [hpeq, hq.ne]

end

def MapsEntry.Usable (entry : MapsEntry) : Prop :=
  entry.isExecutable = true ∧ entry.inode ≠ 0 ∧ entry.path.isEmpty = false

def MapsEntry.Covers (entry : MapsEntry) (addr : UInt64) : Prop :=
  entry.start ≤ addr ∧ addr ≤ entry.end

theorem SymbolMap.mem_assign {m : SymbolMap} {k : UInt64} {v : String} {e : UInt64 × String}
    (he : e ∈ (m.assign k v).entries) : e.1 = k ∨ e ∈ m.entries := by
  rcases OrderedMap.mem_assign he with rfl | he
  · exact .inl rfl
  · exact .inr he

section

variable {isArm : Bool} {entry : MapsEntry} {positionIndependent : Bool} {m : SymbolMap}
  {e : UInt64 × String}

theorem covers_relocated {address : UInt64} (hge : address ≥ entry.pgoff)
    (hlt : address - entry.pgoff < entry.end - entry.start) (hse : entry.start ≤ entry.end) :
    entry.Covers (address + entry.start - entry.pgoff) := by
  have hshift : address + entry.start - entry.pgoff = entry.start + (address - entry.pgoff) := by
    grind
  have hoff : (address - entry.pgoff).toNat = address.toNat - entry.pgoff.toNat :=
    UInt64.toNat_sub_of_le _ _ hge
  have hsize : (entry.end - entry.start).toNat = entry.end.toNat - entry.start.toNat :=
    UInt64.toNat_sub_of_le _ _ hse
  have hbound := entry.end.toNat_lt
  rw [MapsEntry.Covers, hshift]
  simp only [UInt64.le_iff_toNat_le, UInt64.lt_iff_toNat_lt, UInt64.toNat_add, hoff,
    hsize] at hge hlt hse ⊢
  omega

theorem addSymbol_cases (hse : entry.start ≤ entry.end) (symbol : ElfSymbol) :
    addSymbol isArm entry positionIndependent m symbol = m ∨
      ∃ k, entry.Covers k ∧
        addSymbol isArm entry positionIndependent m symbol = m.assign k symbol.name := by
  unfold addSymbol
  split_ifs with hskip hpie hrel habs
  · exact .inl rfl
  · exact .inr ⟨_, covers_relocated hrel.1 hrel.2 hse, rfl⟩
  · exact .inl rfl
  · exact .inr ⟨_, ⟨habs.1, UInt64.le_of_lt habs.2⟩, rfl⟩
  · exact .inl rfl

theorem mem_foldl_addSymbol (hse : entry.start ≤ entry.end) (symbols : List ElfSymbol)
    (m : SymbolMap)
    (he : e ∈ (symbols.foldl (addSymbol isArm entry positionIndependent) m).entries) :
    e ∈ m.entries ∨ entry.Covers e.1 := by
  induction symbols generalizing m with
  | nil => exact .inl he
  | cons symbol rest ih =>
    rcases ih _ he with he | hcov
    · rcases addSymbol_cases (m := m) hse symbol with h | ⟨k, hk, h⟩
      · rw [h] at he
        exact .inl he
      · rw [h] at he
        rcases SymbolMap.mem_assign he with hek | he
        · exact .inr (hek ▸ hk)
        · exact .inl he
    · exact .inr hcov

theorem mem_addMapping {loadSymbols : String → Option ElfFile} (hse : entry.start ≤ entry.end)
    (he : e ∈ (addMapping isArm loadSymbols m entry).entries) :
    e ∈ m.entries ∨ (entry.Usable ∧ entry.Covers e.1) := by
  unfold addMapping at he
  by_cases hskip : (!entry.isExecutable || entry.inode == 0 || entry.path.isEmpty) = true
  · rw [if_pos hskip] at he
    exact .inl he
  · rw [if_neg hskip] at he
    have husable : entry.Usable := by
      simp only [Bool.or_eq_true, Bool.not_eq_eq_eq_not, Bool.not_true, beq_iff_eq,
        not_or] at hskip
      exact ⟨by simpa using hskip.1.1, hskip.1.2, by simpa using hskip.2⟩
    have hmarks : ∀ map, ∀ x ∈ ((m.assign entry.start map).assign entry.end "").entries,
        x ∈ m.entries ∨ entry.Covers x.1 := by
      intro map x hx
      rcases SymbolMap.mem_assign hx with hend | hx
      · exact .inr ⟨hend ▸ hse, hend ▸ UInt64.le_refl _⟩
      rcases SymbolMap.mem_assign hx with hstart | hx
      · exact .inr ⟨hstart ▸ UInt64.le_refl _, hstart ▸ hse⟩
      · exact .inl hx
    cases hload : loadSymbols entry.path with
    | none =>
      simp only [hload] at he
      rcases hmarks _ e he with he | hcov
      · exact .inl he
      · exact .inr ⟨husable, hcov⟩
    | some elf =>
      simp only [hload] at he
      rcases mem_foldl_addSymbol hse _ _ he with he | hcov
      · rcases hmarks _ e he with he | hcov
        · exact .inl he
        · exact .inr ⟨husable, hcov⟩
      · exact .inr ⟨husable, hcov⟩

end

section

variable {isArm : Bool} {loadSymbols : String → Option ElfFile} {maps : List MapsEntry}
  {e : UInt64 × String}

theorem mem_foldl_addMapping (hmaps : ∀ entry ∈ maps, entry.start ≤ entry.end) (m : SymbolMap)
    (he : e ∈ (maps.foldl (addMapping isArm loadSymbols) m).entries) :
    e ∈ m.entries ∨ ∃ entry ∈ maps, entry.Usable ∧ entry.Covers e.1 := by
  induction maps generalizing m with
  | nil => exact .inl he
  | cons entry rest ih =>
    have hrest : ∀ x ∈ rest, x.start ≤ x.end := fun x hx => hmaps x (by simp [hx])
    rcases ih hrest _ he with he | ⟨x, hx, hcov⟩
    · rcases mem_addMapping (hmaps entry (by simp)) he with he | hcov
      · exact .inl he
      · exact .inr ⟨entry, by simp, hcov⟩
    · exact .inr ⟨x, by simp [hx], hcov⟩

theorem mem_loadSymbolsMap (hmaps : ∀ entry ∈ maps, entry.start ≤ entry.end)
    (he : e ∈ (loadSymbolsMap isArm loadSymbols maps).entries) :
    ∃ entry ∈ maps, entry.Usable ∧ entry.Covers e.1 := by
  rcases mem_foldl_addMapping hmaps _ he with he | he
  · cases he
  · exact he

theorem getSymbolAt_loadSymbolsMap_of_le_start (cxaDemangle : String → Option String)
    {addr : UInt64} (hmaps : ∀ entry ∈ maps, entry.start ≤ entry.end)
    (haddr : ∀ entry ∈ maps, entry.Usable → addr ≤ entry.start) :
    getSymbolAt cxaDemangle (loadSymbolsMap isArm loadSymbols maps) addr = "" := by
  rw [getSymbolAt_eq, if_neg]
  rintro ⟨⟨e, he, hlt⟩, -⟩
  obtain ⟨entry, hentry, husable, hcov⟩ := mem_loadSymbolsMap hmaps he
  exact not_le.mpr hlt ((haddr entry hentry husable).trans hcov.1)

end

/-- The first byte of a mapping of `/bin/true` symbolizes to nothing, where the floor lookup
gives the mapping's name. -/
theorem getSymbolAt_mapping_start :
    getSymbolAt (fun _ => none)
        (loadSymbolsMap false (fun _ => none) [⟨0x1000, 0x2000, true, 0, 1, "/bin/true"⟩])
        0x1000 = "" ∧
      floorSymbol (fun _ => none)
        (loadSymbolsMap false (fun _ => none) [⟨0x1000, 0x2000, true, 0, 1, "/bin/true"⟩])
        0x1000 = "map:/bin/true" := by
  decide

end SandboxedApi

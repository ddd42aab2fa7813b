import Mathlib.Data.List.TakeWhile
import SandboxedApi.Lib.Scanf
import SandboxedApi.Util.Status

namespace SandboxedApi.MapsParser

open Scanf

/-- `MapsEntry`. The `int`s `major` and `minor` hold the bits that `%x` stores as an
`unsigned`. -/
structure MapsEntry where
  start : UInt64
  «end» : UInt64
  isReadable : Bool
  isWritable : Bool
  isExecutable : Bool
  isShared : Bool
  pgoff : UInt64
  major : Int32
  minor : Int32
  inode : UInt64
  path : String
  deriving DecidableEq, Repr

def kFormatString : String := "%lx-%lx %c%c%c%c %lx %x:%x %lu %zn"

def kFormat : List Directive := (parseFormat kFormatString.toList).getD []

theorem kFormat_eq : kFormat =
    [.unsigned 16 64, .literal '-', .unsigned 16 64, .space, .char, .char, .char, .char, .space,
      .unsigned 16 64, .space, .unsigned 16 32, .literal ':', .unsigned 16 32, .space,
      .unsigned 10 64, .space, .count] := by
  decide

def invalidFormat : Status := ⟨.failedPrecondition, "Invalid format"⟩

def parseLine (line : List Char) : Except Status MapsEntry :=
  let (nMatches, values) := sscanf kFormat (cString line)
  if nMatches ≠ 10 then .error invalidFormat
  else .ok
    { start := UInt64.ofNat (numAt values 0)
      «end» := UInt64.ofNat (numAt values 1)
      isReadable := charAt values 2 == 'r'
      isWritable := charAt values 3 == 'w'
      isExecutable := charAt values 4 == 'x'
      isShared := charAt values 5 == 's'
      pgoff := UInt64.ofNat (numAt values 6)
      major := (UInt32.ofNat (numAt values 7)).toInt32
      minor := (UInt32.ofNat (numAt values 8)).toInt32
      inode := UInt64.ofNat (numAt values 9)
      path := String.ofList (line.drop (numAt values 10)) }

/-- `absl::StrSplit(contents, '\n', absl::SkipEmpty())`. -/
def splitLines (contents : List Char) : List (List Char) :=
  (contents.splitOn '\n').filter (fun line => !line.isEmpty)

/-- `ParseProcMaps`: the entries of the lines in order, or the error of the first line that is
none. -/
def parseProcMaps (contents : String) : Except Status (List MapsEntry) :=
  (splitLines contents.toList).mapM parseLine

example : parseProcMaps
    "55555575b000-55555575c000 r--p 00007000 fd:01 3277961   /bin/this (deleted)\n" =
      .ok [⟨0x55555575b000, 0x55555575c000, true, false, false, false, 0x7000, 0xfd, 1, 3277961,
        "/bin/this (deleted)"⟩] := by
  decide

example : parseProcMaps "7ffff7fe4000+7ffff7fe5000 r--p 00000000 fd:01 932780 /x\n" =
    .error invalidFormat := by
  decide

/-- `seq_put_hex_ll(m, delimiter, v, width)` after its delimiter: lowercase hexadecimal digits,
`width` of them at least. -/
def putHex (width v : Nat) : List Char := padDigits 16 width v

def permissions (e : MapsEntry) : List Char :=
  [if e.isReadable then 'r' else '-', if e.isWritable then 'w' else '-',
    if e.isExecutable then 'x' else '-', if e.isShared then 's' else 'p']

/-- `show_vma_header_prefix`; `seq_put_decimal_ull` writes the inode without padding, and the
header ends in a blank. -/
def showVmaHeaderPrefix (e : MapsEntry) : List Char :=
  putHex 8 e.start.toNat ++ '-' :: (putHex 8 e.end.toNat ++ ' ' :: (permissions e ++
    ' ' :: (putHex 8 e.pgoff.toNat ++ ' ' :: (putHex 2 e.major.toUInt32.toNat ++ ':' ::
    (putHex 2 e.minor.toUInt32.toNat ++ ' ' :: (Nat.toDigits 10 e.inode.toNat ++ [' ']))))))

def headerWidth : Nat := 72

/-- `show_map_vma`: the header, and for a mapping with a name the blanks up to the header's
width, one more, and the name. -/
def showMapVma (e : MapsEntry) : List Char :=
  if e.path.isEmpty then showVmaHeaderPrefix e
  else showVmaHeaderPrefix e ++
    List.replicate (headerWidth - (showVmaHeaderPrefix e).length) ' ' ++ ' ' :: e.path.toList

def showMaps (entries : List MapsEntry) : List Char :=
  (entries.map fun e => showMapVma e ++ ['\n']).flatten

def MapsEntry.read (e : MapsEntry) : MapsEntry :=
  { e with path := String.ofList (e.path.toList.dropWhile isSpace) }

section Lemmas

variable (e : MapsEntry)

theorem le_toNat_of_mem_showVmaHeaderPrefix {c : Char} (hc : c ∈ showVmaHeaderPrefix e) :
    32 ≤ c.toNat := by
  have hhex : ∀ w n, ∀ d ∈ putHex w n, 32 ≤ d.toNat := fun _ _ _ hd =>
    Nat.le_trans (by decide) (le_toNat_of_isDigitOf (isDigitOf_of_mem_padDigits (.inr rfl) hd))
  have hdec : ∀ d ∈ Nat.toDigits 10 e.inode.toNat, 32 ≤ d.toNat := fun _ hd =>
    Nat.le_trans (by decide) (le_toNat_of_isDigitOf (isDigitOf_of_mem_toDigits (.inl rfl) hd))
  have hflag : ∀ (b : Bool) (d d' : Char), 32 ≤ d.toNat → 32 ≤ d'.toNat →
      32 ≤ (if b then d else d').toNat := by
    intro b d d' hd hd'
    cases b <;> assumption
  revert c
  simp only [showVmaHeaderPrefix, permissions, List.forall_mem_append, List.forall_mem_cons]
  have hnil : ∀ d ∈ ([] : List Char), 32 ≤ d.toNat := fun _ h => nomatch h
  exact ⟨hhex _ _, by decide, hhex _ _, by decide,
    ⟨hflag _ _ _ (by decide) (by decide), hflag _ _ _ (by decide) (by decide),
      hflag _ _ _ (by decide) (by decide), hflag _ _ _ (by decide) (by decide), hnil⟩,
    by decide, hhex _ _, by decide, hhex _ _, by decide, hhex _ _, by decide, hdec, by decide,
    hnil⟩

theorem cString_showVmaHeaderPrefix {sp : List Char} (hsp : ∀ c ∈ sp, isSpace c = true)
    (path : List Char) :
    cString (showVmaHeaderPrefix e ++ (sp ++ path)) = showVmaHeaderPrefix e ++ (sp ++ cString path) := by
  have hheader : ∀ c ∈ showVmaHeaderPrefix e, c.toNat ≠ 0 := fun c hc => by
    have := le_toNat_of_mem_showVmaHeaderPrefix e hc
    omega
  have hblanks : ∀ c ∈ sp, c.toNat ≠ 0 := fun c hc => by
    have := (toNat_of_isSpace (hsp c hc)).1
    omega
  rw [cString_append hheader, cString_append hblanks]

theorem scan_showVmaHeaderPrefix {input sp rest : List Char} (hsp : ∀ c ∈ sp, isSpace c = true)
    (hrest : ∀ c ∈ rest.head?, isSpace c = false) :
    scan input kFormat (showVmaHeaderPrefix e ++ (sp ++ rest)) =
      ⟨[.num e.start.toNat, .num e.end.toNat, .char (if e.isReadable then 'r' else '-'),
        .char (if e.isWritable then 'w' else '-'), .char (if e.isExecutable then 'x' else '-'),
        .char (if e.isShared then 's' else 'p'), .num e.pgoff.toNat, .num e.major.toUInt32.toNat,
        .num e.minor.toUInt32.toNat, .num e.inode.toNat, .num (input.length - rest.length)],
        10, none⟩ := by
  have hr : isSpace (if e.isReadable then 'r' else '-') = false := by cases e.isReadable <;> rfl
  have hmajor : e.major.toUInt32.toNat < 2 ^ 64 := Nat.lt_trans (UInt32.toNat_lt _) (by decide)
  have hminor : e.minor.toUInt32.toNat < 2 ^ 64 := Nat.lt_trans (UInt32.toNat_lt _) (by decide)
  simp only [showVmaHeaderPrefix, permissions, putHex, List.append_assoc, List.cons_append,
    List.nil_append]
  rw [kFormat_eq, scan_unsigned_padDigits 16 '-' (.inr rfl) (UInt64.toNat_lt _) (by decide),
    scan_literal_self, scan_unsigned_padDigits 16 ' ' (.inr rfl) (UInt64.toNat_lt _) (by decide),
    scan_space_blank_char hr, scan_char, scan_char, scan_char, scan_char,
    scan_space_padDigits 16 (.inr rfl),
    scan_unsigned_padDigits 16 ' ' (.inr rfl) (UInt64.toNat_lt _) (by decide),
    scan_space_padDigits 16 (.inr rfl), scan_unsigned_padDigits 16 ':' (.inr rfl) hmajor (by decide),
    scan_literal_self, scan_unsigned_padDigits 16 ' ' (.inr rfl) hminor (by decide),
    scan_space_toDigits 10 (.inl rfl),
    scan_unsigned_toDigits 10 ' ' (.inl rfl) (UInt64.toNat_lt _) (by decide),
    scan_space_blank hsp hrest, scan_count, scan_nil]
  simp only [Nat.mod_eq_of_lt (UInt64.toNat_lt _), Nat.mod_eq_of_lt (UInt32.toNat_lt _)]
  rfl

theorem beq_flag (b : Bool) {c d : Char} (h : c ≠ d) : ((if b then c else d) == c) = b := by
  cases b <;> simp [h.symm]

theorem parseLine_showVmaHeaderPrefix {sp : List Char} (hsp : ∀ c ∈ sp, isSpace c = true)
    (path : List Char) :
    parseLine (showVmaHeaderPrefix e ++ (sp ++ path)) =
      .ok { e with path := String.ofList (path.dropWhile isSpace) } := by
  have hpath : path.takeWhile isSpace ++ path.dropWhile isSpace = path :=
    List.takeWhile_append_dropWhile
  have hlead : ∀ c ∈ path.takeWhile isSpace, isSpace c = true := fun _ hc =>
    List.mem_takeWhile_imp hc
  have hspace : ∀ c ∈ sp ++ path.takeWhile isSpace, isSpace c = true :=
    List.forall_mem_append.mpr ⟨hsp, hlead⟩
  have hname : cString path = path.takeWhile isSpace ++ cString (path.dropWhile isSpace) := by
    have hnul : ∀ c ∈ path.takeWhile isSpace, c.toNat ≠ 0 := fun c hc => by
      have := (toNat_of_isSpace (hlead c hc)).1
      omega
    calc cString path = cString (path.takeWhile isSpace ++ path.dropWhile isSpace) := by rw [hpath]
      _ = _ := cString_append hnul _
  have hcs : cString (showVmaHeaderPrefix e ++ (sp ++ path)) = showVmaHeaderPrefix e ++
      ((sp ++ path.takeWhile isSpace) ++ cString (path.dropWhile isSpace)) := by
    rw [cString_showVmaHeaderPrefix e hsp, hname, List.append_assoc]
  have hdrop : (showVmaHeaderPrefix e ++ (sp ++ path)).drop
      ((cString (showVmaHeaderPrefix e ++ (sp ++ path))).length -
        (cString (path.dropWhile isSpace)).length) = path.dropWhile isSpace := by
    have hline : showVmaHeaderPrefix e ++ (sp ++ path) =
        (showVmaHeaderPrefix e ++ (sp ++ path.takeWhile isSpace)) ++ path.dropWhile isSpace := by
      rw [List.append_assoc, List.append_assoc, hpath]
    have hcount : (cString (showVmaHeaderPrefix e ++ (sp ++ path))).length -
        (cString (path.dropWhile isSpace)).length =
        (showVmaHeaderPrefix e ++ (sp ++ path.takeWhile isSpace)).length := by
      simp only [hcs, List.length_append]
      omega
    rw [hcount, hline, List.drop_left]
  unfold parseLine sscanf
  rw [hcs, scan_showVmaHeaderPrefix e hspace (head?_cString_dropWhile path), ← hcs]
  simp [numAt, charAt, beq_flag, hdrop, UInt32.ofNat_toNat, Int32.toInt32_toUInt32]

theorem showMapVma_eq : ∃ sp, (∀ c ∈ sp, c = ' ') ∧
    showMapVma e = showVmaHeaderPrefix e ++ (sp ++ e.path.toList) := by
  by_cases hname : e.path.isEmpty
  · -- a mapping without a name: the header alone
    refine ⟨[], (fun _ h => nomatch h), ?_⟩
    rw [showMapVma, if_pos hname, String.isEmpty_iff.mp hname]
    simp
  · refine ⟨List.replicate (headerWidth - (showVmaHeaderPrefix e).length) ' ' ++ [' '],
      fun c hc => ?_, ?_⟩
    · rcases List.mem_append.mp hc with hc | hc
      · exact List.eq_of_mem_replicate hc
      · exact List.mem_singleton.mp hc
    · rw [showMapVma, if_neg hname]
      simp

theorem parseLine_showMapVma : parseLine (showMapVma e) = .ok e.read := by
  obtain ⟨sp, hsp, heq⟩ := showMapVma_eq e
  rw [heq, parseLine_showVmaHeaderPrefix e (fun c hc => by rw [hsp c hc]; rfl)]
  rfl

theorem newline_not_mem_showMapVma (hname : '\n' ∉ e.path.toList) : '\n' ∉ showMapVma e := by
  obtain ⟨sp, hsp, heq⟩ := showMapVma_eq e
  rw [heq]
  intro h
  rcases List.mem_append.mp h with h | h
  · have := le_toNat_of_mem_showVmaHeaderPrefix e h
    exact absurd this (by decide)
  · rcases List.mem_append.mp h with h | h
    · exact absurd (hsp _ h) (by decide)
    · exact hname h

theorem showMapVma_ne_nil : showMapVma e ≠ [] := by
  obtain ⟨sp, -, heq⟩ := showMapVma_eq e
  rw [heq, showVmaHeaderPrefix, putHex]
  simp [padDigits_ne_nil]

end Lemmas

theorem splitLines_showMaps {entries : List MapsEntry}
    (hnames : ∀ e ∈ entries, '\n' ∉ e.path.toList) :
    splitLines (showMaps entries) = entries.map showMapVma := by
  have hsplit : ∀ entries : List MapsEntry, (∀ e ∈ entries, '\n' ∉ e.path.toList) →
      (showMaps entries).splitOn '\n' = entries.map showMapVma ++ [[]] := by
    intro entries hnames
    induction entries with
    | nil => rfl
    | cons e rest ih =>
      have hline : ∀ c ∈ showMapVma e, (c == '\n') = false := fun c hc => by
        have hne := newline_not_mem_showMapVma e (hnames e List.mem_cons_self)
        simpa using fun h : c = '\n' => hne (h ▸ hc)
      have hrest := ih fun e' he' => hnames e' (List.mem_cons_of_mem _ he')
      simp only [showMaps, List.map_cons, List.flatten_cons, List.append_assoc,
        List.singleton_append] at hrest ⊢
      rw [List.splitOn_eq_splitOnP, List.splitOnP_append_cons_of_forall_mem hline _ (by decide),
        ← List.splitOn_eq_splitOnP, hrest]
      rfl
  have hkept : ∀ l ∈ entries.map showMapVma, (!l.isEmpty) = true := by
    intro l hl
    obtain ⟨e, -, rfl⟩ := List.mem_map.mp hl
    simpa using showMapVma_ne_nil e
  rw [splitLines, hsplit entries hnames, List.filter_append, List.filter_eq_self.mpr hkept]
  simp

/-- `ParseProcMaps` reads back every file of the kernel, whose names have no newline: each
mapping in order, its name without the white space in front of it. -/
theorem parseProcMaps_showMaps (entries : List MapsEntry)
    (hnames : ∀ e ∈ entries, '\n' ∉ e.path.toList) :
    parseProcMaps (String.ofList (showMaps entries)) = .ok (entries.map MapsEntry.read) := by
  rw [parseProcMaps, String.toList_ofList, splitLines_showMaps hnames]
  clear hnames
  induction entries with
  | nil => rfl
  | cons e rest ih =>
    rw [List.map_cons, List.mapM_cons, parseLine_showMapVma, ih]
    rfl

def catMappings : List MapsEntry :=
  [⟨0x555555554000, 0x55555555c000, true, false, true, false, 0, 0xfd, 1, 3277961, "/bin/cat"⟩,
    ⟨0x55555575d000, 0x55555577e000, true, true, false, false, 0, 0, 0, 0, "[heap]"⟩,
    ⟨0x7ffff7dd5000, 0x7ffff7dd9000, true, true, false, true, 0, 0, 0, 0, ""⟩,
    ⟨0x7ffff7fe4000, 0x7ffff7fe5000, true, false, false, false, 0x195000, 0xfd, 1, 932780,
      " LC_TIME"⟩]

theorem parseProcMaps_showMaps_catMappings :
    (∀ e ∈ catMappings, '\n' ∉ e.path.toList) ∧
      parseProcMaps (String.ofList (showMaps catMappings)) = .ok (catMappings.map MapsEntry.read) :=
  ⟨by decide, parseProcMaps_showMaps catMappings (by decide)⟩

end SandboxedApi.MapsParser

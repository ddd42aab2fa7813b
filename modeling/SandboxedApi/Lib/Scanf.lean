import Mathlib.Algebra.Group.Nat.Defs
import Mathlib.Algebra.Group.Int.Defs
import Mathlib.Data.List.Basic

namespace Scanf

/-- `isspace` in the C locale. -/
def isSpace (c : Char) : Bool :=
  c == ' ' || c == '\t' || c == '\n' || c == '\x0b' || c == '\x0c' || c == '\r'

inductive Directive where
  | space
  | literal (c : Char)
  | char
  /-- `%x` or `%u`: a number in `base` (16 or 10), stored in an unsigned integer of `bits`
  bits. -/
  | unsigned (base bits : Nat)
  /-- `%zn` or `%ln`: the count of characters read so far. -/
  | count
  deriving DecidableEq, Repr

def conversion (bits : Nat) : Char → Option Directive
  | 'x' => some (.unsigned 16 bits)
  | 'u' => some (.unsigned 10 bits)
  | 'n' => if bits = 64 then some .count else none
  | _ => none

def parseFormat : List Char → Option (List Directive)
  | [] => some []
  | '%' :: 'c' :: f => (Directive.char :: ·) <$> parseFormat f
  | '%' :: 'l' :: c :: f => List.cons <$> conversion 64 c <*> parseFormat f
  | '%' :: 'z' :: c :: f => List.cons <$> conversion 64 c <*> parseFormat f
  | '%' :: c :: f => List.cons <$> conversion 32 c <*> parseFormat f
  | ['%'] => none
  | c :: f => ((if isSpace c then Directive.space else .literal c) :: ·) <$> parseFormat f

inductive Value where
  | char (c : Char)
  | num (n : Nat)
  deriving DecidableEq, Repr

inductive Failure where
  | input
  | matching
  deriving DecidableEq, Repr

structure Outcome where
  values : List Value
  done : Nat
  failure : Option Failure
  deriving DecidableEq, Repr

def Outcome.assign (v : Value) (o : Outcome) : Outcome := ⟨v :: o.values, o.done + 1, o.failure⟩

def Outcome.store (v : Value) (o : Outcome) : Outcome := ⟨v :: o.values, o.done, o.failure⟩

def Outcome.stop (f : Failure) : Outcome := ⟨[], 0, some f⟩

def digitValue (base : Nat) (c : Char) : Option Nat :=
  if 48 ≤ c.toNat ∧ c.toNat ≤ 57 ∧ c.toNat - 48 < base then some (c.toNat - 48)
  else if base = 16 ∧ 97 ≤ c.toNat ∧ c.toNat ≤ 102 then some (c.toNat - 87)
  else if base = 16 ∧ 65 ≤ c.toNat ∧ c.toNat ≤ 70 then some (c.toNat - 55)
  else none

def isDigitOf (base : Nat) (c : Char) : Bool := (digitValue base c).isSome

def readDigits (base : Nat) (s : List Char) : List Nat × List Char :=
  ((s.takeWhile (isDigitOf base)).filterMap (digitValue base), s.dropWhile (isDigitOf base))

def digitsValue (base : Nat) (ds : List Nat) : Nat := ds.foldl (fun n d => base * n + d) 0

def numberDigits (base : Nat) (s : List Char) : List Nat × List Char :=
  match s with
  | '0' :: x :: rest =>
    if base = 16 ∧ (x = 'x' ∨ x = 'X') then
      match readDigits base rest with
      | (ds, rest) => (0 :: ds, rest)
    else readDigits base s
  | _ => readDigits base s

/-- `strtoul` of what a conversion collected: the magnitude, negated modulo `2^64` after a
minus sign, or `ULONG_MAX` when it does not fit. -/
def strtoul (negative : Bool) (magnitude : Nat) : Nat :=
  if 2 ^ 64 ≤ magnitude then 2 ^ 64 - 1
  else if negative then (2 ^ 64 - magnitude) % 2 ^ 64
  else magnitude

def scanNumber (base : Nat) : List Char → Except Failure (Nat × List Char)
  | [] => .error .input
  | c :: cs =>
    let r := numberDigits base (if c = '-' ∨ c = '+' then cs else c :: cs)
    if r.1 = [] then .error .matching
    else .ok (strtoul (c == '-') (digitsValue base r.1), r.2)

def scan (input : List Char) : List Directive → List Char → Outcome
  | [], _ => ⟨[], 0, none⟩
  | .space :: f, rest => scan input f (rest.dropWhile isSpace)
  | .literal _ :: _, [] => .stop .input
  | .literal c :: f, d :: rest => if d = c then scan input f rest else .stop .matching
  | .char :: _, [] => .stop .input
  | .char :: f, d :: rest => (scan input f rest).assign (.char d)
  | .unsigned base bits :: f, rest =>
    match scanNumber base (rest.dropWhile isSpace) with
    | .error e => .stop e
    | .ok (n, rest) => (scan input f rest).assign (.num (n % 2 ^ bits))
  | .count :: f, rest => (scan input f rest).store (.num (input.length - rest.length))

/-- `sscanf(input, format, ...)`: what it returns, the number of conversions that assigned or
`EOF` when the input ended before the first one, and the values stored. -/
def sscanf (format : List Directive) (input : List Char) : Int × List Value :=
  let o := scan input format input
  (if o.failure = some .input ∧ o.done = 0 then -1 else o.done, o.values)

/-- `s.c_str()`: what a C function reads of `s`, up to its first NUL. -/
def cString (s : List Char) : List Char := s.takeWhile (· != '\x00')

def numAt (values : List Value) (i : Nat) : Nat :=
  match values[i]? with
  | some (.num n) => n
  | _ => 0

def charAt (values : List Value) (i : Nat) : Char :=
  match values[i]? with
  | some (.char c) => c
  | _ => '\x00'

/-- `width` digits at least of `n` in `base`, zeros in front. -/
def padDigits (base width n : Nat) : List Char :=
  List.replicate (width - (Nat.toDigits base n).length) '0' ++ Nat.toDigits base n

section Lemmas

variable {input rest : List Char} {f : List Directive}

@[simp] theorem assign_values (v : Value) (o : Outcome) : (o.assign v).values = v :: o.values :=
  rfl
@[simp] theorem assign_done (v : Value) (o : Outcome) : (o.assign v).done = o.done + 1 := rfl
@[simp] theorem assign_failure (v : Value) (o : Outcome) : (o.assign v).failure = o.failure :=
  rfl
@[simp] theorem store_values (v : Value) (o : Outcome) : (o.store v).values = v :: o.values :=
  rfl
@[simp] theorem store_done (v : Value) (o : Outcome) : (o.store v).done = o.done := rfl
@[simp] theorem store_failure (v : Value) (o : Outcome) : (o.store v).failure = o.failure := rfl

theorem scan_nil : scan input [] rest = ⟨[], 0, none⟩ := rfl

theorem scan_space : scan input (.space :: f) rest = scan input f (rest.dropWhile isSpace) := rfl

theorem scan_literal_self (c : Char) :
    scan input (.literal c :: f) (c :: rest) = scan input f rest := by
  simp [scan]

theorem scan_char (d : Char) :
    scan input (.char :: f) (d :: rest) = (scan input f rest).assign (.char d) := rfl

theorem scan_count : scan input (.count :: f) rest =
    (scan input f rest).store (.num (input.length - rest.length)) := rfl

theorem scan_unsigned_of_scanNumber {base bits n : Nat} {rest' : List Char}
    (h : scanNumber base (rest.dropWhile isSpace) = .ok (n, rest')) :
    scan input (.unsigned base bits :: f) rest =
      (scan input f rest').assign (.num (n % 2 ^ bits)) := by
  simp only [scan, h]

theorem digitValue_eq_none (base : Nat) {c : Char}
    (h : c.toNat < 48 ∨ (57 < c.toNat ∧ c.toNat < 65) ∨ (70 < c.toNat ∧ c.toNat < 97) ∨
      102 < c.toNat) : digitValue base c = none := by
  rw [digitValue, if_neg (by omega), if_neg (by omega), if_neg (by omega)]

theorem toNat_of_isSpace {c : Char} (h : isSpace c = true) : 9 ≤ c.toNat ∧ c.toNat < 48 := by
  simp only [isSpace, Bool.or_eq_true, beq_iff_eq] at h
  rcases h with ((((h | h) | h) | h) | h) | h <;> subst h <;> decide

theorem isSpace_eq_false_of_isDigitOf {base : Nat} {c : Char} (h : isDigitOf base c = true) :
    isSpace c = false := by
  by_contra hs
  have hnone := digitValue_eq_none base (.inl (toNat_of_isSpace (by simpa using hs)).2)
  simp [isDigitOf, hnone] at h

theorem le_toNat_of_isDigitOf {base : Nat} {c : Char} (h : isDigitOf base c = true) :
    48 ≤ c.toNat := by
  by_contra hlt
  simp [isDigitOf, digitValue_eq_none base (.inl (Nat.lt_of_not_le hlt))] at h

theorem digitValue_digitChar {base d : Nat} (hbase : base = 10 ∨ base = 16) (hd : d < base) :
    digitValue base d.digitChar = some d := by
  rcases hbase with rfl | rfl
  · revert d; decide
  · revert d; decide

theorem isDigitOf_of_mem_toDigits {base n : Nat} {c : Char} (hbase : base = 10 ∨ base = 16)
    (hc : c ∈ Nat.toDigits base n) : isDigitOf base c = true := by
  have hb : 1 < base := by omega
  induction n using Nat.strongRecOn with
  | ind n ih =>
    rw [Nat.toDigits_eq_if hb] at hc
    split at hc
    · rw [List.mem_singleton] at hc
      rw [hc, isDigitOf, digitValue_digitChar hbase (by omega)]
      rfl
    · rcases List.mem_append.mp hc with hc | hc
      · exact ih (n / base) (Nat.div_lt_self (by omega) hb) hc
      · rw [List.mem_singleton] at hc
        rw [hc, isDigitOf, digitValue_digitChar hbase (Nat.mod_lt _ (by omega))]
        rfl

theorem isDigitOf_of_mem_padDigits {base width n : Nat} {c : Char}
    (hbase : base = 10 ∨ base = 16) (hc : c ∈ padDigits base width n) :
    isDigitOf base c = true := by
  rcases List.mem_append.mp hc with hc | hc
  · rw [List.eq_of_mem_replicate hc]
    rcases hbase with rfl | rfl <;> rfl
  · exact isDigitOf_of_mem_toDigits hbase hc

theorem padDigits_ne_nil (base width n : Nat) : padDigits base width n ≠ [] := by
  simp [padDigits, Nat.toDigits_ne_nil]

theorem digitsValue_append (base : Nat) (ds es : List Nat) :
    digitsValue base (ds ++ es) = es.foldl (fun n d => base * n + d) (digitsValue base ds) :=
  List.foldl_append

theorem digitsValue_toDigits {base n : Nat} (hbase : base = 10 ∨ base = 16) :
    digitsValue base ((Nat.toDigits base n).filterMap (digitValue base)) = n := by
  have hb : 1 < base := by omega
  induction n using Nat.base_induction base hb with
  | single m hm =>
    simp [Nat.toDigits_of_lt_base hm, digitValue_digitChar hbase hm, digitsValue]
  | digit m k hk hm ih =>
    rw [← Nat.toDigits_append_toDigits hb hm hk, List.filterMap_append, digitsValue_append, ih,
      Nat.toDigits_of_lt_base hk]
    simp [digitValue_digitChar hbase hk]

theorem digitsValue_padDigits {base width n : Nat} (hbase : base = 10 ∨ base = 16) :
    digitsValue base ((padDigits base width n).filterMap (digitValue base)) = n := by
  have hzero : digitValue base '0' = some 0 := by rcases hbase with rfl | rfl <;> rfl
  have hzeros : ∀ k, (List.replicate k '0').filterMap (digitValue base) = List.replicate k 0 := by
    intro k
    induction k with
    | zero => rfl
    | succ k ih => simp [List.replicate_succ, hzero, ih]
  have hvalue : ∀ k, digitsValue base (List.replicate k 0) = 0 := by
    intro k
    induction k with
    | zero => rfl
    | succ k ih =>
      rw [List.replicate_succ', digitsValue_append, ih]
      simp
  rw [padDigits, List.filterMap_append, hzeros, digitsValue_append, hvalue]
  exact digitsValue_toDigits hbase

def Stops (base : Nat) (c : Char) : Prop := isDigitOf base c = false ∧ c ≠ 'x' ∧ c ≠ 'X'

instance (base : Nat) (c : Char) : Decidable (Stops base c) :=
  inferInstanceAs (Decidable (_ ∧ _ ∧ _))

theorem readDigits_append {base : Nat} {text : List Char} {c : Char}
    (htext : ∀ d ∈ text, isDigitOf base d = true) (hc : isDigitOf base c = false) :
    readDigits base (text ++ c :: rest) = (text.filterMap (digitValue base), c :: rest) := by
  simp [readDigits, List.takeWhile_append_of_pos htext, List.dropWhile_append_of_pos htext, hc]

theorem numberDigits_of_digits {base : Nat} {text : List Char} {c : Char}
    (htext : ∀ d ∈ text, isDigitOf base d = true) (hne : text ≠ []) (hc : Stops base c) :
    numberDigits base (text ++ c :: rest) = readDigits base (text ++ c :: rest) := by
  have hx : ∀ x rest', text ++ c :: rest = '0' :: x :: rest' → x ≠ 'x' ∧ x ≠ 'X' := by
    intro x rest' h
    match text, hne, h with
    | [_], _, h => cases h; exact hc.2
    | _ :: x :: _, _, h =>
      cases h
      have hdigit := htext x (by simp)
      constructor <;> (rintro rfl; simp [isDigitOf, digitValue_eq_none] at hdigit)
  unfold numberDigits
  split
  · next x rest' h =>
    have hnot := hx x rest' h
    rw [if_neg (fun h' => h'.2.elim hnot.1 hnot.2), h]
  · rfl

theorem scanNumber_digits {base : Nat} {text : List Char} {c : Char}
    (htext : ∀ d ∈ text, isDigitOf base d = true) (hne : text ≠ []) (hc : Stops base c) :
    scanNumber base (text ++ c :: rest) =
      .ok (strtoul false (digitsValue base (text.filterMap (digitValue base))), c :: rest) := by
  obtain ⟨d, text', rfl⟩ := List.exists_cons_of_ne_nil hne
  have hd : isDigitOf base d = true := htext d List.mem_cons_self
  have hsign : ¬ (d = '-' ∨ d = '+') := by
    rintro (rfl | rfl) <;> simp [isDigitOf, digitValue_eq_none] at hd
  have hminus : (d == '-') = false := by simpa using fun h => hsign (.inl h)
  have hread : numberDigits base (d :: (text' ++ c :: rest)) =
      ((d :: text').filterMap (digitValue base), c :: rest) :=
    (numberDigits_of_digits htext hne hc).trans (readDigits_append htext hc.1)
  have hvalues : (d :: text').filterMap (digitValue base) ≠ [] := by
    obtain ⟨v, hv⟩ := Option.isSome_iff_exists.mp hd
    simp [hv]
  simp only [List.cons_append, scanNumber, if_neg hsign, hread, if_neg hvalues, hminus]

theorem strtoul_of_lt {n : Nat} (hn : n < 2 ^ 64) : strtoul false n = n := by
  rw [strtoul, if_neg (by omega), if_neg Bool.false_ne_true]

theorem head?_padDigits_append {base width n : Nat} (hbase : base = 10 ∨ base = 16) :
    ∀ c ∈ (padDigits base width n ++ rest).head?, isDigitOf base c = true := by
  intro c hc
  obtain ⟨d, text, hcons⟩ := List.exists_cons_of_ne_nil (padDigits_ne_nil base width n)
  rw [hcons, List.cons_append, List.head?_cons, Option.mem_some_iff] at hc
  exact isDigitOf_of_mem_padDigits hbase (hc ▸ hcons ▸ List.mem_cons_self)

theorem dropWhile_isSpace_append {sp : List Char} (hsp : ∀ c ∈ sp, isSpace c = true)
    (hrest : ∀ c ∈ rest.head?, isSpace c = false) : (sp ++ rest).dropWhile isSpace = rest := by
  rw [List.dropWhile_append_of_pos hsp]
  cases rest with
  | nil => rfl
  | cons c rest => simp [hrest c rfl]

theorem scan_space_blank {sp : List Char} (hsp : ∀ c ∈ sp, isSpace c = true)
    (hrest : ∀ c ∈ rest.head?, isSpace c = false) :
    scan input (.space :: f) (' ' :: (sp ++ rest)) = scan input f rest := by
  rw [scan_space, ← List.cons_append]
  exact congrArg _ (dropWhile_isSpace_append (List.forall_mem_cons.mpr ⟨rfl, hsp⟩) hrest)

theorem scan_space_blank_char {c : Char} (hc : isSpace c = false) :
    scan input (.space :: f) (' ' :: c :: rest) = scan input f (c :: rest) :=
  @scan_space_blank input (c :: rest) f [] (fun _ h => nomatch h)
    (fun _ h => Option.mem_some_iff.mp h ▸ hc)

theorem scan_space_padDigits (base : Nat) {width n : Nat} (hbase : base = 10 ∨ base = 16) :
    scan input (.space :: f) (' ' :: (padDigits base width n ++ rest)) =
      scan input f (padDigits base width n ++ rest) :=
  @scan_space_blank input (padDigits base width n ++ rest) f [] (fun _ h => nomatch h)
    (fun c hc => isSpace_eq_false_of_isDigitOf (head?_padDigits_append hbase c hc))

theorem scan_unsigned_padDigits (base : Nat) {bits width n : Nat} (c : Char)
    (hbase : base = 10 ∨ base = 16) (hn : n < 2 ^ 64) (hc : Stops base c) :
    scan input (.unsigned base bits :: f) (padDigits base width n ++ c :: rest) =
      (scan input f (c :: rest)).assign (.num (n % 2 ^ bits)) := by
  have htext : ∀ d ∈ padDigits base width n, isDigitOf base d = true :=
    fun _ hd => isDigitOf_of_mem_padDigits hbase hd
  apply scan_unsigned_of_scanNumber
  have hskip : (padDigits base width n ++ c :: rest).dropWhile isSpace =
      padDigits base width n ++ c :: rest := by
    simpa using @dropWhile_isSpace_append (padDigits base width n ++ c :: rest) []
      (fun _ h => nomatch h)
      (fun d hd => isSpace_eq_false_of_isDigitOf (head?_padDigits_append hbase d hd))
  rw [hskip, scanNumber_digits htext (padDigits_ne_nil base width n) hc,
    digitsValue_padDigits hbase, strtoul_of_lt hn]

theorem padDigits_zero (base n : Nat) : padDigits base 0 n = Nat.toDigits base n := by
  simp [padDigits]

theorem scan_space_toDigits (base : Nat) {n : Nat} (hbase : base = 10 ∨ base = 16) :
    scan input (.space :: f) (' ' :: (Nat.toDigits base n ++ rest)) =
      scan input f (Nat.toDigits base n ++ rest) := by
  rw [← padDigits_zero]
  exact scan_space_padDigits base hbase

theorem scan_unsigned_toDigits (base : Nat) {bits n : Nat} (c : Char)
    (hbase : base = 10 ∨ base = 16) (hn : n < 2 ^ 64) (hc : Stops base c) :
    scan input (.unsigned base bits :: f) (Nat.toDigits base n ++ c :: rest) =
      (scan input f (c :: rest)).assign (.num (n % 2 ^ bits)) := by
  rw [← padDigits_zero]
  exact scan_unsigned_padDigits base c hbase hn hc

theorem cString_append {l : List Char} (h : ∀ c ∈ l, c.toNat ≠ 0) (m : List Char) :
    cString (l ++ m) = l ++ cString m :=
  List.takeWhile_append_of_pos fun c hc => bne_iff_ne.mpr fun hnul => h c hc (hnul ▸ rfl)

theorem head?_cString_dropWhile (l : List Char) :
    ∀ c ∈ (cString (l.dropWhile isSpace)).head?, isSpace c = false := by
  intro c hc
  rw [cString, List.head?_takeWhile] at hc
  have hhead := List.head?_dropWhile_not isSpace l
  obtain ⟨hc, -⟩ := Option.mem_filter_iff.mp hc
  rw [Option.mem_def.mp hc] at hhead
  exact hhead

end Lemmas

end Scanf

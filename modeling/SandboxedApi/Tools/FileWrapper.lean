import Mathlib.Data.List.Chain

namespace SandboxedApi

set_option maxRecDepth 4000 in
/-- `kCEscapedLen`: how many characters `FWriteCEscapedC` writes for each byte. -/
def kCEscapedLen : Vector Nat 256 := #v[
  4, 4, 4, 4, 4, 4, 4, 4, 4, 2, 2, 4, 4, 2, 4, 4,
  4, 4, 4, 4, 4, 4, 4, 4, 4, 4, 4, 4, 4, 4, 4, 4,
  1, 1, 2, 1, 1, 1, 1, 1, 1, 1, 1, 1, 1, 1, 1, 1,
  1, 1, 1, 1, 1, 1, 1, 1, 1, 1, 1, 1, 1, 1, 1, 2,
  1, 1, 1, 1, 1, 1, 1, 1, 1, 1, 1, 1, 1, 1, 1, 1,
  1, 1, 1, 1, 1, 1, 1, 1, 1, 1, 1, 1, 2, 1, 1, 1,
  1, 1, 1, 1, 1, 1, 1, 1, 1, 1, 1, 1, 1, 1, 1, 1,
  1, 1, 1, 1, 1, 1, 1, 1, 1, 1, 1, 1, 1, 1, 1, 4,
  4, 4, 4, 4, 4, 4, 4, 4, 4, 4, 4, 4, 4, 4, 4, 4,
  4, 4, 4, 4, 4, 4, 4, 4, 4, 4, 4, 4, 4, 4, 4, 4,
  4, 4, 4, 4, 4, 4, 4, 4, 4, 4, 4, 4, 4, 4, 4, 4,
  4, 4, 4, 4, 4, 4, 4, 4, 4, 4, 4, 4, 4, 4, 4, 4,
  4, 4, 4, 4, 4, 4, 4, 4, 4, 4, 4, 4, 4, 4, 4, 4,
  4, 4, 4, 4, 4, 4, 4, 4, 4, 4, 4, 4, 4, 4, 4, 4,
  4, 4, 4, 4, 4, 4, 4, 4, 4, 4, 4, 4, 4, 4, 4, 4,
  4, 4, 4, 4, 4, 4, 4, 4, 4, 4, 4, 4, 4, 4, 4, 4]

/-- `'0' + n`. -/
def digitPlus (n : Nat) : Char := Char.ofNat ('0'.toNat + n)

/-- `FWriteCEscapedC`: the characters written for the byte `c` read by `fgetc`. -/
def fWriteCEscapedC (c : UInt8) : List Char :=
  let charLen := kCEscapedLen[c.toFin]
  if charLen = 1 then [Char.ofNat c.toNat]
  else if charLen = 2 then
    '\\' :: match c.toNat with
      | 0 => ['0']
      | 10 => ['n']
      | 13 => ['r']
      | 9 => ['t']
      | 34 | 39 | 92 | 63 => [Char.ofNat c.toNat]
      | _ => []
  else
    ['\\', digitPlus (c.toNat / 64), digitPlus (c.toNat % 64 / 8), digitPlus (c.toNat % 8)]

/-- `kCcDataBeginFmt` for the identifier `ident`. -/
def kCcDataBegin (ident : List Char) : List Char :=
  "constexpr absl::string_view ".toList ++ ident ++ " = \x7b\"".toList

/-- `kCcDataEndFmt` for `size` bytes, printed by `%d`. -/
def kCcDataEnd (size : Nat) : List Char :=
  "\", ".toList ++ Nat.toDigits 10 size ++ "\x7d;\n".toList

def dataIdent (basename : List Char) : List Char :=
  ('k' :: basename).map (fun c => if c.isAlphanum then c else '_')

def ccData (basename : List Char) (contents : List UInt8) : List Char :=
  kCcDataBegin (dataIdent basename) ++ contents.flatMap fWriteCEscapedC ++
    kCcDataEnd contents.length

def trigraph : Char → Option Char
  | '=' => some '#'
  | '/' => some '\\'
  | '\'' => some '^'
  | '(' => some '['
  | ')' => some ']'
  | '!' => some '|'
  | '<' => some '\x7b'
  | '>' => some '\x7d'
  | '-' => some '~'
  | _ => none

def replaceTrigraphs : List Char → List Char
  | [] => []
  | '?' :: tail@('?' :: c :: rest) =>
    match trigraph c with
    | some r => r :: replaceTrigraphs rest
    | none => '?' :: replaceTrigraphs tail
  | c :: rest => c :: replaceTrigraphs rest

def isOctalDigit (ch : Char) : Bool := '0' ≤ ch && ch ≤ '7'

def isHexDigit (ch : Char) : Bool :=
  ch.isDigit || ('a' ≤ ch && ch ≤ 'f') || ('A' ≤ ch && ch ≤ 'F')

def hexDigitValue (ch : Char) : Nat :=
  if ch.isDigit then ch.toNat - '0'.toNat
  else if 'a' ≤ ch && ch ≤ 'f' then ch.toNat - 'a'.toNat + 10
  else ch.toNat - 'A'.toNat + 10

def lexOctalDigits : Nat → Nat → List Char → Nat × List Char
  | 0, value, text => (value, text)
  | _ + 1, value, [] => (value, [])
  | n + 1, value, d :: rest =>
    if isOctalDigit d then lexOctalDigits n (8 * value + (d.toNat - '0'.toNat)) rest
    else (value, d :: rest)

def lexHexDigits : Nat → List Char → Nat × List Char
  | value, [] => (value, [])
  | value, d :: rest =>
    if isHexDigit d then lexHexDigits (16 * value + hexDigitValue d) rest
    else (value, d :: rest)

def lexEscape : List Char → Option (Nat × List Char)
  | '\'' :: rest => some (39, rest)
  | '"' :: rest => some (34, rest)
  | '?' :: rest => some (63, rest)
  | '\\' :: rest => some (92, rest)
  | 'a' :: rest => some (7, rest)
  | 'b' :: rest => some (8, rest)
  | 'f' :: rest => some (12, rest)
  | 'n' :: rest => some (10, rest)
  | 'r' :: rest => some (13, rest)
  | 't' :: rest => some (9, rest)
  | 'v' :: rest => some (11, rest)
  | 'x' :: d :: rest =>
    if isHexDigit d then
      let (value, rest) := lexHexDigits (hexDigitValue d) rest
      if value < 256 then some (value, rest) else none
    else none
  | d :: rest =>
    if isOctalDigit d then
      let (value, rest) := lexOctalDigits 2 (d.toNat - '0'.toNat) rest
      if value < 256 then some (value, rest) else none
    else none
  | [] => none

def lexStringChar : List Char → Option (Nat × List Char)
  | '\\' :: rest => lexEscape rest
  | '"' :: _ => none
  | '\n' :: _ => none
  | '\r' :: _ => none
  | ch :: rest => some (ch.toNat, rest)
  | [] => none

def lexStringLiteral : Nat → List Char → Option (List Nat × List Char)
  | 0, _ => none
  | _ + 1, '"' :: rest => some ([], rest)
  | fuel + 1, text =>
    match lexStringChar text with
    | none => none
    | some (value, rest) =>
      match lexStringLiteral fuel rest with
      | none => none
      | some (values, after) => some (value :: values, after)

def decodeStringLiteral (text : List Char) : Option (List Nat × List Char) :=
  lexStringLiteral text.length text

theorem fWriteCEscapedC_eq (c : UInt8) :
    fWriteCEscapedC c =
      if kCEscapedLen[c.toFin] = 1 then [Char.ofNat c.toNat]
      else if kCEscapedLen[c.toFin] = 2 then
        '\\' :: match c.toNat with
          | 0 => ['0']
          | 10 => ['n']
          | 13 => ['r']
          | 9 => ['t']
          | 34 | 39 | 92 | 63 => [Char.ofNat c.toNat]
          | _ => []
      else
        ['\\', digitPlus (c.toNat / 64), digitPlus (c.toNat % 64 / 8), digitPlus (c.toNat % 8)] :=
  rfl

theorem kCEscapedLen_eq : ∀ n (h : n < 256), kCEscapedLen[n] =
    if 32 ≤ n ∧ n ≤ 126 ∧ n ≠ 34 ∧ n ≠ 63 ∧ n ≠ 92 then 1
    else if n = 9 ∨ n = 10 ∨ n = 13 ∨ n = 34 ∨ n = 63 ∨ n = 92 then 2
    else 4 := by
  decide +kernel

theorem kCEscapedLen_one {n : Nat} (h : n < 256) (h₁ : kCEscapedLen[n] = 1) :
    32 ≤ n ∧ n ≤ 126 ∧ n ≠ 34 ∧ n ≠ 63 ∧ n ≠ 92 := by
  rw [kCEscapedLen_eq n h] at h₁
  split_ifs at h₁ with hplain hescape
  · exact hplain
  all_goals omega

theorem kCEscapedLen_two {n : Nat} (h : n < 256) (h₂ : kCEscapedLen[n] = 2) :
    n = 9 ∨ n = 10 ∨ n = 13 ∨ n = 34 ∨ n = 63 ∨ n = 92 := by
  rw [kCEscapedLen_eq n h] at h₂
  split_ifs at h₂ with hplain hescape
  · omega
  · exact hescape
  · omega

theorem toNat_charOfNat {n : Nat} (h : n < 256) : (Char.ofNat n).toNat = n := by
  have hv : n.isValidChar := Or.inl (by omega)
  rw [Char.ofNat, dif_pos hv]
  rfl

theorem toNat_digitPlus {n : Nat} (h : n < 8) : (digitPlus n).toNat = '0'.toNat + n :=
  toNat_charOfNat (by have : '0'.toNat = 48 := rfl; omega)

theorem isOctalDigit_digitPlus {n : Nat} (h : n < 8) : isOctalDigit (digitPlus n) = true := by
  have hd := toNat_digitPlus h
  have h0 : '0'.toNat = 48 := rfl
  have h7 : '7'.toNat = 55 := rfl
  simp only [isOctalDigit, Bool.and_eq_true, decide_eq_true_eq, Char.le_def,
    UInt32.le_iff_toNat_le]
  simp only [Char.toNat] at hd h0 h7
  omega

theorem lexEscape_octal {d : Char} (hd : isOctalDigit d = true) (rest : List Char) :
    lexEscape (d :: rest) =
      match lexOctalDigits 2 (d.toNat - '0'.toNat) rest with
      | (value, rest) => if value < 256 then some (value, rest) else none := by
  have hne : ∀ c, isOctalDigit c = false → d = c → False := fun c hc h => by
    rw [h, hc] at hd
    cases hd
  rw [lexEscape.eq_13 d rest (hne _ rfl) (hne _ rfl) (hne _ rfl) (hne _ rfl) (hne _ rfl)
    (hne _ rfl) (hne _ rfl) (hne _ rfl) (hne _ rfl) (hne _ rfl) (hne _ rfl)
    (fun _ _ h _ => hne 'x' rfl h), if_pos hd]

theorem lexOctalDigits_two {d₂ d₃ : Char} (h₂ : isOctalDigit d₂ = true)
    (h₃ : isOctalDigit d₃ = true) (value : Nat) (rest : List Char) :
    lexOctalDigits 2 value (d₂ :: d₃ :: rest) =
      (8 * (8 * value + (d₂.toNat - '0'.toNat)) + (d₃.toNat - '0'.toNat), rest) := by
  simp [lexOctalDigits, h₂, h₃]

theorem lexStringChar_octal {n : Nat} (hn : n < 256) (rest : List Char) :
    lexStringChar ('\\' :: digitPlus (n / 64) :: digitPlus (n % 64 / 8) :: digitPlus (n % 8) ::
      rest) = some (n, rest) := by
  have h₁ : n / 64 < 8 := by omega
  have h₂ : n % 64 / 8 < 8 := by omega
  have h₃ : n % 8 < 8 := by omega
  have hvalue : 8 * (8 * ('0'.toNat + n / 64 - '0'.toNat) + ('0'.toNat + n % 64 / 8 - '0'.toNat)) +
      ('0'.toNat + n % 8 - '0'.toNat) = n := by
    omega
  rw [lexStringChar.eq_1, lexEscape_octal (isOctalDigit_digitPlus h₁),
    lexOctalDigits_two (isOctalDigit_digitPlus h₂) (isOctalDigit_digitPlus h₃),
    toNat_digitPlus h₁, toNat_digitPlus h₂, toNat_digitPlus h₃, hvalue]
  simp [hn]

theorem lexStringChar_fWriteCEscapedC (c : UInt8) (rest : List Char) :
    lexStringChar (fWriteCEscapedC c ++ rest) = some (c.toNat, rest) := by
  by_cases h₁ : kCEscapedLen[c.toFin] = 1
  · -- written as it is
    obtain ⟨hlo, -, h34, -, h92⟩ := kCEscapedLen_one c.toNat_lt h₁
    have hch := toNat_charOfNat c.toNat_lt
    have hne : ∀ ch : Char, c.toNat ≠ ch.toNat → Char.ofNat c.toNat = ch → False :=
      fun ch h heq => h (hch.symm.trans (congrArg Char.toNat heq))
    have h10 : c.toNat ≠ 10 := by omega
    have h13 : c.toNat ≠ 13 := by omega
    simp only [fWriteCEscapedC_eq, h₁, ↓reduceIte, List.singleton_append]
    rw [lexStringChar.eq_5 _ _ (hne '\\' h92) (hne '"' h34) (hne '\n' h10) (hne '\r' h13), hch]
  · by_cases h₂ : kCEscapedLen[c.toFin] = 2
    · -- a simple escape: one case of the switch for each such byte
      have hc' : c = UInt8.ofNat c.toNat := UInt8.ofNat_toNat.symm
      rcases kCEscapedLen_two c.toNat_lt h₂ with h | h | h | h | h | h <;>
        · rw [h] at hc'
          subst hc'
          rfl
    · -- an octal escape of three digits
      simp only [fWriteCEscapedC_eq, h₁, h₂, ↓reduceIte, List.cons_append, List.nil_append]
      exact lexStringChar_octal c.toNat_lt rest

theorem fWriteCEscapedC_ne_nil (c : UInt8) : fWriteCEscapedC c ≠ [] := by
  rw [fWriteCEscapedC_eq]
  split_ifs <;> simp

theorem length_le_flatMap_fWriteCEscapedC (contents : List UInt8) :
    contents.length ≤ (contents.flatMap fWriteCEscapedC).length := by
  induction contents with
  | nil => simp
  | cons c cs ih =>
    have hc := List.length_pos_of_ne_nil (fWriteCEscapedC_ne_nil c)
    simp only [List.flatMap_cons, List.length_append, List.length_cons]
    omega

theorem lexStringLiteral_flatMap (contents : List UInt8) (rest : List Char) {fuel : Nat}
    (hfuel : contents.length < fuel) :
    lexStringLiteral fuel (contents.flatMap fWriteCEscapedC ++ '"' :: rest) =
      some (contents.map UInt8.toNat, rest) := by
  obtain ⟨f, rfl⟩ : ∃ f, fuel = f + 1 := ⟨fuel - 1, by omega⟩
  induction contents generalizing f with
  | nil => rfl
  | cons c cs ih =>
    have hchar := lexStringChar_fWriteCEscapedC c (cs.flatMap fWriteCEscapedC ++ '"' :: rest)
    have hquote : ∀ r, fWriteCEscapedC c ++ (cs.flatMap fWriteCEscapedC ++ '"' :: rest) =
        '"' :: r → False := by
      intro r h
      rw [h] at hchar
      cases hchar
    have hcs : cs.length < f := by
      simp only [List.length_cons] at hfuel
      omega
    obtain ⟨f', rfl⟩ : ∃ f', f = f' + 1 := ⟨f - 1, by omega⟩
    rw [List.flatMap_cons, List.append_assoc, lexStringLiteral.eq_3 _ _ hquote, hchar]
    simp only [ih f' hcs, List.map_cons]

def NoTrigraph (text : List Char) : Prop :=
  text.IsChain (fun a b => ¬ (a = '?' ∧ b = '?'))

def QuestionsEscaped (text : List Char) : Prop :=
  text.IsChain (fun a b => b = '?' → a = '\\') ∧ text.head? ≠ some '?'

theorem replaceTrigraphs_of_noTrigraph {text : List Char} (h : NoTrigraph text) :
    replaceTrigraphs text = text := by
  induction text with
  | nil => exact replaceTrigraphs.eq_1
  | cons a t ih =>
    have hnot : ∀ c r, a = '?' → t = '?' :: c :: r → False := by
      rintro c r rfl rfl
      exact (List.isChain_cons_cons.mp h).1 ⟨rfl, rfl⟩
    rw [replaceTrigraphs.eq_3 a t hnot, ih h.tail]

section

variable {a b text : List Char}

theorem QuestionsEscaped.noTrigraph (h : QuestionsEscaped text) : NoTrigraph text :=
  h.1.imp (fun x y hxy hq => absurd (hxy hq.2) (by rw [hq.1]; decide))

theorem QuestionsEscaped.append (ha : QuestionsEscaped a) (hb : QuestionsEscaped b) :
    QuestionsEscaped (a ++ b) := by
  refine ⟨ha.1.append hb.1 ?_, ?_⟩
  · -- at the seam: the next part does not start with a question mark
    intro x _ y hy hq
    rw [hq] at hy
    exact absurd hy hb.2
  · rw [List.head?_append]
    cases ha' : a.head? with
    | none => simpa using hb.2
    | some x => simpa [ha'] using ha.2

theorem questionsEscaped_of_not_mem (h : '?' ∉ text) : QuestionsEscaped text := by
  induction text with
  | nil => exact ⟨.nil, by simp⟩
  | cons x t ih =>
    have ht := ih (fun hq => h (List.mem_cons_of_mem _ hq))
    refine ⟨List.isChain_cons.mpr ⟨fun y hy hq => ?_, ht.1⟩, ?_⟩
    · rw [hq] at hy
      exact absurd (List.mem_cons_of_mem _ (List.mem_of_mem_head? hy)) h
    · intro hx
      simp only [List.head?_cons, Option.some.injEq] at hx
      exact h (hx ▸ List.mem_cons_self)

end

theorem questionsEscaped_backslash (x : Char) : QuestionsEscaped ['\\', x] :=
  ⟨List.isChain_pair.mpr (fun _ => rfl), by simp⟩

theorem digitPlus_ne_question {n : Nat} (h : n < 8) : '?' ≠ digitPlus n := by
  intro hq
  have hn := congrArg Char.toNat hq
  have h0 : '0'.toNat = 48 := rfl
  have h63 : '?'.toNat = 63 := rfl
  rw [toNat_digitPlus h] at hn
  omega

theorem questionsEscaped_fWriteCEscapedC (c : UInt8) : QuestionsEscaped (fWriteCEscapedC c) := by
  by_cases h₁ : kCEscapedLen[c.toFin] = 1
  · -- a plain character other than the question mark
    obtain ⟨-, -, -, h63, -⟩ := kCEscapedLen_one c.toNat_lt h₁
    simp only [fWriteCEscapedC_eq, h₁, ↓reduceIte]
    apply questionsEscaped_of_not_mem
    intro hq
    have hn := congrArg Char.toNat (List.mem_singleton.mp hq)
    rw [toNat_charOfNat c.toNat_lt] at hn
    exact h63 hn.symm
  · by_cases h₂ : kCEscapedLen[c.toFin] = 2
    · -- a backslash and one character
      have hc' : c = UInt8.ofNat c.toNat := UInt8.ofNat_toNat.symm
      rcases kCEscapedLen_two c.toNat_lt h₂ with h | h | h | h | h | h <;>
        · rw [h] at hc'
          subst hc'
          exact questionsEscaped_backslash _
    · -- a backslash and three octal digits
      simp only [fWriteCEscapedC_eq, h₁, h₂, ↓reduceIte]
      have hc := c.toNat_lt
      apply questionsEscaped_of_not_mem
      simp only [List.mem_cons, List.not_mem_nil, or_false, not_or]
      exact ⟨by decide, digitPlus_ne_question (by omega), digitPlus_ne_question (by omega),
        digitPlus_ne_question (Nat.mod_lt _ (by omega))⟩

theorem questionsEscaped_flatMap (contents : List UInt8) :
    QuestionsEscaped (contents.flatMap fWriteCEscapedC) := by
  induction contents with
  | nil => exact ⟨.nil, by simp⟩
  | cons c cs ih =>
    rw [List.flatMap_cons]
    exact (questionsEscaped_fWriteCEscapedC c).append ih

theorem question_not_mem_kCcDataBegin (basename : List Char) :
    '?' ∉ kCcDataBegin (dataIdent basename) := by
  have hident : '?' ∉ dataIdent basename := by
    simp only [dataIdent, List.mem_map, not_exists, not_and]
    intro x _ hx
    by_cases hal : x.isAlphanum = true
    · rw [if_pos hal] at hx
      rw [hx] at hal
      exact absurd hal (by decide)
    · rw [if_neg hal] at hx
      exact absurd hx (by decide)
  unfold kCcDataBegin
  simp only [List.mem_append, not_or]
  exact ⟨⟨by decide, hident⟩, by decide⟩

theorem question_not_mem_kCcDataEnd (size : Nat) : '?' ∉ kCcDataEnd size := by
  have hdigits : '?' ∉ Nat.toDigits 10 size := fun h =>
    absurd (Nat.isDigit_of_mem_toDigits (by decide) (by decide) h) (by decide)
  unfold kCcDataEnd
  simp only [List.mem_append, not_or]
  exact ⟨⟨by decide, hdigits⟩, by decide⟩

theorem kCcDataEnd_eq (size : Nat) :
    kCcDataEnd size = '"' :: (", ".toList ++ Nat.toDigits 10 size ++ "\x7d;\n".toList) := by
  have hquote : "\", ".toList = '"' :: ", ".toList := by decide
  unfold kCcDataEnd
  rw [hquote]
  rfl

theorem decodeStringLiteral_escaped (contents : List UInt8) :
    decodeStringLiteral (contents.flatMap fWriteCEscapedC ++ kCcDataEnd contents.length) =
      some (contents.map UInt8.toNat,
        ", ".toList ++ Nat.toDigits 10 contents.length ++ "\x7d;\n".toList) := by
  have hfuel : contents.length < (contents.flatMap fWriteCEscapedC ++
      kCcDataEnd contents.length).length := by
    have hlen := length_le_flatMap_fWriteCEscapedC contents
    rw [List.length_append, kCcDataEnd_eq, List.length_cons]
    omega
  rw [decodeStringLiteral, kCcDataEnd_eq]
  rw [kCcDataEnd_eq] at hfuel
  exact lexStringLiteral_flatMap contents _ hfuel

/-- An embedded file reads back exactly from the text written for it: trigraph replacement leaves
the text as it is, after the opening of the declaration comes a string literal that holds exactly
the file's bytes and ends at the closing quote, and the size written after it is the number of
bytes. -/
theorem ccData_round_trip (basename : List Char) (contents : List UInt8) :
    replaceTrigraphs (ccData basename contents) = ccData basename contents ∧
      ∃ literal digits, ccData basename contents = kCcDataBegin (dataIdent basename) ++ literal ∧
        decodeStringLiteral literal =
          some (contents.map UInt8.toNat, ", ".toList ++ digits ++ "\x7d;\n".toList) ∧
        Nat.ofDigitChars 10 digits 0 = contents.length := by
  have hescaped : QuestionsEscaped (ccData basename contents) :=
    ((questionsEscaped_of_not_mem (question_not_mem_kCcDataBegin basename)).append
      (questionsEscaped_flatMap contents)).append
      (questionsEscaped_of_not_mem (question_not_mem_kCcDataEnd contents.length))
  have hsplit : ccData basename contents = kCcDataBegin (dataIdent basename) ++
      (contents.flatMap fWriteCEscapedC ++ kCcDataEnd contents.length) := by
    rw [ccData, List.append_assoc]
  exact ⟨replaceTrigraphs_of_noTrigraph hescaped.noTrigraph, _, Nat.toDigits 10 contents.length,
    hsplit, decodeStringLiteral_escaped contents, Nat.ofDigitChars_toDigits (by decide) (by decide)⟩

end SandboxedApi

import SandboxedApi.Bpf.Helper
import SandboxedApi.Bpf.Run

namespace SandboxedApi

def SockFilter.IsJump (instr : SockFilter) : Prop :=
  instr.code = bpfJmp + bpfJa ∧ instr.jt = jumpJt ∧ instr.jf = jumpJf

def SockFilter.IsLabel (instr : SockFilter) : Prop :=
  instr.code = bpfJmp + bpfJa ∧ instr.jt = labelJt ∧ instr.jf = labelJf

def SockFilter.IsLabelOf (l : Nat) (instr : SockFilter) : Prop :=
  instr.IsLabel ∧ instr.k.toNat = l

instance (instr : SockFilter) : Decidable instr.IsJump := inferInstanceAs (Decidable (_ ∧ _))

instance (instr : SockFilter) : Decidable instr.IsLabel := inferInstanceAs (Decidable (_ ∧ _))

instance (l : Nat) (instr : SockFilter) : Decidable (instr.IsLabelOf l) :=
  inferInstanceAs (Decidable (_ ∧ _))

theorem SockFilter.IsJump.not_isLabel {instr : SockFilter} (h : instr.IsJump) : ¬instr.IsLabel :=
  fun hl => absurd (h.2.1.symm.trans hl.2.1) (by decide)

def labelFrom (filter : List SockFilter) (o l : Nat) : Option Nat :=
  ((filter.drop o).findIdx? fun instr => decide (instr.IsLabelOf l)).map (· + o)

def resolvePlaceholder (filter : List SockFilter) (i : Nat) (instr : SockFilter) : SockFilter :=
  if instr.IsJump then
    match labelFrom filter (i + 1) instr.k.toNat with
    | some j => bpfStmt (bpfJmp + bpfJa) (UInt32.ofNat (j - (i + 1)))
    | none => instr
  else if instr.IsLabel then bpfStmt (bpfJmp + bpfJa) 0
  else instr

def resolveLabels (filter : List SockFilter) : List SockFilter :=
  filter.mapIdx (resolvePlaceholder filter)

structure Resolvable (count : Nat) (filter : List SockFilter) : Prop where
  ja_lt_count : ∀ (i : Nat) (instr : SockFilter), filter[i]? = some instr →
    instr.code = bpfJmp + bpfJa → instr.k.toNat < count
  jump_has_label : ∀ (i : Nat) (instr : SockFilter), filter[i]? = some instr → instr.IsJump →
    ∃ (j : Nat) (target : SockFilter), i < j ∧ filter[j]? = some target ∧ target.IsLabelOf instr.k.toNat
  label_unique : ∀ (i j l : Nat) (a b : SockFilter), filter[i]? = some a → filter[j]? = some b →
    a.IsLabelOf l → b.IsLabelOf l → i = j

def labelledStep (filter : List SockFilter) (data : SeccompData) (s : Interpreter) :
    Except EvalError Interpreter :=
  match filter[s.pc]? with
  | some instr =>
    if instr.IsJump then
      match labelFrom filter (s.pc + 1) instr.k.toNat with
      | some j => .ok { s with pc := j }
      | none => .error .outOfBoundsJump
    else if instr.IsLabel then advance filter s 0
    else evaluateSingleInstruction filter data s
  | none => .error .outOfBoundsExecution

/-- `Evaluate` with the label-level rounds of `labelledStep`. -/
def evaluateLabelled (filter : List SockFilter) (data : SeccompData) : Except EvalError UInt32 :=
  Machine.loop (labelledStep filter data) Interpreter.result .outOfBoundsExecution
    (filter.length + 1) Interpreter.init

inductive BpfLabels.Filled : BpfLabels → Prop
  | empty : BpfLabels.Filled BpfLabels.empty
  | label {l : BpfLabels} (name : String) : l.Filled → (seccompBpfLabel name l).2.Filled

structure BpfLabels.Unplaced (l : BpfLabels) : Prop where
  length_eq : l.labels.length = l.count
  location_eq : ∀ e ∈ l.labels, e.location = 0xffffffff

theorem count_le_seccompBpfLabel (l : BpfLabels) (name : String) :
    l.count ≤ (seccompBpfLabel name l).2.count := by
  unfold seccompBpfLabel
  split_ifs <;> (try split) <;> simp_all

theorem BpfLabels.Unplaced.label {l : BpfLabels} (hu : l.Unplaced) (name : String)
    (hc : (seccompBpfLabel name l).2.count ≤ bpfLabelsMax) : (seccompBpfLabel name l).2.Unplaced := by
  by_cases hover : l.count > bpfLabelsMax
  · simpa [seccompBpfLabel, hover] using hu
  cases hf : l.labels.findIdx? (·.label == name) with
  | some id => simpa [seccompBpfLabel, hover, hf] using hu
  | none =>
    by_cases hfull : l.count = bpfLabelsMax
    · -- the overflow path: `count` goes past the bound
      simp only [seccompBpfLabel, hf, hfull, gt_iff_lt, Nat.lt_irrefl, if_false, if_true] at hc
      omega
    · simp only [seccompBpfLabel, hover, hf, hfull, if_false]
      refine ⟨by simp [hu.length_eq], fun e he => ?_⟩
      rcases List.mem_append.mp he with he | he
      · exact hu.location_eq e he
      · rw [List.mem_singleton.mp he]

theorem BpfLabels.Filled.unplaced {l : BpfLabels} (h : l.Filled) (hc : l.count ≤ bpfLabelsMax) :
    l.Unplaced := by
  induction h with
  | empty => exact ⟨rfl, by simp [BpfLabels.empty]⟩
  | @label l name _ ih =>
    exact (ih (Nat.le_trans (count_le_seccompBpfLabel l name) hc)).label name hc

section

variable {filter : List SockFilter} {o l j : Nat} {instr : SockFilter}

theorem labelFrom_of_getElem? (h : filter[o]? = some instr) :
    labelFrom filter o l = if instr.IsLabelOf l then some o else labelFrom filter (o + 1) l := by
  obtain ⟨ho, rfl⟩ := List.getElem?_eq_some_iff.mp h
  rw [labelFrom, List.drop_eq_getElem_cons ho, List.findIdx?_cons]
  by_cases hl : filter[o].IsLabelOf l
  · simp [hl]
  · simp only [hl, decide_false, Bool.false_eq_true, if_false, Option.map_map, labelFrom]
    congr 1
    funext i
    simp only [Function.comp]
    omega

theorem labelFrom_eq_none_iff :
    labelFrom filter o l = none ↔
      ∀ j instr, o ≤ j → filter[j]? = some instr → ¬instr.IsLabelOf l := by
  simp only [labelFrom, Option.map_eq_none_iff, List.findIdx?_eq_none_iff, decide_eq_false_iff_not]
  constructor
  · intro h j instr hj hget
    apply h instr
    rw [List.mem_iff_getElem?]
    exact ⟨j - o, by rw [List.getElem?_drop, Nat.add_sub_cancel' hj]; exact hget⟩
  · intro h instr hmem
    obtain ⟨i, hi⟩ := List.mem_iff_getElem?.mp hmem
    rw [List.getElem?_drop] at hi
    exact h (o + i) instr (Nat.le_add_right o i) hi

theorem labelFrom_eq_some (h : labelFrom filter o l = some j) :
    o ≤ j ∧ ∃ instr, filter[j]? = some instr ∧ instr.IsLabelOf l := by
  obtain ⟨i, hi, rfl⟩ := Option.map_eq_some_iff.mp h
  obtain ⟨hlt, hp, -⟩ := List.findIdx?_eq_some_iff_getElem.mp hi
  refine ⟨Nat.le_add_left o i, (filter.drop o)[i], ?_, of_decide_eq_true hp⟩
  rw [Nat.add_comm, ← List.getElem?_drop]
  exact List.getElem?_eq_getElem hlt

theorem labelFrom_lt_length (h : labelFrom filter o l = some j) : j < filter.length := by
  obtain ⟨-, instr, hj, -⟩ := labelFrom_eq_some h
  exact (List.getElem?_eq_some_iff.mp hj).1

theorem labelFrom_of_length_le (h : filter.length ≤ o) : labelFrom filter o l = none :=
  labelFrom_eq_none_iff.mpr fun j instr hj hget => by
    have := (List.getElem?_eq_some_iff.mp hget).1
    omega

end

section

variable {filter : List SockFilter} {i j o : Nat} {instr : SockFilter}

theorem fixup_eq_bpfStmt (hja : instr.code = bpfJmp + bpfJa) (k : UInt32) :
    { instr with k := k, jt := 0, jf := 0 } = bpfStmt (bpfJmp + bpfJa) k := by
  obtain ⟨code, jt, jf, k'⟩ := instr
  subst hja
  rfl

theorem resolvePlaceholder_of_jump (hj : instr.IsJump)
    (hl : labelFrom filter (i + 1) instr.k.toNat = some j) :
    resolvePlaceholder filter i instr = bpfStmt (bpfJmp + bpfJa) (UInt32.ofNat (j - (i + 1))) := by
  simp [resolvePlaceholder, hj, hl]

theorem resolvePlaceholder_of_label (hl : instr.IsLabel) :
    resolvePlaceholder filter i instr = bpfStmt (bpfJmp + bpfJa) 0 := by
  have hj : ¬instr.IsJump := fun hj => hj.not_isLabel hl
  simp [resolvePlaceholder, hj, hl]

theorem resolvePlaceholder_of_not_placeholder (hj : ¬instr.IsJump) (hl : ¬instr.IsLabel) :
    resolvePlaceholder filter i instr = instr := by
  simp [resolvePlaceholder, hj, hl]

def resolvedFrom (filter : List SockFilter) (o : Nat) : List SockFilter :=
  filter.mapIdx fun i instr => if o ≤ i then resolvePlaceholder filter i instr else instr

@[simp] theorem length_resolvedFrom : (resolvedFrom filter o).length = filter.length :=
  List.length_mapIdx

theorem getElem?_resolvedFrom :
    (resolvedFrom filter o)[i]? =
      filter[i]?.map fun instr => if o ≤ i then resolvePlaceholder filter i instr else instr :=
  List.getElem?_mapIdx

theorem getElem?_resolvedFrom_of_lt (hi : i < o) : (resolvedFrom filter o)[i]? = filter[i]? := by
  rw [getElem?_resolvedFrom]
  cases filter[i]? <;> simp [Nat.not_le.mpr hi]

theorem resolvedFrom_of_length_le (h : filter.length ≤ o) : resolvedFrom filter o = filter := by
  apply List.ext_getElem?
  intro i
  rw [getElem?_resolvedFrom]
  by_cases hi : i < filter.length
  · simp [show ¬o ≤ i by omega]
  · simp [List.getElem?_eq_none (Nat.le_of_not_lt hi)]

theorem resolvedFrom_zero : resolvedFrom filter 0 = resolveLabels filter := by
  simp [resolvedFrom, resolveLabels]

theorem resolvedFrom_succ (h : filter[o]? = some instr) :
    resolvedFrom filter o = (resolvedFrom filter (o + 1)).set o (resolvePlaceholder filter o instr) := by
  obtain ⟨ho, rfl⟩ := List.getElem?_eq_some_iff.mp h
  apply List.ext_getElem?
  intro i
  rw [List.getElem?_set, getElem?_resolvedFrom, getElem?_resolvedFrom, length_resolvedFrom]
  by_cases hio : o = i
  · subst hio
    simp [ho]
  · rw [if_neg hio]
    cases filter[i]? with
    | none => rfl
    | some x =>
      have hle : o ≤ i ↔ o + 1 ≤ i := by omega
      simp only [Option.map_some, hle]

theorem resolvedFrom_of_fixed (h : filter[o]? = some instr)
    (hfix : resolvePlaceholder filter o instr = instr) :
    resolvedFrom filter o = resolvedFrom filter (o + 1) := by
  have hcur : (resolvedFrom filter (o + 1))[o]? = some instr := by
    rw [getElem?_resolvedFrom_of_lt (Nat.lt_succ_self o), h]
  obtain ⟨hlt, hget⟩ := List.getElem?_eq_some_iff.mp hcur
  rw [resolvedFrom_succ h, hfix, ← hget]
  exact List.set_getElem_self hlt

end

def encodeLocation : Option Nat → UInt32
  | some j => UInt32.ofNat j
  | none => 0xffffffff

def labelsFrom (labels : BpfLabels) (filter : List SockFilter) (o : Nat) : BpfLabels :=
  { labels with
    labels := labels.labels.mapIdx fun l e =>
      { e with location := encodeLocation (labelFrom filter o l) } }

def Rejects (count : Nat) (filter : List SockFilter) (o : Nat) (instr : SockFilter) : Prop :=
  instr.code = bpfJmp + bpfJa ∧
    (count ≤ instr.k.toNat ∨ (instr.IsJump ∧ labelFrom filter (o + 1) instr.k.toNat = none) ∨
      (instr.IsLabel ∧ labelFrom filter (o + 1) instr.k.toNat ≠ none))

instance (count : Nat) (filter : List SockFilter) (o : Nat) (instr : SockFilter) :
    Decidable (Rejects count filter o instr) :=
  inferInstanceAs (Decidable (_ ∧ _))

def RejectedAt (count : Nat) (filter : List SockFilter) (p : Nat) : Prop :=
  ∃ instr, filter[p]? = some instr ∧ Rejects count filter p instr

section

variable {labels : BpfLabels} {filter : List SockFilter} {o l : Nat} {instr : SockFilter}

theorem encodeLocation_eq_unset_iff {x : Option Nat} (h : ∀ j, x = some j → j < 0xffffffff) :
    encodeLocation x = 0xffffffff ↔ x = none := by
  cases x with
  | none => simp [encodeLocation]
  | some j =>
    have hj := h j rfl
    simp only [encodeLocation, reduceCtorEq, iff_false]
    intro heq
    have hnat := congrArg UInt32.toNat heq
    rw [UInt32.toNat_ofNat'] at hnat
    simp only [UInt32.reduceToNat] at hnat
    omega

@[simp] theorem count_labelsFrom : (labelsFrom labels filter o).count = labels.count := rfl

theorem getElem?_labelsFrom :
    (labelsFrom labels filter o).labels[l]? =
      labels.labels[l]?.map fun e => { e with location := encodeLocation (labelFrom filter o l) } :=
  List.getElem?_mapIdx

theorem location_labelsFrom (hl : l < labels.labels.length) :
    ((labelsFrom labels filter o).labels[l]?.getD ⟨"", 0xffffffff⟩).location =
      encodeLocation (labelFrom filter o l) := by
  rw [getElem?_labelsFrom, List.getElem?_eq_getElem hl]
  rfl

theorem labelsFrom_of_length_le (hu : labels.Unplaced) (h : filter.length ≤ o) :
    labelsFrom labels filter o = labels := by
  obtain ⟨count, entries⟩ := labels
  simp only [labelsFrom, labelFrom_of_length_le h, encodeLocation]
  congr 1
  apply List.ext_getElem?
  intro l
  rw [List.getElem?_mapIdx]
  cases he : entries[l]? with
  | none => rfl
  | some e =>
    have hloc : e.location = 0xffffffff := hu.location_eq e (List.mem_of_getElem? he)
    rw [Option.map_some, ← hloc]

theorem labelsFrom_of_not_label (h : filter[o]? = some instr) (hl : ¬instr.IsLabel) :
    labelsFrom labels filter o = labelsFrom labels filter (o + 1) := by
  have hfrom : ∀ l, labelFrom filter o l = labelFrom filter (o + 1) l := fun l => by
    rw [labelFrom_of_getElem? h, if_neg fun h' => hl h'.1]
  simp only [labelsFrom, hfrom]

theorem labelsFrom_of_label (h : filter[o]? = some instr) (hl : instr.IsLabel)
    (hk : instr.k.toNat < labels.labels.length) :
    labelsFrom labels filter o =
      { labelsFrom labels filter (o + 1) with
        labels := (labelsFrom labels filter (o + 1)).labels.set instr.k.toNat
          { ((labelsFrom labels filter (o + 1)).labels[instr.k.toNat]?.getD ⟨"", 0xffffffff⟩) with
            location := UInt32.ofNat o } } := by
  have hself : labelFrom filter o instr.k.toNat = some o := by
    rw [labelFrom_of_getElem? h, if_pos ⟨hl, rfl⟩]
  have hother : ∀ l, l ≠ instr.k.toNat → labelFrom filter o l = labelFrom filter (o + 1) l :=
    fun l hne => by rw [labelFrom_of_getElem? h, if_neg fun h' => hne h'.2.symm]
  simp only [labelsFrom]
  congr 1
  apply List.ext_getElem?
  intro l
  rw [List.getElem?_set, List.getElem?_mapIdx, List.length_mapIdx]
  by_cases hlk : instr.k.toNat = l
  · subst hlk
    simp [hk, hself, encodeLocation]
  · rw [if_neg hlk, hother l (Ne.symm hlk), List.getElem?_mapIdx]

end

section

variable {labels : BpfLabels} {filter : List SockFilter} {o : Nat} {instr : SockFilter}

theorem resolveJumpsFrom_step (hu : labels.Unplaced) (hn : filter.length < 0xffffffff)
    (h : filter[o]? = some instr) :
    resolveJumpsFrom (labelsFrom labels filter (o + 1)) (resolvedFrom filter (o + 1)) (o + 1) =
      if Rejects labels.count filter o instr then
        (1, labelsFrom labels filter (o + 1), resolvedFrom filter (o + 1))
      else resolveJumpsFrom (labelsFrom labels filter o) (resolvedFrom filter o) o := by
  have hcur : (resolvedFrom filter (o + 1))[o]? = some instr := by
    rw [getElem?_resolvedFrom_of_lt (Nat.lt_succ_self o), h]
  have hbelow : ∀ j, labelFrom filter (o + 1) instr.k.toNat = some j → j < 0xffffffff :=
    fun j hj => Nat.lt_trans (labelFrom_lt_length hj) hn
  simp only [resolveJumpsFrom, hcur]
  by_cases hja : instr.code = bpfJmp + bpfJa
  swap
  · -- not a `BPF_JA`: the walk goes on with the state as it is
    have hnl : ¬instr.IsLabel := fun hl => hja hl.1
    rw [if_pos hja, if_neg fun hr => hja hr.1, labelsFrom_of_not_label h hnl,
      resolvedFrom_of_fixed h (resolvePlaceholder_of_not_placeholder (fun hj => hja hj.1) hnl)]
  rw [if_neg (not_not.mpr hja)]
  by_cases hk : labels.count ≤ instr.k.toNat
  · rw [if_pos (show instr.k.toNat ≥ (labelsFrom labels filter (o + 1)).count from hk),
      if_pos ⟨hja, .inl hk⟩]
  have hkl : instr.k.toNat < labels.labels.length := hu.length_eq ▸ Nat.lt_of_not_le hk
  rw [if_neg (show ¬instr.k.toNat ≥ (labelsFrom labels filter (o + 1)).count from hk),
    location_labelsFrom hkl]
  by_cases hjump : instr.jt = jumpJt ∧ instr.jf = jumpJf
  · -- a jump: its label must be placed already, further on
    have hj : instr.IsJump := ⟨hja, hjump⟩
    rw [if_pos hjump]
    cases hlab : labelFrom filter (o + 1) instr.k.toNat with
    | none =>
      rw [if_pos (show encodeLocation none = 0xffffffff from rfl), if_pos ⟨hja, .inr (.inl ⟨hj, hlab⟩)⟩]
    | some j =>
      have hne : encodeLocation (some j) ≠ 0xffffffff := fun he =>
        nomatch (encodeLocation_eq_unset_iff (hlab ▸ hbelow)).mp he
      have hrej : ¬Rejects labels.count filter o instr := by
        rintro ⟨-, hr | ⟨-, hr⟩ | ⟨hl, -⟩⟩
        · exact hk hr
        · exact nomatch hlab.symm.trans hr
        · exact hj.not_isLabel hl
      have hle : o + 1 ≤ j := (labelFrom_eq_some hlab).1
      rw [if_neg hne, if_neg hrej, labelsFrom_of_not_label h hj.not_isLabel, resolvedFrom_succ h,
        resolvePlaceholder_of_jump hj hlab, encodeLocation, ← UInt32.ofNat_sub hle,
        fixup_eq_bpfStmt hja]
  · rw [if_neg hjump]
    by_cases hlabel : instr.jt = labelJt ∧ instr.jf = labelJf
    · -- a label: it must not be placed yet
      have hl : instr.IsLabel := ⟨hja, hlabel⟩
      rw [if_pos hlabel]
      cases hlab : labelFrom filter (o + 1) instr.k.toNat with
      | some j =>
        have hne : encodeLocation (some j) ≠ 0xffffffff := fun he =>
          nomatch (encodeLocation_eq_unset_iff (hlab ▸ hbelow)).mp he
        rw [if_pos hne, if_pos ⟨hja, .inr (.inr ⟨hl, by simp [hlab]⟩)⟩]
      | none =>
        have hrej : ¬Rejects labels.count filter o instr := by
          rintro ⟨-, hr | ⟨hj, -⟩ | ⟨-, hr⟩⟩
          · exact hk hr
          · exact hj.not_isLabel hl
          · exact hr hlab
        rw [if_neg (show ¬encodeLocation none ≠ 0xffffffff from not_not.mpr rfl), if_neg hrej, labelsFrom_of_label h hl hkl, resolvedFrom_succ h,
          resolvePlaceholder_of_label hl, fixup_eq_bpfStmt hja]
    · -- an ordinary `BPF_JA`, left as it is
      have hj : ¬instr.IsJump := fun hj => hjump hj.2
      have hl : ¬instr.IsLabel := fun hl => hlabel hl.2
      have hrej : ¬Rejects labels.count filter o instr := by
        rintro ⟨-, hr | ⟨hj', -⟩ | ⟨hl', -⟩⟩
        · exact hk hr
        · exact hj hj'
        · exact hl hl'
      rw [if_neg hlabel, if_neg hrej, labelsFrom_of_not_label h hl,
        resolvedFrom_of_fixed h (resolvePlaceholder_of_not_placeholder hj hl)]

theorem resolveJumpsFrom_outcome (hu : labels.Unplaced) (hn : filter.length < 0xffffffff)
    (o : Nat) (ho : o ≤ filter.length) :
    ((∃ p < o, RejectedAt labels.count filter p) ∧
        (resolveJumpsFrom (labelsFrom labels filter o) (resolvedFrom filter o) o).1 = 1) ∨
      ((∀ p < o, ¬RejectedAt labels.count filter p) ∧
        resolveJumpsFrom (labelsFrom labels filter o) (resolvedFrom filter o) o =
          (0, labelsFrom labels filter 0, resolvedFrom filter 0)) := by
  induction o with
  | zero => exact .inr ⟨fun _ hp => absurd hp (Nat.not_lt_zero _), rfl⟩
  | succ o ih =>
    obtain ⟨instr, h⟩ : ∃ instr, filter[o]? = some instr :=
      ⟨filter[o], List.getElem?_eq_getElem (by omega)⟩
    rw [resolveJumpsFrom_step hu hn h]
    by_cases hrej : Rejects labels.count filter o instr
    · -- the walk stops here
      rw [if_pos hrej]
      exact .inl ⟨⟨o, Nat.lt_succ_self o, instr, h, hrej⟩, rfl⟩
    · rw [if_neg hrej]
      rcases ih (by omega) with ⟨⟨p, hp, hpr⟩, h1⟩ | ⟨hall, hok⟩
      · exact .inl ⟨⟨p, by omega, hpr⟩, h1⟩
      · refine .inr ⟨fun p hp ⟨instr', h', hr'⟩ => ?_, hok⟩
        rcases Nat.lt_succ_iff_lt_or_eq.mp hp with hp | rfl
        · exact hall p hp ⟨instr', h', hr'⟩
        · -- offset `o` holds `instr`, which the walk passed
          rw [h, Option.some.injEq] at h'
          subst h'
          exact hrej hr'

end

theorem not_rejectedAt_iff_resolvable {count : Nat} {filter : List SockFilter} :
    (∀ p, ¬RejectedAt count filter p) ↔ Resolvable count filter := by
  constructor
  · intro hnone
    refine ⟨fun i instr hi hja => ?_, fun i instr hi hj => ?_, fun i j l a b ha hb hal hbl => ?_⟩
    · exact Nat.lt_of_not_le fun hk => hnone i ⟨instr, hi, hja, .inl hk⟩
    · cases hlab : labelFrom filter (i + 1) instr.k.toNat with
      | none => exact absurd ⟨instr, hi, hj.1, .inr (.inl ⟨hj, hlab⟩)⟩ (hnone i)
      | some j =>
        obtain ⟨hle, target, hj', ht⟩ := labelFrom_eq_some hlab
        exact ⟨j, target, hle, hj', ht⟩
    · -- at the earlier of two `LABEL`s of `l` the walk would find the later one placed
      have hearlier : ∀ (i j : Nat) (a b : SockFilter), i < j → filter[i]? = some a →
          filter[j]? = some b → a.IsLabelOf l → b.IsLabelOf l → False := by
        intro i j a b hij ha hb hal hbl
        have hplaced : labelFrom filter (i + 1) a.k.toNat ≠ none := fun hnone' =>
          labelFrom_eq_none_iff.mp hnone' j b hij hb (by rw [hal.2]; exact hbl)
        exact hnone i ⟨a, ha, hal.1.1, .inr (.inr ⟨hal.1, hplaced⟩)⟩
      rcases Nat.lt_trichotomy i j with hij | hij | hij
      · exact (hearlier i j a b hij ha hb hal hbl).elim
      · exact hij
      · exact (hearlier j i b a hij hb ha hbl hal).elim
  · rintro hr p ⟨instr, hp, hja, hk | ⟨hj, hlab⟩ | ⟨hl, hlab⟩⟩
    · exact Nat.not_le_of_lt (hr.ja_lt_count p instr hp hja) hk
    · obtain ⟨j, target, hpj, hj', ht⟩ := hr.jump_has_label p instr hp hj
      exact labelFrom_eq_none_iff.mp hlab j target hpj hj' ht
    · obtain ⟨j, hj⟩ := Option.ne_none_iff_exists'.mp hlab
      obtain ⟨hle, target, hj', ht⟩ := labelFrom_eq_some hj
      have := hr.label_unique p j instr.k.toNat instr target hp hj' ⟨hl, rfl⟩ ht
      omega

section

variable {count : Nat} {filter : List SockFilter} {i : Nat}

@[simp] theorem length_resolveLabels : (resolveLabels filter).length = filter.length :=
  List.length_mapIdx

theorem getElem?_resolveLabels :
    (resolveLabels filter)[i]? = filter[i]?.map (resolvePlaceholder filter i) :=
  List.getElem?_mapIdx

theorem evaluateSingleInstruction_resolveLabels (hr : Resolvable count filter)
    (hn : filter.length ≤ bpfMaxInsns) (data : SeccompData) (s : Interpreter) :
    evaluateSingleInstruction (resolveLabels filter) data s = labelledStep filter data s := by
  have hlen : (resolveLabels filter).length = filter.length := length_resolveLabels
  cases hpc : filter[s.pc]? with
  | none =>
    have hres : (resolveLabels filter)[s.pc]? = none := by rw [getElem?_resolveLabels, hpc]; rfl
    simp only [evaluateSingleInstruction, labelledStep, hres, hpc]
  | some instr =>
    have hres : (resolveLabels filter)[s.pc]? = some (resolvePlaceholder filter s.pc instr) := by
      rw [getElem?_resolveLabels, hpc]; rfl
    simp only [labelledStep, hpc]
    by_cases hj : instr.IsJump
    · obtain ⟨j, target, hpj, hj', ht⟩ := hr.jump_has_label s.pc instr hpc hj
      obtain ⟨j', hlab⟩ := Option.ne_none_iff_exists'.mp fun hnone =>
        labelFrom_eq_none_iff.mp hnone j target hpj hj' ht
      have hle : s.pc + 1 ≤ j' := (labelFrom_eq_some hlab).1
      have hlt : j' < filter.length := labelFrom_lt_length hlab
      have hsz : UInt32.size = 4294967296 := rfl
      have hmax : bpfMaxInsns = 4096 := rfl
      have hsize : j' - (s.pc + 1) < UInt32.size := by omega
      have hk : (UInt32.ofNat (j' - (s.pc + 1))).toNat = j' - (s.pc + 1) :=
        UInt32.toNat_ofNat_of_lt' hsize
      have hcode : (bpfJmp + bpfJa).toNat = 0x05 := rfl
      rw [resolvePlaceholder_of_jump hj hlab] at hres
      simp only [if_pos hj, hlab, evaluateSingleInstruction, hres, bpfStmt_eq, hcode]
      rw [advance_eq (by rw [hk, hlen]; omega) (by rw [hk]; omega)]
      congr 2
      omega
    · by_cases hl : instr.IsLabel
      · have hcode : (bpfJmp + bpfJa).toNat = 0x05 := rfl
        rw [resolvePlaceholder_of_label hl] at hres
        simp only [if_neg hj, if_pos hl, evaluateSingleInstruction, hres, bpfStmt_eq, hcode]
        rw [advance_congr hlen]
      · rw [resolvePlaceholder_of_not_placeholder hj hl] at hres
        simp only [if_neg hj, if_neg hl]
        exact evaluateSingleInstruction_congr hlen (hres.trans hpc.symm)

theorem evaluate_resolveLabels (hr : Resolvable count filter) (hn : filter.length ≤ bpfMaxInsns)
    (data : SeccompData) : evaluate (resolveLabels filter) data = evaluateLabelled filter data := by
  have hstep : evaluateSingleInstruction (resolveLabels filter) data = labelledStep filter data :=
    funext (evaluateSingleInstruction_resolveLabels hr hn data)
  rw [evaluate, evaluateLabelled, hstep, length_resolveLabels]

end

/-- `bpf_resolve_jumps` on a filter of `1` to `BPF_MAXINSNS` instructions, with a table that
`seccomp_bpf_label` filled within `BPF_LABELS_MAX`: it returns `0` exactly when the filter is
`Resolvable`, and then the filter it leaves is the one with every placeholder resolved, which
`Evaluate` runs as the label-level reading of the filter, for every `seccomp_data`. -/
theorem bpfResolveJumps_resolves_labels (labels : BpfLabels) (filter : List SockFilter)
    (hlen : 1 ≤ filter.length ∧ filter.length ≤ bpfMaxInsns) (hfilled : labels.Filled)
    (hcount : labels.count ≤ bpfLabelsMax) :
    ((bpfResolveJumps labels filter).1 = 0 ↔ Resolvable labels.count filter) ∧
      ((bpfResolveJumps labels filter).1 = 0 →
        (bpfResolveJumps labels filter).2.2 = resolveLabels filter ∧
          ∀ data, evaluate (bpfResolveJumps labels filter).2.2 data = evaluateLabelled filter data) := by
  have hu := hfilled.unplaced hcount
  have hmax : bpfMaxInsns = 4096 := rfl
  have hn : filter.length < 0xffffffff := by omega
  have hwalk : bpfResolveJumps labels filter =
      resolveJumpsFrom (labelsFrom labels filter filter.length) (resolvedFrom filter filter.length)
        filter.length := by
    rw [labelsFrom_of_length_le hu (Nat.le_refl _), resolvedFrom_of_length_le (Nat.le_refl _),
      bpfResolveJumps, if_neg (by omega), if_neg (by omega)]
  rw [hwalk]
  rcases resolveJumpsFrom_outcome hu hn filter.length (Nat.le_refl _) with
    ⟨⟨p, -, hp⟩, h1⟩ | ⟨hall, hok⟩
  · -- the walk stopped at a rejected offset
    have hnr : ¬Resolvable labels.count filter := fun hr =>
      not_rejectedAt_iff_resolvable.mpr hr p hp
    rw [h1]
    exact ⟨iff_of_false (by decide) hnr, fun h => absurd h (by decide)⟩
  · have hnone : ∀ p, ¬RejectedAt labels.count filter p := fun p hp => by
      have hlt : p < filter.length := by
        obtain ⟨instr, h, -⟩ := hp
        exact (List.getElem?_eq_some_iff.mp h).1
      exact hall p hlt hp
    have hr := not_rejectedAt_iff_resolvable.mp hnone
    rw [hok, resolvedFrom_zero]
    exact ⟨iff_of_true rfl hr, fun _ => ⟨rfl, evaluate_resolveLabels hr hlen.2⟩⟩

/-- A jump over an instruction to its label, with the table `JUMP` and `LABEL` filled. -/
theorem bpfResolveJumps_resolves_labels_jump_over :
    (1 ≤ [(jump "a" BpfLabels.empty).1, deny, (label "a" BpfLabels.empty).1, allow].length ∧
        [(jump "a" BpfLabels.empty).1, deny, (label "a" BpfLabels.empty).1, allow].length ≤
          bpfMaxInsns) ∧
      ((seccompBpfLabel "a" BpfLabels.empty).2.count ≤ bpfLabelsMax) ∧
      (((bpfResolveJumps (seccompBpfLabel "a" BpfLabels.empty).2
          [(jump "a" BpfLabels.empty).1, deny, (label "a" BpfLabels.empty).1, allow]).1 = 0 ↔
        Resolvable (seccompBpfLabel "a" BpfLabels.empty).2.count
          [(jump "a" BpfLabels.empty).1, deny, (label "a" BpfLabels.empty).1, allow]) ∧
      ((bpfResolveJumps (seccompBpfLabel "a" BpfLabels.empty).2
          [(jump "a" BpfLabels.empty).1, deny, (label "a" BpfLabels.empty).1, allow]).1 = 0 →
        (bpfResolveJumps (seccompBpfLabel "a" BpfLabels.empty).2
            [(jump "a" BpfLabels.empty).1, deny, (label "a" BpfLabels.empty).1, allow]).2.2 =
          resolveLabels [(jump "a" BpfLabels.empty).1, deny, (label "a" BpfLabels.empty).1, allow] ∧
        ∀ data, evaluate (bpfResolveJumps (seccompBpfLabel "a" BpfLabels.empty).2
            [(jump "a" BpfLabels.empty).1, deny, (label "a" BpfLabels.empty).1, allow]).2.2 data =
          evaluateLabelled [(jump "a" BpfLabels.empty).1, deny, (label "a" BpfLabels.empty).1, allow]
            data)) :=
  ⟨by decide, by decide, bpfResolveJumps_resolves_labels _ _ (by decide) (.label "a" .empty) (by decide)⟩

/-- An ordinary `BPF_JA 1`, in a filter with no placeholder at all, is rejected with an empty
table: the label index is checked against `count` before the placeholder is told apart. And a
label that no jump uses, placed twice, is rejected as a duplicate. -/
theorem bpfResolveJumps_rejects_plain_ja :
    (∀ instr ∈ [bpfStmt (bpfJmp + bpfJa) 1, allow, allow], ¬instr.IsJump) ∧
      (bpfResolveJumps BpfLabels.empty [bpfStmt (bpfJmp + bpfJa) 1, allow, allow]).1 = 1 ∧
      (∀ instr ∈ [(label "a" BpfLabels.empty).1, (label "a" BpfLabels.empty).1, allow],
        ¬instr.IsJump) ∧
      (bpfResolveJumps (seccompBpfLabel "a" BpfLabels.empty).2
        [(label "a" BpfLabels.empty).1, (label "a" BpfLabels.empty).1, allow]).1 = 1 := by
  decide

end SandboxedApi

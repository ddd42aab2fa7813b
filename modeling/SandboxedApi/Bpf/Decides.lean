import SandboxedApi.Bpf.Steps

namespace SandboxedApi

def Decided (s : Interpreter) (n : Nat) (a : UInt32) : Option UInt32 → Interpreter → Prop
  | some r, t => t.result = some r
  | none, t => t = { s with pc := s.pc + n, accumulator := a }

def Decides (prog : List SockFilter) (data : SeccompData) (s : Interpreter) (n : Nat) (a : UInt32)
    (v : Option UInt32) : Prop :=
  Leads prog data s (Decided s n a v)

/-- `block`, placed anywhere with room after it and entered with the syscall number in the
accumulator, decides `v` and passes on with `a`. -/
def BlockDecides (data : SeccompData) (block : List SockFilter) (a : UInt32) (v : Option UInt32) :
    Prop :=
  ∀ ⦃prog : List SockFilter⦄ ⦃s : Interpreter⦄, CodeAt prog s.pc block →
    Room prog s.pc block.length → s.result = none → s.accumulator = data.nr →
    Decides prog data s block.length a v

/-- `block`, placed anywhere with room after it, decides `v` and passes on with `a`, whatever
the accumulator it is entered with. -/
def HeadDecides (data : SeccompData) (block : List SockFilter) (a : UInt32) (v : Option UInt32) :
    Prop :=
  ∀ ⦃prog : List SockFilter⦄ ⦃s : Interpreter⦄, CodeAt prog s.pc block →
    Room prog s.pc block.length → s.result = none → Decides prog data s block.length a v

section

variable {prog : List SockFilter} {data : SeccompData} {s : Interpreter} {n₁ n₂ : Nat}
  {a₁ a₂ : UInt32} {v₁ v₂ : Option UInt32}

@[simp] theorem decided_some {n : Nat} {a r : UInt32} {t : Interpreter} :
    Decided s n a (some r) t ↔ t.result = some r := Iff.rfl

@[simp] theorem decided_none {n : Nat} {a : UInt32} {t : Interpreter} :
    Decided s n a none t ↔ t = { s with pc := s.pc + n, accumulator := a } := Iff.rfl

theorem decides_nil : Decides prog data s 0 s.accumulator none :=
  Leads.here rfl

theorem Decides.append (h₁ : Decides prog data s n₁ a₁ v₁)
    (h₂ : v₁ = none → Decides prog data { s with pc := s.pc + n₁, accumulator := a₁ } n₂ a₂ v₂) :
    Decides prog data s (n₁ + n₂) a₂ (v₁.or v₂) := by
  cases v₁ with
  | some r => exact h₁
  | none =>
    refine Leads.bind h₁ fun t ht => ?_
    cases (decided_none.mp ht)
    refine (h₂ rfl).mono fun u hu => ?_
    cases v₂ with
    | some r => exact hu
    | none => simpa [Nat.add_assoc] using hu

theorem decides_jeq32Ret {v r : UInt32} (hc : CodeAt prog s.pc (jeq32 v (bpfStmt (bpfRet + bpfK) r)))
    (hroom : Room prog s.pc 2) (hs : s.result = none) :
    Decides prog data s 2 s.accumulator (if s.accumulator = v then some r else none) := by
  refine leads_jeq32 (hc.inst (i := 0) rfl) hroom hs (fun h => ?_) (fun h => ?_)
  · exact leads_retK (hc.inst (i := 1) rfl) hs (by simp [h])
  · exact Leads.here (by simp [h])

theorem decides_jeq32Chain {vs : List UInt32} {r : UInt32}
    (hc : CodeAt prog s.pc (vs.flatMap fun v => jeq32 v (bpfStmt (bpfRet + bpfK) r)))
    (hroom : Room prog s.pc (2 * vs.length)) (hs : s.result = none) :
    Decides prog data s (2 * vs.length) s.accumulator
      (if s.accumulator ∈ vs then some r else none) := by
  induction vs generalizing s with
  | nil => simpa using decides_nil
  | cons v vs ih =>
    rw [List.flatMap_cons] at hc
    have hlen : 2 * (v :: vs).length = 2 + 2 * vs.length := by simp; omega
    rw [hlen] at hroom ⊢
    have h := (decides_jeq32Ret hc.append_left (hroom.mono (by omega)) hs).append
      fun _ => ih (s := { s with pc := s.pc + 2, accumulator := s.accumulator }) hc.append_right
        (hroom.shift (Nat.le_refl _)) hs
    by_cases hv : s.accumulator = v
    · simpa [hv] using h
    · simpa [hv] using h

section

variable {b₁ b₂ : List SockFilter} {a : UInt32}

theorem BlockDecides.nil : BlockDecides data [] data.nr none := by
  intro prog s _ _ _ ha
  exact Leads.here (by cases s; simp_all)

theorem Decides.append_block (hc : CodeAt prog s.pc (b₁ ++ b₂))
    (hroom : Room prog s.pc (b₁ ++ b₂).length) (hs : s.result = none)
    (h₁ : Decides prog data s b₁.length data.nr v₁) (h₂ : BlockDecides data b₂ a v₂) :
    Decides prog data s (b₁ ++ b₂).length a (v₁.or v₂) := by
  rw [List.length_append] at hroom ⊢
  exact h₁.append fun _ => h₂ hc.append_right (hroom.shift (Nat.le_refl _)) hs rfl

theorem BlockDecides.append (h₁ : BlockDecides data b₁ data.nr v₁) (h₂ : BlockDecides data b₂ a v₂) :
    BlockDecides data (b₁ ++ b₂) a (v₁.or v₂) := by
  intro prog s hc hroom hs ha
  have hroom₁ : Room prog s.pc b₁.length := hroom.mono (by simp)
  exact Decides.append_block hc hroom hs (h₁ hc.append_left hroom₁ hs ha) h₂

theorem HeadDecides.append (h₁ : HeadDecides data b₁ data.nr v₁) (h₂ : BlockDecides data b₂ a v₂) :
    HeadDecides data (b₁ ++ b₂) a (v₁.or v₂) := by
  intro prog s hc hroom hs
  have hroom₁ : Room prog s.pc b₁.length := hroom.mono (by simp)
  exact Decides.append_block hc hroom hs (h₁ hc.append_left hroom₁ hs) h₂

theorem Decides.reload {b : List SockFilter} {v : Option UInt32}
    (hc : CodeAt prog s.pc (b ++ [loadSyscallNr])) (hroom : Room prog s.pc (b ++ [loadSyscallNr]).length)
    (hs : s.result = none) (h : Decides prog data s b.length a v) :
    Decides prog data s (b ++ [loadSyscallNr]).length data.nr v := by
  rw [List.length_append, List.length_singleton] at hroom ⊢
  refine h.bind fun t ht => ?_
  cases v with
  | some r => exact Leads.here ht
  | none =>
    cases decided_none.mp ht
    exact leads_loadSyscallNr (hc.append_right.inst (i := 0) rfl) (hroom.shift (Nat.le_refl _)) hs
      (Leads.here (by simp [Nat.add_assoc]))

theorem BlockDecides.reload {b : List SockFilter} {v : Option UInt32} (h : BlockDecides data b a v) :
    BlockDecides data (b ++ [loadSyscallNr]) data.nr v := by
  intro prog s hc hroom hs ha
  exact Decides.reload hc hroom hs (h hc.append_left (hroom.mono (by simp)) hs ha)

theorem HeadDecides.reload {b : List SockFilter} {v : Option UInt32} (h : HeadDecides data b a v) :
    HeadDecides data (b ++ [loadSyscallNr]) data.nr v := by
  intro prog s hc hroom hs
  exact Decides.reload hc hroom hs (h hc.append_left (hroom.mono (by simp)) hs)

theorem BlockDecides.append_some {r : UInt32} (h : BlockDecides data b₁ a (some r)) (a' : UInt32) :
    BlockDecides data (b₁ ++ b₂) a' (some r) := by
  intro prog s hc hroom hs ha
  exact h hc.append_left (hroom.mono (by simp)) hs ha

theorem evaluate_of_headDecides {head rest : List SockFilter} {r : UInt32}
    (h : HeadDecides data head a (some r)) (hrest : rest ≠ []) (hlen : head.length < UInt32.size) :
    evaluate (head ++ rest) data = .ok r := by
  have hpos : 0 < rest.length := List.length_pos_iff.mpr hrest
  refine evaluate_of_leads (h (s := Interpreter.init) ⟨rest, by simp [Interpreter.init]⟩
    ⟨?_, by simpa [Interpreter.init] using hlen⟩ rfl)
  simp only [Interpreter.init, List.length_append]
  omega

theorem BlockDecides.ite (c : Bool) (h₁ : BlockDecides data b₁ data.nr v₁)
    (h₂ : BlockDecides data b₂ data.nr v₂) :
    BlockDecides data (if c then b₁ else b₂) data.nr (if c then v₁ else v₂) := by
  cases c
  · exact h₂
  · exact h₁

end

end

end SandboxedApi

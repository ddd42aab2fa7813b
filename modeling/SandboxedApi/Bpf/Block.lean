import SandboxedApi.Bpf.Run
import SandboxedApi.Bpf.Helper

namespace SandboxedApi

/-- `block` is stored in `prog` from index `o` on. -/
def CodeAt (prog : List SockFilter) (o : Nat) (block : List SockFilter) : Prop :=
  block <+: prog.drop o

def Room (prog : List SockFilter) (o n : Nat) : Prop :=
  o + n < prog.length ∧ o + n < UInt32.size

def Leads (prog : List SockFilter) (data : SeccompData) (s : Interpreter)
    (Q : Interpreter → Prop) : Prop :=
  ∃ t, Reaches prog data s t ∧ Q t

section

variable {prog : List SockFilter} {data : SeccompData} {o : Nat} {a b block : List SockFilter}

theorem CodeAt.getElem? (h : CodeAt prog o block) {i : Nat} (hi : i < block.length) :
    prog[o + i]? = some block[i] := by
  obtain ⟨rest, hr⟩ := h
  have : (prog.drop o)[i]? = some block[i] := by
    rw [← hr, List.getElem?_append_left hi, List.getElem?_eq_getElem hi]
  simpa using this

theorem CodeAt.append_left (h : CodeAt prog o (a ++ b)) : CodeAt prog o a :=
  List.IsPrefix.trans (List.prefix_append a b) h

theorem CodeAt.append_right (h : CodeAt prog o (a ++ b)) : CodeAt prog (o + a.length) b := by
  obtain ⟨rest, hr⟩ := h
  refine ⟨rest, ?_⟩
  have := congrArg (List.drop a.length) hr
  simpa [List.drop_drop, List.drop_append, Nat.add_comm] using this

theorem CodeAt.inst (h : CodeAt prog o block) {i : Nat} {inst : SockFilter}
    (hi : block[i]? = some inst) : prog[o + i]? = some inst := by
  obtain ⟨hlt, rfl⟩ := List.getElem?_eq_some_iff.mp hi
  exact h.getElem? hlt

theorem CodeAt.tail {x : SockFilter} (h : CodeAt prog o (x :: block)) : CodeAt prog (o + 1) block :=
  CodeAt.append_right (a := [x]) h

theorem Room.mono {m n : Nat} (h : Room prog o n) (hmn : m ≤ n) : Room prog o m :=
  ⟨by have := h.1; omega, by have := h.2; omega⟩

theorem Room.shift {i k n : Nat} (h : Room prog o n) (hik : i + k ≤ n) : Room prog (o + i) k :=
  ⟨by have := h.1; omega, by have := h.2; omega⟩

theorem Leads.of_reaches {s t : Interpreter} {Q : Interpreter → Prop}
    (h : Reaches prog data s t) (hq : Leads prog data t Q) : Leads prog data s Q := by
  obtain ⟨u, hu, hq⟩ := hq
  exact ⟨u, Relation.ReflTransGen.trans h hu, hq⟩

theorem Leads.of_step {s t : Interpreter} {Q : Interpreter → Prop}
    (hs : s.result = none) (h : evaluateSingleInstruction prog data s = .ok t)
    (hq : Leads prog data t Q) : Leads prog data s Q :=
  Leads.of_reaches (Relation.ReflTransGen.single ⟨hs, h⟩) hq

theorem Leads.here {s : Interpreter} {Q : Interpreter → Prop} (h : Q s) : Leads prog data s Q :=
  ⟨s, Relation.ReflTransGen.refl, h⟩

theorem Leads.bind {s : Interpreter} {Q R : Interpreter → Prop} (h : Leads prog data s Q)
    (hr : ∀ t, Q t → Leads prog data t R) : Leads prog data s R := by
  obtain ⟨t, ht, hq⟩ := h
  exact Leads.of_reaches ht (hr t hq)

theorem Leads.mono {s : Interpreter} {Q R : Interpreter → Prop} (h : Leads prog data s Q)
    (hr : ∀ t, Q t → R t) : Leads prog data s R :=
  h.bind fun t hq => Leads.here (hr t hq)

theorem Leads.reaches {s t : Interpreter} (h : Leads prog data s (· = t)) : Reaches prog data s t := by
  obtain ⟨u, hu, rfl⟩ := h
  exact hu

theorem evaluate_of_leads {r : UInt32} (h : Leads prog data Interpreter.init (·.result = some r)) :
    evaluate prog data = .ok r :=
  evaluate_of_returns h

end

end SandboxedApi

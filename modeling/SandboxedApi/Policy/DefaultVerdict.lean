import SandboxedApi.Policy.DefaultProgram
import SandboxedApi.Bpf.Decides

namespace SandboxedApi

def nrVerdict (nr r : UInt32) (d : SeccompData) : Option UInt32 :=
  if d.nr = nr then some r else none

def unotifyArchVerdict (d : SeccompData) : Option UInt32 :=
  if d.arch = hostAuditArch then none else some deny.k

def seccompMagicVerdict (d : SeccompData) : Option UInt32 :=
  if d.nr = nrSeccomp ∧ lo32 (d.args 3) = kExecveMagic then some allow.k else none

def execveatVerdict (action : SockFilter) (d : SeccompData) : Option UInt32 :=
  if d.nr = nrExecveat ∧ lo32 (d.args 4) = atEmptyPath ∧ lo32 (d.args 5) = kExecveMagic then
    some action.k
  else none

def traceArchVerdict (d : SeccompData) : Option UInt32 :=
  if d.arch = auditArchI386 then some (trace cpuX86).k
  else if d.arch = hostAuditArch then none
  else some (trace cpuUnknown).k

def archVerdict (continueSupported userNotif preExecve : Bool) (d : SeccompData) :
    Option UInt32 :=
  if userNotif then
    ((unotifyArchVerdict d).or (seccompMagicVerdict d)).or
      (if preExecve then execveatVerdict (execveAction continueSupported) d else none)
  else (traceArchVerdict d).or (if preExecve then execveatVerdict sandbox2Trace d else none)

def safeBpfCommands : List UInt32 :=
  [bpfMapLookupElem, bpfObjGet, bpfMapGetNextKey, bpfMapGetNextId, bpfMapGetFdById,
    bpfObjGetInfoByFd]

def safeBpfVerdict (d : SeccompData) : Option UInt32 :=
  if d.nr = nrBpf ∧ lo32 (d.args 0) ∈ safeBpfCommands then some allow.k else none

def mmapVerdict (d : SeccompData) : Option UInt32 :=
  if (d.nr = nrMmap ∨ d.nr = nrMprotect ∨ d.nr = nrPkeyMprotect) ∧
      lo32 (d.args 2) &&& protExec ≠ 0 then some deny.k
  else none

def argFlagsVerdict (nr : UInt32) (i : Fin 6) (flags : UInt32) (d : SeccompData) : Option UInt32 :=
  if d.nr = nr ∧ lo32 (d.args i) &&& flags ≠ 0 then some deny.k else none

def argFlagsExit (nr : UInt32) (i : Fin 6) (d : SeccompData) : UInt32 :=
  if d.nr = nr then lo32 (d.args i) else d.nr

def mapExecVerdict (d : SeccompData) : Option UInt32 :=
  (mmapVerdict d).or (argFlagsVerdict nrShmat 2 shmExec d)

def cloneVerdict (userNotif : Bool) (d : SeccompData) : Option UInt32 :=
  (((nrVerdict nrClone3 (errno enosys).k d).or
    (argFlagsVerdict nrClone 0 (unsafeCloneFlags userNotif) d)).or
      (argFlagsVerdict nrUnshare 0 kNewNamespacesFlags d)).or
        (argFlagsVerdict nrSeccomp 1 seccompFilterFlagNewListener d)

def Policy.defaultVerdict (p : Policy) (continueSupported userNotif preExecve : Bool)
    (d : SeccompData) : Option UInt32 :=
  ((((((archVerdict continueSupported userNotif preExecve d).or
    (nrVerdict kMagicSyscallNo (errno kMagicSyscallErr).k d)).or
      (if p.userPolicyHandlesPtrace then none else nrVerdict nrPtrace deny.k d)).or
        (if p.allowSafeBpf then safeBpfVerdict d else none)).or
          (if p.userPolicyHandlesBpf then none else nrVerdict nrBpf deny.k d)).or
            (if p.allowMapExec then none else mapExecVerdict d)).or (cloneVerdict userNotif d)

section

variable {prog : List SockFilter} {data : SeccompData} {s : Interpreter}

theorem blockDecides_nr (nr r : UInt32) :
    BlockDecides data (jeq32 nr (bpfStmt (bpfRet + bpfK) r)) data.nr (nrVerdict nr r data) := by
  intro prog s hc hroom hs ha
  have h : Decides prog data s 2 s.accumulator (if s.accumulator = nr then some r else none) :=
    decides_jeq32Ret hc hroom hs
  rw [ha] at h
  exact h

theorem blockDecides_argFlags (nr : UInt32) (i : Fin 6) (flags : UInt32) :
    BlockDecides data (argFlagsProgram nr i flags) (argFlagsExit nr i data)
      (argFlagsVerdict nr i flags data) := by
  intro prog ⟨o, acc, x, mem, res⟩ hc hroom hs ha
  dsimp only at hc hroom hs ha
  subst hs ha
  rw [argFlagsProgram_length] at hroom ⊢
  refine leads_jne32 (hc.inst (i := 0) rfl) (hroom.shift (i := 0) (by decide)) rfl
    (fun h₁ => ?_) (fun h₁ => ?_)
  · -- the call is `nr`: its argument decides
    refine leads_arg32 (hc.inst (i := 2) rfl) (hroom.shift (i := 2) (by decide)) rfl ?_
    refine leads_ja32 (hc.inst (i := 3) rfl) (hroom.shift (i := 3) (by decide)) rfl
      (fun h₂ => ?_) (fun h₂ => ?_)
    · exact leads_retK (hc.inst (i := 4) rfl) rfl (by simp_all [argFlagsVerdict])
    · exact leads_jaK (hc.inst (i := 5) rfl) (hroom.shift (i := 5) (by decide)) rfl
        (Leads.here (by simp_all [argFlagsVerdict, argFlagsExit]))
  · exact leads_jaK (hc.inst (i := 1) rfl) (hroom.shift (i := 1) (by decide)) rfl <|
      leads_jaK (hc.inst (i := 5) rfl) (hroom.shift (i := 5) (by decide)) rfl
        (Leads.here (by simp_all [argFlagsVerdict, argFlagsExit]))

theorem blockDecides_seccompMagic :
    BlockDecides data seccompMagicProgram data.nr (seccompMagicVerdict data) := by
  intro prog ⟨o, acc, x, mem, res⟩ hc hroom hs ha
  dsimp only at hc hroom hs ha
  subst hs ha
  rw [seccompMagicProgram_length] at hroom ⊢
  have hpast : ∀ a, seccompMagicVerdict data = none →
      Leads prog data ⟨o + 6, a, x, mem, none⟩
        (Decided ⟨o, data.nr, x, mem, none⟩ 8 data.nr (seccompMagicVerdict data)) := by
    intro a hv
    exact leads_jaK (hc.inst (i := 6) rfl) (hroom.shift (i := 6) (by decide)) rfl <|
      leads_loadSyscallNr (hc.inst (i := 7) rfl) (hroom.shift (i := 7) (by decide)) rfl <|
      Leads.here (by simp [hv])
  refine leads_jne32 (hc.inst (i := 0) rfl) (hroom.shift (i := 0) (by decide)) rfl
    (fun h₁ => ?_) (fun h₁ => ?_)
  · refine leads_arg32 (hc.inst (i := 2) rfl) (hroom.shift (i := 2) (by decide)) rfl ?_
    refine leads_jne32 (hc.inst (i := 3) rfl) (hroom.shift (i := 3) (by decide)) rfl
      (fun h₂ => ?_) (fun h₂ => ?_)
    · exact leads_retK (hc.inst (i := 5) rfl) rfl (by simp_all [seccompMagicVerdict])
    · exact leads_jaK (hc.inst (i := 4) rfl) (hroom.shift (i := 4) (by decide)) rfl
        (hpast _ (by simp_all [seccompMagicVerdict]))
  · exact leads_jaK (hc.inst (i := 1) rfl) (hroom.shift (i := 1) (by decide)) rfl
      (hpast _ (by simp_all [seccompMagicVerdict]))

theorem blockDecides_execveat (r : UInt32) :
    BlockDecides data (execveatProgram (bpfStmt (bpfRet + bpfK) r)) data.nr
      (execveatVerdict (bpfStmt (bpfRet + bpfK) r) data) := by
  intro prog ⟨o, acc, x, mem, res⟩ hc hroom hs ha
  dsimp only at hc hroom hs ha
  subst hs ha
  rw [execveatProgram_length] at hroom ⊢
  have hpast : ∀ a, execveatVerdict (bpfStmt (bpfRet + bpfK) r) data = none →
      Leads prog data ⟨o + 9, a, x, mem, none⟩ (Decided ⟨o, data.nr, x, mem, none⟩ 11 data.nr
        (execveatVerdict (bpfStmt (bpfRet + bpfK) r) data)) := by
    intro a hv
    exact leads_jaK (hc.inst (i := 9) rfl) (hroom.shift (i := 9) (by decide)) rfl <|
      leads_loadSyscallNr (hc.inst (i := 10) rfl) (hroom.shift (i := 10) (by decide)) rfl <|
      Leads.here (by simp [hv])
  refine leads_jne32 (hc.inst (i := 0) rfl) (hroom.shift (i := 0) (by decide)) rfl
    (fun h₁ => ?_) (fun h₁ => ?_)
  · refine leads_arg32 (hc.inst (i := 2) rfl) (hroom.shift (i := 2) (by decide)) rfl ?_
    refine leads_jne32 (hc.inst (i := 3) rfl) (hroom.shift (i := 3) (by decide)) rfl
      (fun h₂ => ?_) (fun h₂ => ?_)
    · refine leads_arg32 (hc.inst (i := 5) rfl) (hroom.shift (i := 5) (by decide)) rfl ?_
      refine leads_jne32 (hc.inst (i := 6) rfl) (hroom.shift (i := 6) (by decide)) rfl
        (fun h₃ => ?_) (fun h₃ => ?_)
      · exact leads_retK (hc.inst (i := 8) rfl) rfl (by simp_all [execveatVerdict, bpfStmt_eq])
      · exact leads_jaK (hc.inst (i := 7) rfl) (hroom.shift (i := 7) (by decide)) rfl
          (hpast _ (by simp_all [execveatVerdict]))
    · exact leads_jaK (hc.inst (i := 4) rfl) (hroom.shift (i := 4) (by decide)) rfl
        (hpast _ (by simp_all [execveatVerdict]))
  · exact leads_jaK (hc.inst (i := 1) rfl) (hroom.shift (i := 1) (by decide)) rfl
      (hpast _ (by simp_all [execveatVerdict]))

theorem headDecides_unotifyArch :
    HeadDecides data unotifyArchProgram data.nr (unotifyArchVerdict data) := by
  intro prog ⟨o, acc, x, mem, res⟩ hc hroom hs
  dsimp only at hc hroom hs
  subst hs
  rw [unotifyArchProgram_length] at hroom ⊢
  refine leads_loadArch (hc.inst (i := 0) rfl) (hroom.shift (i := 0) (by decide)) rfl ?_
  refine leads_jne32 (hc.inst (i := 1) rfl) (hroom.shift (i := 1) (by decide)) rfl
    (fun h => ?_) (fun h => ?_)
  · exact leads_loadSyscallNr (hc.inst (i := 3) rfl) (hroom.shift (i := 3) (by decide)) rfl
      (Leads.here (by simp_all [unotifyArchVerdict]))
  · exact leads_retK (hc.inst (i := 2) rfl) rfl (by simp_all [unotifyArchVerdict])

theorem headDecides_traceArch :
    HeadDecides data traceArchProgram data.nr (traceArchVerdict data) := by
  intro prog ⟨o, acc, x, mem, res⟩ hc hroom hs
  dsimp only at hc hroom hs
  subst hs
  rw [traceArchProgram_length] at hroom ⊢
  refine leads_loadArch (hc.inst (i := 0) rfl) (hroom.shift (i := 0) (by decide)) rfl ?_
  refine leads_jeq32 (hc.inst (i := 1) rfl) (hroom.shift (i := 1) (by decide)) rfl
    (fun h₁ => ?_) (fun h₁ => ?_)
  · exact leads_retK (hc.inst (i := 2) rfl) rfl (by simp_all [traceArchVerdict])
  · refine leads_jne32 (hc.inst (i := 3) rfl) (hroom.shift (i := 3) (by decide)) rfl
      (fun h₂ => ?_) (fun h₂ => ?_)
    · exact leads_loadSyscallNr (hc.inst (i := 5) rfl) (hroom.shift (i := 5) (by decide)) rfl
        (Leads.here (by simp_all [traceArchVerdict]))
    · exact leads_retK (hc.inst (i := 4) rfl) rfl (by simp_all [traceArchVerdict])

theorem blockDecides_safeBpf : BlockDecides data safeBpfProgram data.nr (safeBpfVerdict data) := by
  intro prog ⟨o, acc, x, mem, res⟩ hc hroom hs ha
  dsimp only at hc hroom hs ha
  subst hs ha
  rw [safeBpfProgram_length] at hroom ⊢
  have hchain : CodeAt prog (o + 3)
      (safeBpfCommands.flatMap fun v => jeq32 v (bpfStmt (bpfRet + bpfK) allow.k)) := by
    have e : safeBpfProgram = jne32 nrBpf (ja 13) ++ [arg32 0] ++
        (safeBpfCommands.flatMap fun v => jeq32 v allow) ++ [ja 0, loadSyscallNr] := rfl
    rw [e] at hc
    exact hc.append_left.append_right
  have hpast : safeBpfVerdict data = none → ∀ a,
      Leads prog data ⟨o + 15, a, x, mem, none⟩
        (Decided ⟨o, data.nr, x, mem, none⟩ 17 data.nr (safeBpfVerdict data)) := by
    intro hv a
    exact leads_jaK (hc.inst (i := 15) rfl) (hroom.shift (i := 15) (by decide)) rfl <|
      leads_loadSyscallNr (hc.inst (i := 16) rfl) (hroom.shift (i := 16) (by decide)) rfl <|
      Leads.here (by simp [hv])
  refine leads_jne32 (hc.inst (i := 0) rfl) (hroom.shift (i := 0) (by decide)) rfl
    (fun h₁ => ?_) (fun h₁ => ?_)
  · refine leads_arg32 (hc.inst (i := 2) rfl) (hroom.shift (i := 2) (by decide)) rfl ?_
    refine Leads.bind (decides_jeq32Chain hchain (hroom.shift (i := 3) (by decide)) rfl)
      fun t ht => ?_
    by_cases hcmd : lo32 (data.args 0) ∈ safeBpfCommands
    · exact Leads.here (by simp_all [safeBpfVerdict])
    · have ht : t = ⟨o + 15, lo32 (data.args 0), x, mem, none⟩ := by
        rw [if_neg hcmd] at ht
        exact ht
      subst ht
      exact hpast (by simp_all [safeBpfVerdict]) _
  · exact leads_jaK (hc.inst (i := 1) rfl) (hroom.shift (i := 1) (by decide)) rfl
      (hpast (by simp_all [safeBpfVerdict]) _)

theorem blockDecides_mmap : BlockDecides data mmapProgram data.nr (mmapVerdict data) := by
  intro prog ⟨o, acc, x, mem, res⟩ hc hroom hs ha
  dsimp only at hc hroom hs ha
  subst hs ha
  rw [mmapProgram_length] at hroom ⊢
  have hpast : mmapVerdict data = none →
      Leads prog data ⟨o + 12, data.nr, x, mem, none⟩
        (Decided ⟨o, data.nr, x, mem, none⟩ 13 data.nr (mmapVerdict data)) := by
    intro hv
    exact leads_jaK (hc.inst (i := 12) rfl) (hroom.shift (i := 12) (by decide)) rfl
      (Leads.here (by simp [hv]))
  have hcheck : data.nr = nrMmap ∨ data.nr = nrMprotect ∨ data.nr = nrPkeyMprotect →
      Leads prog data ⟨o + 7, data.nr, x, mem, none⟩
        (Decided ⟨o, data.nr, x, mem, none⟩ 13 data.nr (mmapVerdict data)) := by
    intro hnr
    refine leads_jaK (hc.inst (i := 7) rfl) (hroom.shift (i := 7) (by decide)) rfl ?_
    refine leads_arg32 (hc.inst (i := 8) rfl) (hroom.shift (i := 8) (by decide)) rfl ?_
    refine leads_ja32 (hc.inst (i := 9) rfl) (hroom.shift (i := 9) (by decide)) rfl
      (fun h => ?_) (fun h => ?_)
    · exact leads_retK (hc.inst (i := 10) rfl) rfl (by simp_all [mmapVerdict])
    · exact leads_loadSyscallNr (hc.inst (i := 11) rfl) (hroom.shift (i := 11) (by decide)) rfl
        (hpast (by simp_all [mmapVerdict]))
  refine leads_jeq32 (hc.inst (i := 0) rfl) (hroom.shift (i := 0) (by decide)) rfl
    (fun h₁ => ?_) (fun h₁ => ?_)
  · exact leads_jaK (hc.inst (i := 1) rfl) (hroom.shift (i := 1) (by decide)) rfl
      (hcheck (.inl h₁))
  refine leads_jeq32 (hc.inst (i := 2) rfl) (hroom.shift (i := 2) (by decide)) rfl
    (fun h₂ => ?_) (fun h₂ => ?_)
  · exact leads_jaK (hc.inst (i := 3) rfl) (hroom.shift (i := 3) (by decide)) rfl
      (hcheck (.inr (.inl h₂)))
  refine leads_jeq32 (hc.inst (i := 4) rfl) (hroom.shift (i := 4) (by decide)) rfl
    (fun h₃ => ?_) (fun h₃ => ?_)
  · exact leads_jaK (hc.inst (i := 5) rfl) (hroom.shift (i := 5) (by decide)) rfl
      (hcheck (.inr (.inr h₃)))
  · exact leads_jaK (hc.inst (i := 6) rfl) (hroom.shift (i := 6) (by decide)) rfl
      (hpast (by simp_all [mmapVerdict]))

theorem blockDecides_execveAction (continueSupported : Bool) :
    BlockDecides data (execveatProgram (execveAction continueSupported)) data.nr
      (execveatVerdict (execveAction continueSupported) data) := by
  cases continueSupported
  · exact blockDecides_execveat seccompRetAllow
  · exact blockDecides_execveat seccompRetUserNotif

theorem headDecides_arch (continueSupported userNotif preExecve : Bool) :
    HeadDecides data (archProgram continueSupported userNotif preExecve) data.nr
      (archVerdict continueSupported userNotif preExecve data) := by
  cases userNotif
  · exact HeadDecides.append headDecides_traceArch
      (BlockDecides.ite preExecve (blockDecides_execveat _) BlockDecides.nil)
  · exact HeadDecides.append (HeadDecides.append headDecides_unotifyArch blockDecides_seccompMagic)
      (BlockDecides.ite preExecve (blockDecides_execveAction continueSupported) BlockDecides.nil)

theorem blockDecides_mapExec : BlockDecides data mapExecProgram data.nr (mapExecVerdict data) :=
  BlockDecides.reload (BlockDecides.append blockDecides_mmap (blockDecides_argFlags nrShmat 2 shmExec))

theorem blockDecides_clone (userNotif : Bool) :
    BlockDecides data (cloneProgram userNotif) (argFlagsExit nrSeccomp 1 data)
      (cloneVerdict userNotif data) := by
  have hclone : BlockDecides data _ _ _ := BlockDecides.reload (BlockDecides.append (blockDecides_nr nrClone3 (errno enosys).k)
    (blockDecides_argFlags nrClone 0 (unsafeCloneFlags userNotif)))
  have hunshare : BlockDecides data _ _ _ := BlockDecides.reload
    (BlockDecides.append hclone (blockDecides_argFlags nrUnshare 0 kNewNamespacesFlags))
  exact BlockDecides.append hunshare (blockDecides_argFlags nrSeccomp 1 seccompFilterFlagNewListener)

theorem headDecides_defaultProgram (p : Policy) (continueSupported userNotif preExecve : Bool) :
    HeadDecides data (p.defaultProgram continueSupported userNotif preExecve)
      (argFlagsExit nrSeccomp 1 data) (p.defaultVerdict continueSupported userNotif preExecve data) := by
  have hmagic : HeadDecides data _ _ _ := HeadDecides.append (headDecides_arch continueSupported userNotif preExecve)
    (blockDecides_nr kMagicSyscallNo (errno kMagicSyscallErr).k)
  have hptrace : HeadDecides data _ _ _ := HeadDecides.append hmagic
    (BlockDecides.ite p.userPolicyHandlesPtrace BlockDecides.nil (blockDecides_nr nrPtrace deny.k))
  have hsafeBpf : HeadDecides data _ _ _ := HeadDecides.append hptrace
    (BlockDecides.ite p.allowSafeBpf blockDecides_safeBpf BlockDecides.nil)
  have hbpf : HeadDecides data _ _ _ := HeadDecides.append hsafeBpf
    (BlockDecides.ite p.userPolicyHandlesBpf BlockDecides.nil (blockDecides_nr nrBpf deny.k))
  have hmapExec : HeadDecides data _ _ _ := HeadDecides.append hbpf
    (BlockDecides.ite p.allowMapExec BlockDecides.nil blockDecides_mapExec)
  exact HeadDecides.append hmapExec (blockDecides_clone userNotif)

end

section

variable {p : Policy} {continueSupported userNotif preExecve : Bool} {d : SeccompData}

theorem archVerdict_of_foreignArch (harch : d.arch ≠ hostAuditArch) :
    archVerdict continueSupported userNotif preExecve d =
      some (if userNotif then deny.k
        else if d.arch = auditArchI386 then (trace cpuX86).k else (trace cpuUnknown).k) := by
  cases userNotif
  · by_cases hi : d.arch = auditArchI386 <;> simp [archVerdict, traceArchVerdict, harch, hi]
  · simp [archVerdict, unotifyArchVerdict, harch]

theorem defaultVerdict_of_foreignArch (harch : d.arch ≠ hostAuditArch) :
    p.defaultVerdict continueSupported userNotif preExecve d =
      some (if userNotif then deny.k
        else if d.arch = auditArchI386 then (trace cpuX86).k else (trace cpuUnknown).k) := by
  simp [Policy.defaultVerdict, archVerdict_of_foreignArch harch]

theorem archVerdict_host (harch : d.arch = hostAuditArch) (hseccomp : d.nr ≠ nrSeccomp)
    (hexecveat : d.nr ≠ nrExecveat) :
    archVerdict continueSupported userNotif preExecve d = none := by
  have hi : hostAuditArch ≠ auditArchI386 := by decide
  cases userNotif <;> simp [archVerdict, unotifyArchVerdict, traceArchVerdict, seccompMagicVerdict,
    execveatVerdict, harch, hseccomp, hexecveat, hi]

theorem defaultVerdict_ptrace (harch : d.arch = hostAuditArch) (hnr : d.nr = nrPtrace) :
    p.defaultVerdict continueSupported userNotif preExecve d =
      if p.userPolicyHandlesPtrace then none else some deny.k := by
  have hhead : archVerdict continueSupported userNotif preExecve d = none :=
    archVerdict_host harch (by rw [hnr]; decide) (by rw [hnr]; decide)
  cases hp : p.userPolicyHandlesPtrace <;>
    simp [Policy.defaultVerdict, hhead, hp, nrVerdict, safeBpfVerdict, mapExecVerdict, mmapVerdict,
      argFlagsVerdict, cloneVerdict, hnr, nrPtrace, nrBpf, kMagicSyscallNo, nrMmap, nrMprotect,
      nrPkeyMprotect, nrShmat, nrClone3, nrClone, nrUnshare, nrSeccomp]

theorem defaultVerdict_bpf (harch : d.arch = hostAuditArch) (hnr : d.nr = nrBpf) :
    p.defaultVerdict continueSupported userNotif preExecve d =
      if p.allowSafeBpf ∧ lo32 (d.args 0) ∈ safeBpfCommands then some allow.k
      else if p.userPolicyHandlesBpf then none else some deny.k := by
  have hhead : archVerdict continueSupported userNotif preExecve d = none :=
    archVerdict_host harch (by rw [hnr]; decide) (by rw [hnr]; decide)
  cases hs : p.allowSafeBpf <;> cases hb : p.userPolicyHandlesBpf <;>
    by_cases hc : lo32 (d.args 0) ∈ safeBpfCommands <;>
    simp [Policy.defaultVerdict, hhead, hs, hb, hc, safeBpfVerdict, nrVerdict, hnr,
      mapExecVerdict, mmapVerdict, argFlagsVerdict, cloneVerdict, nrBpf, nrPtrace, kMagicSyscallNo, nrMmap, nrMprotect,
      nrPkeyMprotect, nrShmat, nrClone3, nrClone, nrUnshare, nrSeccomp]
theorem defaultVerdict_clone (harch : d.arch = hostAuditArch) (hnr : d.nr = nrClone)
    (hflags : lo32 (d.args 0) &&& unsafeCloneFlags userNotif ≠ 0) :
    p.defaultVerdict continueSupported userNotif preExecve d = some deny.k := by
  have hhead : archVerdict continueSupported userNotif preExecve d = none :=
    archVerdict_host harch (by rw [hnr]; decide) (by rw [hnr]; decide)
  simp [Policy.defaultVerdict, hhead, nrVerdict, safeBpfVerdict, mapExecVerdict, mmapVerdict,
    argFlagsVerdict, cloneVerdict, hnr, hflags, nrPtrace, nrBpf, kMagicSyscallNo, nrMmap, nrMprotect,
    nrPkeyMprotect, nrShmat, nrClone3, nrClone]

theorem evaluate_getPolicy_of_default {r : UInt32}
    (h : p.defaultVerdict continueSupported userNotif preExecve d = some r) :
    evaluate (p.defaultProgram continueSupported userNotif preExecve ++ [loadSyscallNr] ++
      p.userPolicy ++ [kill]) d = .ok r := by
  have hhead : HeadDecides d (p.defaultProgram continueSupported userNotif preExecve) _ (some r) :=
    h ▸ headDecides_defaultProgram p continueSupported userNotif preExecve
  have hlen := defaultProgram_length_le p continueSupported userNotif preExecve
  have hsize : UInt32.size = 4294967296 := rfl
  rw [List.append_assoc, List.append_assoc]
  exact evaluate_of_headDecides hhead (by simp) (by omega)

theorem evaluate_getPolicy_of_user {user rest : List SockFilter} {r : UInt32}
    (h : p.defaultVerdict continueSupported userNotif preExecve d = none)
    (hu : BlockDecides d user d.nr (some r)) (huser : p.userPolicy = user ++ rest)
    (hlen : user.length < 2 ^ 31) :
    evaluate (p.defaultProgram continueSupported userNotif preExecve ++ [loadSyscallNr] ++
      p.userPolicy ++ [kill]) d = .ok r := by
  have hhead := HeadDecides.append
    (HeadDecides.reload (headDecides_defaultProgram p continueSupported userNotif preExecve)) hu
  rw [h] at hhead
  have hdef := defaultProgram_length_le p continueSupported userNotif preExecve
  have hsize : UInt32.size = 4294967296 := rfl
  have heq : p.defaultProgram continueSupported userNotif preExecve ++ [loadSyscallNr] ++
      p.userPolicy ++ [kill] =
      p.defaultProgram continueSupported userNotif preExecve ++ [loadSyscallNr] ++ user ++
        (rest ++ [kill]) := by
    simp [huser]
  rw [heq]
  exact evaluate_of_headDecides hhead (by simp) (by simp; omega)

theorem evaluate_getPolicy_foreignArch (harch : d.arch ≠ hostAuditArch) :
    evaluate (p.defaultProgram continueSupported userNotif preExecve ++ [loadSyscallNr] ++
      p.userPolicy ++ [kill]) d = .ok (if userNotif then seccompRetKill
        else if d.arch = auditArchI386 then (trace cpuX86).k else (trace cpuUnknown).k) := by
  rw [evaluate_getPolicy_of_default (defaultVerdict_of_foreignArch harch)]
  simp

theorem evaluate_getPolicy_clone (harch : d.arch = hostAuditArch) (hnr : d.nr = nrClone)
    (hflags : lo32 (d.args 0) &&& unsafeCloneFlags userNotif ≠ 0) :
    evaluate (p.defaultProgram continueSupported userNotif preExecve ++ [loadSyscallNr] ++
      p.userPolicy ++ [kill]) d = .ok seccompRetKill :=
  evaluate_getPolicy_of_default (defaultVerdict_clone harch hnr hflags)

end

end SandboxedApi

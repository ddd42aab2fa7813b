import SandboxedApi.Deadline.Manager

namespace SandboxedApi

namespace DeadlineState

structure Consistent (s : DeadlineState) : Prop where
  sorted : s.queue.Pairwise (· < ·)
  current : ∀ k ∈ s.queue, ∃ reg, s.registrations k.data = some reg ∧ reg.data.deadline = k.deadline
  notFuture : ∀ k ∈ s.queue, k.deadline ≠ .infiniteFuture
  inBlockingFn : ∀ r reg, s.registrations r = some reg → reg.data.inBlockingFn = reg.inSyscall

variable {s : DeadlineState} {r : Nat} {reg : Registration}

theorem consistent_init (now : Int) : (init now).Consistent where
  sorted := List.Pairwise.nil
  current := by simp [init]
  notFuture := by simp [init]
  inBlockingFn := by simp [init]

theorem Consistent.eq_of_data_eq (h : s.Consistent) {k k' : QueueKey} (hk : k ∈ s.queue)
    (hk' : k' ∈ s.queue) (hdata : k.data = k'.data) : k = k' := by
  obtain ⟨reg, hreg, hdl⟩ := h.current k hk
  obtain ⟨reg', hreg', hdl'⟩ := h.current k' hk'
  rw [hdata, hreg'] at hreg
  cases hreg
  cases k
  cases k'
  simp_all

theorem Consistent.data_ne_of_mem_erase (h : s.Consistent) (hreg : s.registrations r = some reg)
    {k : QueueKey} (hk : k ∈ s.queue.erase ⟨reg.data.deadline, r⟩) : k.data ≠ r := by
  obtain ⟨hne, hmem⟩ := (List.Nodup.mem_erase_iff (SortedSet.Pairwise.nodup h.sorted)).mp hk
  intro hdata
  obtain ⟨reg', hreg', hdl⟩ := h.current k hmem
  rw [hdata, hreg] at hreg'
  cases hreg'
  apply hne
  cases k
  simp_all

theorem Consistent.data_ne_of_mem_tail (h : s.Consistent) {k : QueueKey} {rest : List QueueKey}
    (hq : s.queue = k :: rest) {k' : QueueKey} (hk' : k' ∈ rest) : k'.data ≠ k.data := by
  have hlt := (List.pairwise_cons.mp (hq ▸ h.sorted)).1 k' hk'
  intro hdata
  have heq := h.eq_of_data_eq (hq ▸ List.mem_cons_of_mem k hk') (hq ▸ List.mem_cons_self) hdata
  rw [heq] at hlt
  exact lt_irrefl _ hlt

theorem Consistent.deadlineOf_eq (h : s.Consistent) {k : QueueKey} (hk : k ∈ s.queue) :
    s.deadlineOf k.data = k.deadline := by
  obtain ⟨reg, hreg, hdl⟩ := h.current k hk
  simp [deadlineOf, hreg, hdl]

theorem inBlockingFn_update (h : s.Consistent) {o : Option Registration}
    (hflag : ∀ reg', o = some reg' → reg'.data.inBlockingFn = reg'.inSyscall) :
    ∀ r' reg', Function.update s.registrations r o r' = some reg' →
      reg'.data.inBlockingFn = reg'.inSyscall := by
  intro r' reg' hr'
  by_cases hr : r' = r
  · subst hr
    rw [Function.update_self] at hr'
    exact hflag reg' hr'
  · rw [Function.update_of_ne hr] at hr'
    exact h.inBlockingFn r' reg' hr'

theorem Consistent.requeue (h : s.Consistent) {q : List QueueKey} (hq : q.Sublist s.queue)
    (hne : ∀ k ∈ q, k.data ≠ r) (o : Option Registration)
    (hflag : ∀ reg', o = some reg' → reg'.data.inBlockingFn = reg'.inSyscall) :
    ({ s with queue := q, registrations := Function.update s.registrations r o } :
      DeadlineState).Consistent where
  sorted := h.sorted.sublist hq
  current := by
    intro k hk
    dsimp only at hk ⊢
    rw [Function.update_of_ne (hne k hk)]
    exact h.current k (hq.subset hk)
  notFuture := fun k hk => h.notFuture k (hq.subset hk)
  inBlockingFn := inBlockingFn_update h hflag

theorem Consistent.requeue_insert (h : s.Consistent) {q : List QueueKey} (hq : q.Sublist s.queue)
    (hne : ∀ k ∈ q, k.data ≠ r) (reg' : Registration)
    (hflag : reg'.data.inBlockingFn = reg'.inSyscall)
    (hfin : reg'.data.deadline ≠ .infiniteFuture) :
    ({ s with
        queue := SortedSet.insert ⟨reg'.data.deadline, r⟩ q
        registrations := Function.update s.registrations r (some reg') } :
      DeadlineState).Consistent := by
  have hold := h.requeue hq hne (some reg') (fun _ heq => Option.some.inj heq ▸ hflag)
  refine ⟨SortedSet.pairwise_insert hold.sorted, ?_, ?_, hold.inBlockingFn⟩
  · intro k hk
    rcases SortedSet.mem_insert.mp hk with rfl | hk
    · exact ⟨reg', Function.update_self .., rfl⟩
    · exact hold.current k hk
  · intro k hk
    rcases SortedSet.mem_insert.mp hk with rfl | hk
    · exact hfin
    · exact hold.notFuture k hk

theorem Consistent.setRegistration_same (h : s.Consistent) (hreg : s.registrations r = some reg)
    {reg' : Registration} (hdl : reg'.data.deadline = reg.data.deadline)
    (hflag : reg'.data.inBlockingFn = reg'.inSyscall) : (s.setRegistration r reg').Consistent where
  sorted := h.sorted
  current := by
    intro k hk
    by_cases hr : k.data = r
    · obtain ⟨reg'', hreg'', hdl''⟩ := h.current k hk
      rw [hr, hreg] at hreg''
      cases hreg''
      exact ⟨reg', by simp [setRegistration, hr], hdl.trans hdl''⟩
    · simpa [setRegistration, Function.update_of_ne hr] using h.current k hk
  notFuture := h.notFuture
  inBlockingFn := inBlockingFn_update h (fun _ heq => Option.some.inj heq ▸ hflag)

theorem Consistent.register (h : s.Consistent) (hfree : s.registrations r = none) :
    (s.register r).Consistent where
  sorted := h.sorted
  current := by
    intro k hk
    have hr : k.data ≠ r := by
      intro hr
      obtain ⟨reg, hreg, _⟩ := h.current k hk
      rw [hr, hfree] at hreg
      cases hreg
    simp only [DeadlineState.register, setRegistration]
    rw [Function.update_of_ne hr]
    exact h.current k hk
  notFuture := h.notFuture
  inBlockingFn := inBlockingFn_update h (fun _ heq => Option.some.inj heq ▸ rfl)

theorem adjustDeadline_fst_of_ne {queue : List QueueKey} {data : Data} {deadline : Time}
    (hfin : deadline ≠ .infiniteFuture) :
    (adjustDeadline queue r data deadline).1 =
      SortedSet.insert ⟨roundUpTo deadline kResolution, r⟩ (queue.erase ⟨data.deadline, r⟩) := by
  simp [adjustDeadline, hfin]

theorem adjustDeadline_fst_of_eq {queue : List QueueKey} {data : Data} :
    (adjustDeadline queue r data .infiniteFuture).1 = queue.erase ⟨data.deadline, r⟩ := by
  simp [adjustDeadline]

theorem roundUpTo_ne_infiniteFuture {time : Time} (h : time ≠ .infiniteFuture) (resolution : Int) :
    roundUpTo time resolution ≠ .infiniteFuture := by
  cases time <;> simp_all [roundUpTo]

theorem Consistent.setDeadline (h : s.Consistent) (hreg : s.registrations r = some reg)
    (deadline : Time) : (s.setDeadline r reg deadline).Consistent := by
  have hflag := h.inBlockingFn r reg hreg
  have hsub : (s.queue.erase ⟨reg.data.deadline, r⟩).Sublist s.queue := List.erase_sublist
  have hne := fun k hk => h.data_ne_of_mem_erase hreg (k := k) hk
  unfold DeadlineState.setDeadline
  split
  · dsimp only
    by_cases hfin : deadline = .infiniteFuture
    · subst hfin
      rw [adjustDeadline_fst_of_eq]
      exact h.requeue hsub hne _ (fun _ heq => Option.some.inj heq ▸ hflag)
    · rw [adjustDeadline_fst_of_ne hfin]
      exact h.requeue_insert hsub hne _ hflag (roundUpTo_ne_infiniteFuture hfin kResolution)
  · exact h

theorem enterBlockingSyscall_deadline (data : Data) (now tid : Int) :
    (enterBlockingSyscall data now tid).1.deadline = data.deadline := by
  dsimp only [enterBlockingSyscall]
  split <;> rfl

theorem enterBlockingSyscall_notificationAttempt (data : Data) (now tid : Int) :
    (enterBlockingSyscall data now tid).1.notificationAttempt = data.notificationAttempt := by
  dsimp only [enterBlockingSyscall]
  split <;> rfl

theorem enterBlockingSyscall_inBlockingFn {data : Data} (h : data.inBlockingFn = false)
    (now tid : Int) :
    (enterBlockingSyscall data now tid).1.inBlockingFn = (enterBlockingSyscall data now tid).2 := by
  dsimp only [enterBlockingSyscall]
  split
  · exact h
  · rfl

theorem enterBlockingSyscall_started {data : Data} {now tid : Int} :
    (enterBlockingSyscall data now tid).2 = true ↔
      data.notificationAttempt = 0 ∧ .finite now < data.deadline := by
  dsimp only [enterBlockingSyscall]
  split
  · rename_i hstop
    simp only [Bool.false_eq_true, false_iff, not_and, not_lt]
    intro hzero
    rcases hstop with hpos | hle
    · exact absurd hzero (Nat.pos_iff_ne_zero.mp hpos)
    · exact hle
  · rename_i hgo
    simp only [not_or, not_lt] at hgo
    simp only [true_iff]
    exact ⟨Nat.eq_zero_of_le_zero hgo.1, lt_of_not_ge hgo.2⟩

theorem Consistent.notifyFirst (h : s.Consistent) (nextDeadline : Time) :
    (s.notifyFirst nextDeadline).1.Consistent := by
  unfold DeadlineState.notifyFirst
  split
  · exact ⟨h.sorted, h.current, h.notFuture, h.inBlockingFn⟩
  · rename_i k rest hq
    have hsub : rest.Sublist s.queue := hq ▸ List.sublist_cons_self k rest
    have hne : ∀ k' ∈ rest, k'.data ≠ k.data := fun _ hk' => h.data_ne_of_mem_tail hq hk'
    split
    · exact ⟨h.sorted, h.current, h.notFuture, h.inBlockingFn⟩
    · rename_i reg hreg
      have hflag := h.inBlockingFn _ reg hreg
      split
      · dsimp only
        split
        · -- signalled: queued again at the next notification time, which is finite
          exact h.requeue_insert hsub hne _ hflag (by simp [roundUpTo])
        · exact h.requeue hsub hne _ (fun _ heq => Option.some.inj heq ▸ hflag)
      · exact ⟨h.sorted, h.current, h.notFuture, h.inBlockingFn⟩

theorem Consistent.step (h : s.Consistent) {e : DeadlineEvent} {s' : DeadlineState}
    (hstep : DeadlineStep s e s') : s'.Consistent := by
  cases hstep with
  | register hfree => exact h.register hfree
  | setDeadline deadline hreg => exact h.setDeadline hreg deadline
  | enter tid hreg hout =>
    have hflag := h.inBlockingFn _ _ hreg
    rw [hout] at hflag
    exact h.setRegistration_same hreg (enterBlockingSyscall_deadline _ _ _)
      (enterBlockingSyscall_inBlockingFn hflag _ _)
  | exit hreg hin => exact h.setRegistration_same hreg rfl rfl
  | unregister hreg hout =>
    exact h.requeue List.erase_sublist (fun k hk => h.data_ne_of_mem_erase hreg hk) none
      (fun _ heq => by cases heq)
  | await hpc => exact ⟨h.sorted, h.current, h.notFuture, h.inBlockingFn⟩
  | wake hpc hchanged => exact ⟨h.sorted, h.current, h.notFuture, h.inBlockingFn⟩
  | timeout hpc hexpired hchanged => exact ⟨h.sorted, h.current, h.notFuture, h.inBlockingFn⟩
  | notify hpc => exact h.notifyFirst _
  | clock now => exact ⟨h.sorted, h.current, h.notFuture, h.inBlockingFn⟩

theorem consistent_of_run {now : Int} {es : List DeadlineEvent}
    (hrun : Lts.Run DeadlineStep (init now) es s) : s.Consistent :=
  hrun.invariant (fun _ _ _ h hstep => h.step hstep) (consistent_init now)

theorem notifyFirst_signalled {nextDeadline : Time} {tid : Int}
    (h : (s.notifyFirst nextDeadline).2 = some (r, tid)) :
    ∃ reg, s.registrations r = some reg ∧ reg.data.inBlockingFn = true ∧ reg.data.tid = tid := by
  unfold DeadlineState.notifyFirst at h
  split at h
  · cases h
  · rename_i k rest hq
    split at h
    · cases h
    · rename_i reg hreg
      split at h
      · dsimp only at h
        split at h
        · rename_i hblocking
          cases h
          exact ⟨reg, hreg, hblocking, rfl⟩
        · cases h
      · cases h

def attemptAt (s : DeadlineState) (r : Nat) : Nat :=
  match s.registrations r with
  | some reg => reg.data.notificationAttempt
  | none => 0

theorem attemptAt_of_registration (hreg : s.registrations r = some reg) :
    s.attemptAt r = reg.data.notificationAttempt := by
  simp [attemptAt, hreg]

theorem attemptAt_le_of_registrations {s' : DeadlineState}
    (h : s'.registrations r = s.registrations r) : s.attemptAt r ≤ s'.attemptAt r := by
  simp [attemptAt, h]

theorem setDeadline_registrations_of_ne {r' : Nat} (hr : r' ≠ r) (reg' : Registration)
    (deadline : Time) : (s.setDeadline r' reg' deadline).registrations r = s.registrations r := by
  unfold DeadlineState.setDeadline
  split
  · exact Function.update_of_ne (Ne.symm hr) _ _
  · rfl

theorem attemptAt_notifyFirst (nextDeadline : Time) :
    s.attemptAt r ≤ (s.notifyFirst nextDeadline).1.attemptAt r := by
  unfold DeadlineState.notifyFirst
  split
  · exact Nat.le_refl _
  · rename_i k rest hq
    split
    · exact Nat.le_refl _
    · rename_i reg hreg
      by_cases hr : k.data = r
      · subst hr
        split
        · dsimp only
          split <;> simp [attemptAt, hreg]
        · exact Nat.le_refl _
      · split
        · dsimp only
          split <;> simp [attemptAt, Function.update_of_ne (Ne.symm hr)]
        · exact Nat.le_refl _

theorem attemptAt_le_of_step {e : DeadlineEvent} {s' : DeadlineState}
    (hstep : DeadlineStep s e s') (hlive : 0 < s.attemptAt r)
    (hset : ∀ deadline, e ≠ .setDeadline r deadline true) (hunregister : e ≠ .unregister r) :
    s.attemptAt r ≤ s'.attemptAt r := by
  cases hstep with
  | @register r' hfree =>
    have hr : r' ≠ r := by
      rintro rfl
      simp [attemptAt, hfree] at hlive
    exact attemptAt_le_of_registrations (Function.update_of_ne (Ne.symm hr) _ _)
  | @setDeadline r' reg' deadline hreg =>
    by_cases hr : r' = r
    · subst hr
      have hsame : deadline = reg'.lastDeadline := by
        by_contra hne
        exact hset deadline (by simp [hne])
      simp [DeadlineState.setDeadline, hsame]
    · exact attemptAt_le_of_registrations (setDeadline_registrations_of_ne hr reg' deadline)
  | @enter r' reg' tid hreg hout =>
    by_cases hr : r' = r
    · subst hr
      simp [attemptAt, DeadlineState.enter, setRegistration, hreg,
        enterBlockingSyscall_notificationAttempt]
    · exact attemptAt_le_of_registrations (Function.update_of_ne (Ne.symm hr) _ _)
  | @exit r' reg' hreg hin =>
    by_cases hr : r' = r
    · subst hr
      simp [attemptAt, DeadlineState.exit, setRegistration, hreg]
    · exact attemptAt_le_of_registrations (Function.update_of_ne (Ne.symm hr) _ _)
  | @unregister r' reg' hreg hout =>
    have hr : r' ≠ r := by
      rintro rfl
      exact hunregister rfl
    exact attemptAt_le_of_registrations (Function.update_of_ne (Ne.symm hr) _ _)
  | await hpc => exact Nat.le_refl _
  | wake hpc hchanged => exact Nat.le_refl _
  | timeout hpc hexpired hchanged => exact Nat.le_refl _
  | notify hpc => exact attemptAt_notifyFirst _
  | clock now => exact Nat.le_refl _

theorem ne_enter_started_of_step {e : DeadlineEvent} {s' : DeadlineState}
    (hstep : DeadlineStep s e s') (hlive : 0 < s.attemptAt r) (tid : Int) :
    e ≠ .enter r tid true := by
  cases hstep with
  | @enter r' reg' tid' hreg hout =>
    intro he
    simp only [DeadlineEvent.enter.injEq] at he
    obtain ⟨rfl, rfl, hstarted⟩ := he
    rw [attemptAt_of_registration hreg] at hlive
    exact Nat.ne_of_gt hlive (enterBlockingSyscall_started.mp hstarted).1
  | _ => simp

/-- `queue_` is ordered by `ByDeadline` on the deadlines its elements have now, and the erase
that each writer of a deadline does first takes the element out whole: the erase by a live
registration's current key in `AdjustDeadline` and `Unregister`, and the pop of `Run`. -/
def QueueOrdered (s : DeadlineState) : Prop :=
  s.queue.Pairwise (· < ·) ∧ (∀ k ∈ s.queue, s.deadlineOf k.data = k.deadline) ∧
    (∀ r reg, s.registrations r = some reg →
      ∀ k ∈ s.queue.erase ⟨reg.data.deadline, r⟩, k.data ≠ r) ∧
    ∀ k rest, s.queue = k :: rest → ∀ k' ∈ rest, k'.data ≠ k.data

def QueueLive (s : DeadlineState) : Prop :=
  ∀ k ∈ s.queue, (s.registrations k.data).isSome ∧ k.deadline ≠ .infiniteFuture

def SignalsOnlyBlocking (s : DeadlineState) : Prop :=
  ∀ s' r tid, DeadlineStep s (.notify (some (r, tid))) s' →
    ∃ reg, s.registrations r = some reg ∧ reg.data.inBlockingFn = true ∧ reg.inSyscall = true ∧
      reg.data.tid = tid

def HonoursNotified (s : DeadlineState) : Prop :=
  ∀ r reg, s.registrations r = some reg → 0 < reg.data.notificationAttempt →
    ∀ es s', Lts.Run DeadlineStep s es s' →
      (∀ deadline, DeadlineEvent.setDeadline r deadline true ∉ es) →
      DeadlineEvent.unregister r ∉ es → ∀ tid, DeadlineEvent.enter r tid true ∉ es

theorem Consistent.queueOrdered (h : s.Consistent) : s.QueueOrdered :=
  ⟨h.sorted, fun _ hk => h.deadlineOf_eq hk, fun _ _ hreg _ hk => h.data_ne_of_mem_erase hreg hk,
    fun _ _ hq _ hk' => h.data_ne_of_mem_tail hq hk'⟩

theorem Consistent.queueLive (h : s.Consistent) : s.QueueLive := by
  intro k hk
  obtain ⟨reg, hreg, _⟩ := h.current k hk
  exact ⟨by simp [hreg], h.notFuture k hk⟩

theorem Consistent.signalsOnlyBlocking (h : s.Consistent) : s.SignalsOnlyBlocking := by
  intro s' r tid hstep
  generalize he : DeadlineEvent.notify (some (r, tid)) = e at hstep
  cases hstep with
  | notify hpc =>
    simp only [DeadlineEvent.notify.injEq] at he
    obtain ⟨reg, hreg, hblocking, htid⟩ := notifyFirst_signalled he.symm
    exact ⟨reg, hreg, hblocking, (h.inBlockingFn r reg hreg).symm.trans hblocking, htid⟩
  | _ => cases he

theorem honoursNotified (s : DeadlineState) : s.HonoursNotified := by
  intro r reg hreg hpos es s' hrun hset hunregister tid hmem
  have hkeep : ∀ t e t', 0 < t.attemptAt r → DeadlineStep t e t' →
      ((∀ deadline, e ≠ .setDeadline r deadline true) ∧ e ≠ .unregister r) →
      0 < t'.attemptAt r :=
    fun _ _ _ hlive hstep hallowed =>
      Nat.lt_of_lt_of_le hlive (attemptAt_le_of_step hstep hlive hallowed.1 hallowed.2)
  have hnever : ∀ t e t', 0 < t.attemptAt r → DeadlineStep t e t' → ¬ e = .enter r tid true :=
    fun _ _ _ hlive hstep => ne_enter_started_of_step hstep hlive tid
  have hallowed : ∀ e ∈ es, (∀ deadline, e ≠ .setDeadline r deadline true) ∧ e ≠ .unregister r :=
    fun e he => ⟨fun deadline hd => hset deadline (hd ▸ he), fun hu => hunregister (hu ▸ he)⟩
  have hstart : 0 < s.attemptAt r := by rwa [attemptAt_of_registration hreg]
  exact Lts.Run.forall_not_bad hkeep hnever hrun hstart hallowed _ hmem rfl

end DeadlineState

open DeadlineState in
theorem deadlineManager_consistent {now : Int} {es : List DeadlineEvent} {s : DeadlineState}
    (hrun : Lts.Run DeadlineStep (DeadlineState.init now) es s) :
    s.QueueOrdered ∧ s.QueueLive ∧ s.SignalsOnlyBlocking ∧ s.HonoursNotified := by
  have h := consistent_of_run hrun
  exact ⟨h.queueOrdered, h.queueLive, h.signalsOnlyBlocking, honoursNotified s⟩

theorem deadlineManager_consistent_run :
    Lts.Run DeadlineStep (DeadlineState.init 0) [.register 0, .setDeadline 0 (.finite 5) true]
        (((DeadlineState.init 0).register 0).setDeadline 0 .init (.finite 5)) ∧
      (((DeadlineState.init 0).register 0).setDeadline 0 .init (.finite 5)).QueueOrdered ∧
      (((DeadlineState.init 0).register 0).setDeadline 0 .init (.finite 5)).QueueLive ∧
      (((DeadlineState.init 0).register 0).setDeadline 0 .init (.finite 5)).SignalsOnlyBlocking ∧
      (((DeadlineState.init 0).register 0).setDeadline 0 .init (.finite 5)).HonoursNotified :=
  have hrun : Lts.Run DeadlineStep (DeadlineState.init 0) [.register 0, .setDeadline 0 (.finite 5) true]
      (((DeadlineState.init 0).register 0).setDeadline 0 .init (.finite 5)) :=
    .cons (.register rfl) (.cons (@DeadlineStep.setDeadline _ 0 .init (.finite 5) rfl) (.nil _))
  ⟨hrun, deadlineManager_consistent hrun⟩

/-- `SetDeadline(absl::InfinitePast())` queues its registration at `InfinitePast`: the test in
`AdjustDeadline` only keeps `InfiniteFuture` out, and rounding leaves `InfinitePast` as it is. -/
theorem setDeadline_infinitePast_queued :
    Lts.Run DeadlineStep (DeadlineState.init 0) [.register 0, .setDeadline 0 .infinitePast true]
        (((DeadlineState.init 0).register 0).setDeadline 0 .init .infinitePast) ∧
      (⟨.infinitePast, 0⟩ : QueueKey) ∈
        (((DeadlineState.init 0).register 0).setDeadline 0 .init .infinitePast).queue :=
  ⟨.cons (.register rfl) (.cons (@DeadlineStep.setDeadline _ 0 .init .infinitePast rfl) (.nil _)),
    by decide⟩

end SandboxedApi

import Rv32iCore.Core.Interrupt

/-!
# Traps, `mret` and the interrupt gate

A trap saves `MIE` and the privilege mode in `mstatus`, `mret` puts them back, and between
the two nothing but an instruction that says so changes what was saved.

    trap_mret_bracket           from trap entry to the matching mret and the next instruction
    timer_interrupt_iff_mie     the interrupt gate is mstatus.MIE, in either privilege mode
-/

namespace Rv32i

open Sync

/-! ## What commits in a cycle -/

namespace Core

variable (s : Core) (i : CoreIn)

/-- A trap, synchronous or interrupt, is entered at this edge. -/
def entersTrap : Bool := s.trap i && !i.busStall

def entersSyncTrap : Bool := s.syncTrap && !i.busStall

def commitsMret : Bool := s.idEx.isMret && !s.trap i && !i.busStall

/-- The instruction in EX writes the CSR at `csrAddr`. -/
def commitsCsrWrite (csrAddr : BitVec 12) : Bool :=
  s.csrAccess.doWrite && s.csrAccess.csrAddr == csrAddr && !s.idEx.isMret && !s.trap i && !i.busStall

/-- Nothing that moves the saved state commits: no synchronous trap, no `mret`, no write to
`mstatus` or `mepc`. -/
def keepsTrapFrame : Bool :=
  !s.entersSyncTrap i && !s.commitsMret i && !s.commitsCsrWrite i csrMstatus &&
    !s.commitsCsrWrite i csrMepc

end Core

/-! ## One edge of the CSR file -/

section Csr

variable {s : Core} {i : CoreIn}

/-- An edge at which no trap is entered, no `mret` and no write to `csrAddr` commits is a
stall, an instruction write elsewhere, or nothing. -/
theorem Core.nextCsr_cases (ht : s.entersTrap i = false) (hm : s.commitsMret i = false) :
    s.nextCsr i true = s.csr ∨
      (s.commitsCsrWrite i s.csrAccess.csrAddr = true ∧
        s.nextCsr i true = s.csr.write s.csrAccess.csrAddr
          (s.csrAccess.csrNew (s.csr.csrRdata i.timerIrq s.csrAccess.csrAddr))) := by
  unfold Core.nextCsr Csr.step Csr.update
  cases hs : i.busStall with
  | true => exact .inl rfl
  | false =>
    simp only [entersTrap, commitsMret, hs, Bool.not_false, Bool.and_true] at ht hm
    rw [ht, Bool.not_false, Bool.and_true] at hm
    cases hw : s.csrAccess.doWrite with
    | false => exact .inl (by simp [ht, hm])
    | true => exact .inr ⟨by simp [commitsCsrWrite, hw, hm, ht, hs], by simp [ht, hm]⟩

/-- `mstatus` and the privilege mode are kept by every edge without a trap, an `mret` or an
`mstatus` write. -/
theorem Core.nextCsr_mstatus (ht : s.entersTrap i = false) (hm : s.commitsMret i = false)
    (hw : s.commitsCsrWrite i csrMstatus = false) :
    (s.nextCsr i true).mstatusMie = s.csr.mstatusMie ∧
      (s.nextCsr i true).mstatusMpie = s.csr.mstatusMpie ∧
      (s.nextCsr i true).mstatusMpp = s.csr.mstatusMpp ∧
      (s.nextCsr i true).privM = s.csr.privM := by
  rcases nextCsr_cases ht hm with h | ⟨hc, h⟩
  · simp [h]
  · have hne : s.csrAccess.csrAddr ≠ csrMstatus := by
      rintro e
      rw [e, hw] at hc
      cases hc
    obtain ⟨h1, h2, h3⟩ := s.csr.write_mstatus_of_ne
      (s.csrAccess.csrNew (s.csr.csrRdata i.timerIrq s.csrAccess.csrAddr)) hne
    rw [h]
    exact ⟨h1, h2, h3, Csr.write_privM _ _ _⟩

theorem Core.nextCsr_mepc (ht : s.entersTrap i = false) (hm : s.commitsMret i = false)
    (hw : s.commitsCsrWrite i csrMepc = false) : (s.nextCsr i true).mepc = s.csr.mepc := by
  rcases nextCsr_cases ht hm with h | ⟨hc, h⟩
  · rw [h]
  · have hne : s.csrAccess.csrAddr ≠ csrMepc := by
      rintro e
      rw [e, hw] at hc
      cases hc
    rw [h]
    exact s.csr.write_mepc_of_ne _ hne

theorem Core.nextCsr_trap (ht : s.entersTrap i = true) :
    s.nextCsr i true = s.csr.trapEntry s.idEx.pc (s.trapCause i) := by
  simp only [entersTrap, Bool.and_eq_true, Bool.not_eq_true'] at ht
  simp [nextCsr, Csr.step, Csr.update, ht.1, ht.2]

theorem Core.nextCsr_mret (hm : s.commitsMret i = true) : s.nextCsr i true = s.csr.mret := by
  simp only [commitsMret, Bool.and_eq_true, Bool.not_eq_true'] at hm
  simp [nextCsr, Csr.step, Csr.update, hm.1.1, hm.1.2, hm.2]

end Csr

/-! ## The handler -/

/-- What a trap has saved: interrupts off, the old `MIE` and mode in `mstatus`, the trap PC
in `mepc`. -/
structure TrapFrame (mie privM : Bool) (pc : Word) (c : Csr) : Prop where
  mieOff : c.mstatusMie = false
  mpie : c.mstatusMpie = mie
  mpp : c.mstatusMpp = (BitVec.ofBool privM).replicate 2
  mepc : c.mepc = pc

theorem TrapFrame.trapEntry (c : Csr) (pc cause : Word) :
    TrapFrame c.mstatusMie c.privM pc (c.trapEntry pc cause) :=
  ⟨rfl, rfl, rfl, rfl⟩

/-- With interrupts off, only a synchronous trap can be entered. -/
theorem Core.entersTrap_eq {s : Core} {i : CoreIn} (h : s.csr.mstatusMie = false) :
    s.entersTrap i = s.entersSyncTrap i := by
  simp [entersTrap, entersSyncTrap, trap, takeInterrupt_of_mie h]

/-- One cycle of the handler keeps the frame. -/
theorem TrapFrame.step {mie privM : Bool} {pc : Word} {s : Core} {i : CoreIn}
    (h : TrapFrame mie privM pc s.csr) (hk : s.keepsTrapFrame i = true) :
    TrapFrame mie privM pc (s.nextCsr i true) := by
  simp only [Core.keepsTrapFrame, Bool.and_eq_true, Bool.not_eq_true'] at hk
  obtain ⟨⟨⟨ht, hm⟩, hs⟩, he⟩ := hk
  rw [← Core.entersTrap_eq h.mieOff] at ht
  obtain ⟨h1, h2, h3, -⟩ := Core.nextCsr_mstatus ht hm hs
  exact ⟨h1.trans h.mieOff, h2.trans h.mpie, h3.trans h.mpp,
    (Core.nextCsr_mepc ht hm he).trans h.mepc⟩

/-- `mret` puts back what the frame holds. -/
theorem TrapFrame.mret {mie privM : Bool} {pc : Word} {c : Csr} (h : TrapFrame mie privM pc c) :
    c.mret.mstatusMie = mie ∧ c.mret.privM = privM ∧ c.mret.mstatusMpie = true ∧
      c.mret.mstatusMpp = 0b00#2 ∧ c.mret.mepc = pc := by
  refine ⟨h.mpie, ?_, rfl, rfl, h.mepc⟩
  rw [Csr.mret, h.mpp]
  cases privM <;> rfl

section Bracket

variable {P : Params} {ld : Nat → Word} {t : Tracked} {q : Machine} {i : CoreIn}

/-- `mret` sends control to `mepc`. -/
theorem Core.redirect_mret {s : Core} (hm : s.commitsMret i = true) :
    s.pcRedirect i = true ∧ s.pcTarget i = s.csr.mepc := by
  simp only [commitsMret, Bool.and_eq_true, Bool.not_eq_true'] at hm
  simp [pcRedirect, pcTarget, hm.1.1, hm.1.2]

/-- After `mret` the sequential machine stands at `mepc`. -/
theorem Rel.step_mret (h : Rel P ld t q) (hok : Responds ld t i) (hm : t.core.commitsMret i = true) :
    ∃ q', Rel P ld (t.step P i) q' ∧ q'.pc = t.core.csr.mepc := by
  have hred := Core.redirect_mret hm
  simp only [Core.commitsMret, Bool.and_eq_true, Bool.not_eq_true'] at hm
  obtain ⟨⟨hmret, htrap⟩, hs⟩ := hm
  have hti : t.core.takeInterrupt i = false := by
    simp only [Core.trap, Bool.or_eq_false_iff] at htrap
    exact htrap.2
  have hv : t.exValid = true := by
    by_contra hv
    rw [(h.idle (by simpa using hv)).isMret] at hmret
    cases hmret
  refine ⟨_, h.step_exec hok hv hs hti, ?_⟩
  show q.nextPc P = _
  rw [h.redirect hv hti, if_pos hred.1, hred.2]

end Bracket

/-- The first load value is the first response, and so on. -/
theorem supplies_getD (vs : List Word) : Supplies (fun k => vs.getD k 0) vs := by
  intro k v hk
  simp [List.getD, hk]

/-- Every reachable state is related to a state of the sequential machine, for the responses
of that run and of any continuation. -/
theorem exists_rel (P : Params) (s : Core) (i₀ : CoreIn) (is js : List CoreIn) :
    ∃ ld q, Rel P ld (run (Tracked.step P) (.reset P s i₀) is) q ∧
      Always (Tracked.step P) (Responds ld) (run (Tracked.step P) (.reset P s i₀) is) js := by
  have hok := SuppliesFrom.responds (t := .reset P s i₀)
    (supplies_getD (outputs (Tracked.step P) Tracked.responses (.reset P s i₀) (is ++ js)))
  rw [always_append] at hok
  exact ⟨_, _, (Tracked.sim P _).run (Rel.reset P _ s i₀) hok.1, hok.2⟩

/-- **Trap and `mret` bracket.**  A trap is entered in cycle `i`; the handler runs through
`js`; an `mret` commits in cycle `k`; then, through `ks`, no instruction leaves EX and no
interrupt is taken until cycle `l`. -/
theorem trap_mret_bracket (P : Params) (s : Core) (i₀ : CoreIn) (is : List CoreIn) (i : CoreIn)
    (js : List CoreIn)
    (htrap : (run (Tracked.step P) (.reset P s i₀) is).core.entersTrap i = true)
    (hkeep : Always (Tracked.step P) (fun t i => t.core.keepsTrapFrame i = true)
      ((run (Tracked.step P) (.reset P s i₀) is).step P i) js) :
    let t := run (Tracked.step P) (.reset P s i₀) is
    let t' := t.step P i
    let u := run (Tracked.step P) t' js
    Always (Tracked.step P) (fun t i => t.core.takeInterrupt i = false) t' js ∧
    TrapFrame t.core.csr.mstatusMie t.core.csr.privM t.core.idEx.pc u.core.csr ∧
    ∀ k, u.core.commitsMret k = true →
      let u' := u.step P k
      u'.core.csr.mstatusMie = t.core.csr.mstatusMie ∧ u'.core.csr.privM = t.core.csr.privM ∧
      u'.core.csr.mstatusMpie = true ∧ u'.core.csr.mstatusMpp = 0b00#2 ∧
      ∀ ks l, Always (Tracked.step P) (fun t i => t.schedule i = []) u' ks →
        let w := run (Tracked.step P) u' ks
        (w.leavesEx l = true →
          w.core.idEx.pc = t.core.idEx.pc ∧ w.core.idEx.instr = P.fetch t.core.idEx.pc) ∧
        (w.core.takeInterrupt l = true → (w.step P l).core.csr.mepc = t.core.idEx.pc) := by
  intro t t' u
  have h0 : TrapFrame t.core.csr.mstatusMie t.core.csr.privM t.core.idEx.pc t'.core.csr := by
    have hc : t'.core.csr = _ := Core.nextCsr_trap htrap
    rw [hc]
    exact .trapEntry _ _ _
  let Frame := fun t'' : Tracked =>
    TrapFrame t.core.csr.mstatusMie t.core.csr.privM t.core.idEx.pc t''.core.csr
  have hframe := inv_always Frame (fun _ _ h hk => h.step hk) h0 hkeep
  have hend : Frame u := inv_run Frame (fun _ _ h hk => h.step hk) h0 hkeep
  refine ⟨hframe.mono fun _ _ h => Core.takeInterrupt_of_mie h.1.mieOff, hend, fun k hk => ?_⟩
  intro u'
  have hcsr : u'.core.csr = u.core.csr.mret := Core.nextCsr_mret hk
  obtain ⟨h1, h2, h3, h4, h5⟩ := hend.mret
  rw [hcsr]
  refine ⟨h1, h2, h3, h4, fun ks l hq => ?_⟩
  obtain ⟨ld, q, hrel, hok⟩ := exists_rel P s i₀ (is ++ i :: js) (k :: ks)
  have hu : run (Tracked.step P) (.reset P s i₀) (is ++ i :: js) = u := by simp [u, t', t]
  rw [hu] at hrel hok
  rw [always_cons] at hok
  obtain ⟨q', hrel', hpc⟩ := hrel.step_mret hok.1 hk
  rw [hend.mepc] at hpc
  have hw := hrel'.run_quiet hok.2 hq
  refine ⟨fun hl => ?_, fun hl => ?_⟩
  · simp only [Tracked.leavesEx, Bool.and_eq_true] at hl
    exact hpc ▸ (hw.captured hl.1.1).pc_instr
  · obtain ⟨hs, hmie, -⟩ := Core.takeInterrupt_elim hl
    have hc := Core.nextCsr_interrupt hs hl
    rw [hw.csr] at hmie
    rw [hw.idEx_pc hmie, hpc] at hc
    exact congrArg Csr.mepc hc

/-- Handler `addi x1, x0, 1; mret` at address 0, reset at the `ecall` behind it. -/
def ecallProgram : Params := { Params.ofWords [0x00100093, 0x30200073, 0x00000073] with resetPc := 8 }

theorem trap_mret_bracket_ecall :
    (run (Tracked.step ecallProgram) (.reset ecallProgram default default)
      (List.replicate 9 default)).core.idEx.pc = 8 :=
  (((trap_mret_bracket ecallProgram default default (List.replicate 2 default) default
    (List.replicate 3 default) (by decide +kernel) (by decide +kernel)).2.2 default
    (by decide +kernel)).2.2.2.2 (List.replicate 2 default) default (by decide +kernel)).1
    (by decide +kernel) |>.1

/-! ## The interrupt gate -/

/-- **The gate is `MIE`.**  A pending, enabled timer interrupt is taken exactly when
`mstatus.MIE` is set, in U-mode as in M-mode; with `MIE` clear it waits through any run that
commits no synchronous trap, no `mret` and no `mstatus` write, in an unchanged mode. -/
theorem timer_interrupt_iff_mie (P : Params) (s : Core) (i₀ : CoreIn) (is : List CoreIn) :
    let t := run (Tracked.step P) (.reset P s i₀) is
    (∀ i, i.timerIrq = true → t.core.csr.mieMtie = true → i.busStall = false →
      t.core.syncTrap = false → t.core.takeInterrupt i = t.core.csr.mstatusMie) ∧
    (t.core.csr.mstatusMie = false → ∀ js,
      Always (Tracked.step P) (fun t i => t.core.entersSyncTrap i = false ∧
        t.core.commitsMret i = false ∧ t.core.commitsCsrWrite i csrMstatus = false) t js →
      Always (Tracked.step P) (fun t i => t.core.takeInterrupt i = false) t js ∧
      (run (Tracked.step P) t js).core.csr.privM = t.core.csr.privM) := by
  intro t
  refine ⟨fun i hirq hmtie hs hsync => ?_, fun hmie js hq => ?_⟩
  · simp [Core.takeInterrupt, Csr.interruptPending, hirq, hmtie, hs, hsync]
  · let Gated := fun u : Tracked =>
      u.core.csr.mstatusMie = false ∧ u.core.csr.privM = t.core.csr.privM
    have hstep : ∀ (u : Tracked) (i : CoreIn), Gated u →
        (u.core.entersSyncTrap i = false ∧ u.core.commitsMret i = false ∧
          u.core.commitsCsrWrite i csrMstatus = false) → Gated (u.step P i) := by
      rintro u i ⟨hm, hp⟩ ⟨h1, h2, h3⟩
      rw [← Core.entersTrap_eq hm] at h1
      obtain ⟨k1, -, -, k4⟩ := Core.nextCsr_mstatus h1 h2 h3
      exact ⟨k1.trans hm, k4.trans hp⟩
    exact ⟨(inv_always Gated hstep ⟨hmie, rfl⟩ hq).mono fun _ _ h => Core.takeInterrupt_of_mie h.1.1,
      (inv_run Gated hstep ⟨hmie, rfl⟩ hq).2⟩

/-- `addi x1, x0, 0x80; csrrw x0, mie, x1; mret`: from then on U-mode with `MIE` clear. -/
def userProgram : Params := .ofWords [0x08000093, 0x30409073, 0x30200073]

theorem timer_interrupt_iff_mie_user :
    (run (Tracked.step userProgram) (.reset userProgram default default)
      (List.replicate 7 irqCycle)).core.takeInterrupt irqCycle = false ∧
    Always (Tracked.step userProgram) (fun t i => t.core.takeInterrupt i = false)
      (run (Tracked.step userProgram) (.reset userProgram default default)
        (List.replicate 7 irqCycle)) (List.replicate 2 irqCycle) :=
  have h := timer_interrupt_iff_mie userProgram default default (List.replicate 7 irqCycle)
  ⟨(h.1 irqCycle rfl (by decide +kernel) rfl (by decide +kernel)).trans (by decide +kernel),
    (h.2 (by decide +kernel) (List.replicate 2 irqCycle) (by decide +kernel)).1⟩

/-- U-mode does not open the gate: in `userProgram` an enabled interrupt stays pending there. -/
theorem timer_interrupt_masked_in_user_mode :
    ¬ ∀ (P : Params) (s : Core) (i₀ : CoreIn) (is : List CoreIn) (i : CoreIn),
      let t := run (Tracked.step P) (.reset P s i₀) is
      i.timerIrq = true → t.core.csr.mieMtie = true → i.busStall = false →
      t.core.syncTrap = false →
      (t.core.csr.privM = false → t.core.takeInterrupt i = true) ∧
      (t.core.csr.privM = true → t.core.takeInterrupt i = t.core.csr.mstatusMie) := by
  intro h
  have hu := h userProgram default default (List.replicate 8 irqCycle) irqCycle
  revert hu
  decide +kernel

end Rv32i

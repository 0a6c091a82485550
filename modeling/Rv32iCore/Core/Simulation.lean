import Rv32iCore.Core.Observe

/-!
# The pipeline simulates the sequential machine

`Rel ld t q`: `q` is the sequential machine after exactly the instructions that have left
EX (and the interrupts taken) in the run that led to `t`.

* Back end: `q.regs` is the register file with the writes in WB and MEM done on top of it
  (`Rel.regs`); a load in MEM will get the response `ld t.loads`.
* EX: a program instruction there is the one at `q.pc`, captured whole, and each operand
  captured in ID is the register file's unless WB or MEM still owes it (`Operand`).
* Front end: IF/ID and the fetch PC follow sequentially from EX (`Rel.fetched`), and every
  bubble carries the PC of the next program instruction, so that an interrupt landing on it
  saves the right `mepc`.  Only the bubbles left by reset do not, and those are gone before
  `mstatus.MIE` can be set.

One cycle is one of four steps: stalled, interrupt, program instruction, no instruction.
-/

namespace Rv32i

/-! ## The register file -/

theorem regfileWrite_apply (regs : BitVec 5 → Word) (we : Bool) (rd : BitVec 5) (v : Word)
    (r : BitVec 5) :
    regfileWrite regs we rd v r = if we = true ∧ rd ≠ 0#5 ∧ r = rd then v else regs r := by
  unfold regfileWrite
  by_cases hwe : we = true ∧ rd ≠ 0#5
  · rw [if_pos (by simpa using hwe), Function.update_apply]
    simp only [hwe.1, hwe.2, ne_eq, not_false_eq_true, true_and]
  · rw [if_neg (by simpa using hwe), if_neg (fun h => hwe ⟨h.1, h.2.1⟩)]

/-- Repeating a write changes nothing: WB may write the same value in every stalled cycle. -/
theorem regfileWrite_idem (regs : BitVec 5 → Word) (we : Bool) (rd : BitVec 5) (v : Word) :
    regfileWrite (regfileWrite regs we rd v) we rd v = regfileWrite regs we rd v := by
  funext r
  simp only [regfileWrite_apply]
  split_ifs <;> rfl

/-- With the bypass, a read port sees the register file as the coming edge leaves it. -/
theorem regfileRead_eq (regs : BitVec 5 → Word) (we : Bool) (rd rs : BitVec 5) (v : Word) :
    regfileRead regs we rd v rs = readReg (regfileWrite regs we rd v) rs := by
  unfold regfileRead readReg
  by_cases hrs : rs = 0#5
  · rw [if_pos hrs, if_pos hrs]
  rw [if_neg hrs, if_neg hrs, regfileWrite_apply]
  congr 1
  simp only [Bool.and_eq_true, beq_iff_eq, bne_iff_ne, eq_iff_iff]
  constructor
  · rintro ⟨⟨hwe, rfl⟩, hne⟩; exact ⟨hwe, hne, rfl⟩
  · rintro ⟨hwe, hne, rfl⟩; exact ⟨⟨hwe, rfl⟩, hne⟩

/-- `fwd_mem` fires exactly when the write in MEM reaches the reader's register. -/
theorem Core.fwdMem_iff (s : Core) (rs : BitVec 5) :
    s.fwdMem rs = true ↔ s.exMem.regWe = true ∧ s.exMem.rdAddr ≠ 0#5 ∧ rs = s.exMem.rdAddr := by
  simp only [fwdMem, Bool.and_eq_true, beq_iff_eq, bne_iff_ne]
  constructor
  · rintro ⟨⟨hwe, rfl⟩, hne⟩; exact ⟨hwe, hne, rfl⟩
  · rintro ⟨hwe, hne, rfl⟩; exact ⟨⟨hwe, rfl⟩, hne⟩

theorem Core.fwdWb_iff (s : Core) (rs : BitVec 5) :
    s.fwdWb rs = true ↔ s.memWb.regWe = true ∧ s.memWb.rdAddr ≠ 0#5 ∧ rs = s.memWb.rdAddr := by
  simp only [fwdWb, Bool.and_eq_true, beq_iff_eq, bne_iff_ne]
  constructor
  · rintro ⟨⟨hwe, rfl⟩, hne⟩; exact ⟨hwe, hne, rfl⟩
  · rintro ⟨hwe, hne, rfl⟩; exact ⟨⟨hwe, rfl⟩, hne⟩

/-! ## The relation -/

/-- An ID/EX register that holds no program instruction: it can do nothing but be
interrupted.  (The nop of `if_id_valid = 0` keeps `reg_we`, for x0.) -/
structure Idle (e : IdEx) : Prop where
  regWe : e.regWe = true → e.rdAddr = 0#5 ∧ e.wbSel = 0#2
  memWe : e.memWe = false
  memRe : e.memRe = false
  isBranch : e.isBranch = false
  isJal : e.isJal = false
  isJalr : e.isJalr = false
  illegal : e.illegal = false
  isMret : e.isMret = false
  isEcall : e.isEcall = false
  csrRe : e.csrRe = false
  csrWe : e.csrWe = false

/-- An operand captured in ID is the register file's value, unless WB is writing it now. -/
structure Operand (s : Core) (rs : BitVec 5) (data : Word) : Prop where
  zero : rs = 0#5 → data = 0
  regs : rs ≠ 0#5 → s.fwdWb rs = false → data = s.regs rs

/-- A load in MEM whose register the instruction in EX reads: what `load_use` excludes. -/
def LoadHazard (s : Core) (rs : BitVec 5) : Prop :=
  s.exMem.memRe = true ∧ s.exMem.rdAddr ≠ 0#5 ∧ s.exMem.rdAddr = rs

/-- The program instruction at `pc`, captured in ID/EX. -/
structure Captured (P : Params) (s : Core) (pc : Word) : Prop where
  idEx : s.idEx = IdEx.capture pc (P.fetch pc) (decoder (P.fetch pc)) (immgen (P.fetch pc))
    s.idEx.rs1Data s.idEx.rs2Data
  rs1 : Operand s s.idEx.rs1Addr s.idEx.rs1Data
  rs2 : Operand s s.idEx.rs2Addr s.idEx.rs2Data
  noHazard1 : ¬ LoadHazard s s.idEx.rs1Addr
  noHazard2 : ¬ LoadHazard s s.idEx.rs2Addr

theorem Captured.pc_instr {P : Params} {s : Core} {pc : Word} (h : Captured P s pc) :
    s.idEx.pc = pc ∧ s.idEx.instr = P.fetch pc := by
  rw [h.idEx]
  exact ⟨rfl, rfl⟩

namespace Tracked

/-- The value the instruction in MEM will write back. -/
def memData (ld : Nat → Word) (t : Tracked) : Word :=
  if t.core.exMem.wbSel = 1#2 then ld t.loads else t.core.exMem.wbValue

/-- The register file with the writes in WB and MEM done. -/
def archRegs (ld : Nat → Word) (t : Tracked) : BitVec 5 → Word :=
  regfileWrite t.core.nextRegs t.core.exMem.regWe t.core.exMem.rdAddr (t.memData ld)

/-- The PC of the program instruction that follows EX if EX does not redirect. -/
def followPc (t : Tracked) (q : Machine) : Word := if t.exValid then q.pc + 4 else q.pc

end Tracked

/-- The back end: CSRs, the writes in flight, the loads in flight. -/
structure BackRel (ld : Nat → Word) (t : Tracked) (q : Machine) : Prop where
  csr : t.core.csr = q.csr
  regs : t.archRegs ld = q.regs
  loads : q.loads = t.loads + t.core.exMem.memRe.toNat
  memLoad : t.core.exMem.regWe = true → t.core.exMem.wbSel = 1#2 → t.core.exMem.memRe = true
  loadMem : t.core.exMem.memRe = true → t.core.exMem.wbSel = 1#2

/-- The front end: what EX, IF/ID and the fetch PC hold. -/
structure FrontRel (P : Params) (t : Tracked) (q : Machine) : Prop where
  captured : t.exValid = true → Captured P t.core q.pc
  idle : t.exValid = false → Idle t.core.idEx
  idlePc : t.exValid = false → q.csr.mstatusMie = true → t.core.idEx.pc = q.pc
  fetched : t.core.ifIdValid = true → t.core.ifIdPc = t.followPc q ∧
    t.core.instr = P.fetch (t.followPc q) ∧ t.core.pc = t.followPc q + 4
  empty : t.core.ifIdValid = false → t.exValid = false ∧ t.core.pc = q.pc
  emptyPc : t.core.ifIdValid = false → q.csr.mstatusMie = true → t.core.ifIdPc = q.pc

structure Rel (P : Params) (ld : Nat → Word) (t : Tracked) (q : Machine) : Prop
    extends BackRel ld t q, FrontRel P t q

/-! ## EX computes what the sequential machine does -/

/-- **Forwarding.**  Whichever of MEM, WB and ID/EX supplies it, an operand is the
architectural register. -/
theorem BackRel.fwd {ld : Nat → Word} {t : Tracked} {q : Machine} (h : BackRel ld t q)
    {rs : BitVec 5} {data : Word} (hd : Operand t.core rs data) (hl : ¬ LoadHazard t.core rs) :
    t.core.fwd rs data = readReg q.regs rs := by
  unfold Core.fwd readReg
  simp only [Core.fwdMem_iff, Core.fwdWb_iff]
  by_cases hrs : rs = 0#5
  · subst hrs
    rw [if_neg (fun h => h.2.1 h.2.2.symm), if_neg (fun h => h.2.1 h.2.2.symm), if_pos rfl]
    exact hd.zero rfl
  rw [if_neg hrs, ← h.regs, Tracked.archRegs, regfileWrite_apply, Core.nextRegs, regfileWrite_apply]
  split_ifs with hm hw
  · -- MEM owes the register: not a load, or `load_use` would have held the reader back
    have hsel : t.core.exMem.wbSel ≠ 1#2 := fun hs => hl ⟨h.memLoad hm.1 hs, hm.2.1, hm.2.2.symm⟩
    rw [Tracked.memData, if_neg hsel]
  · rfl
  · exact hd.regs hrs (by rwa [← Bool.not_eq_true, Core.fwdWb_iff])

section Ex

variable {P : Params} {ld : Nat → Word} {t : Tracked} {q : Machine} {i : CoreIn}

theorem Rel.fwdRs1 (h : Rel P ld t q) (hv : t.exValid = true) : t.core.fwdRs1 = q.rs1 P := by
  have hc := h.captured hv
  rw [Core.fwdRs1, h.fwd hc.rs1 hc.noHazard1, hc.idEx]
  rfl

theorem Rel.fwdRs2 (h : Rel P ld t q) (hv : t.exValid = true) : t.core.fwdRs2 = q.rs2 P := by
  have hc := h.captured hv
  rw [Core.fwdRs2, h.fwd hc.rs2 hc.noHazard2, hc.idEx]
  rfl

theorem Rel.aluResult (h : Rel P ld t q) (hv : t.exValid = true) :
    t.core.aluResult = q.aluResult P := by
  rw [Core.aluResult, Core.aluA, Core.aluB, h.fwdRs1 hv, h.fwdRs2 hv, (h.captured hv).idEx]
  rfl

theorem Rel.branchTaken (h : Rel P ld t q) (hv : t.exValid = true) :
    t.core.branchTaken = branchCmp (q.rs1 P) (q.rs2 P) (q.dec P).funct3 := by
  rw [Core.branchTaken, h.fwdRs1 hv, h.fwdRs2 hv, (h.captured hv).idEx]
  rfl

theorem Rel.csrAccess (h : Rel P ld t q) (hv : t.exValid = true) :
    t.core.csrAccess = q.csrAccess P := by
  rw [Core.csrAccess, Core.csrWdata, h.fwdRs1 hv, (h.captured hv).idEx]
  rfl

theorem Rel.syncTrap (h : Rel P ld t q) (hv : t.exValid = true) :
    t.core.syncTrap = q.syncTrap P := by
  rw [Core.syncTrap, Core.csrIllegal, h.csrAccess hv, (h.captured hv).idEx]
  rfl

/-- With no interrupt taken, the instruction in EX traps iff it faults. -/
theorem Rel.trap (h : Rel P ld t q) (hv : t.exValid = true) (hn : t.core.takeInterrupt i = false) :
    t.core.trap i = q.syncTrap P := by
  rw [Core.trap, hn, Bool.or_false, h.syncTrap hv]

theorem Rel.trapCause (h : Rel P ld t q) (hv : t.exValid = true)
    (hn : t.core.takeInterrupt i = false) : t.core.trapCause i = q.trapCause P := by
  rw [Core.trapCause, hn, h.csr, (h.captured hv).idEx]
  rfl

theorem Rel.nextCsr (h : Rel P ld t q) (hv : t.exValid = true) (hs : i.busStall = false)
    (hn : t.core.takeInterrupt i = false) : t.core.nextCsr i true = q.csrAfter P i.timerIrq := by
  rw [Core.nextCsr, h.csrAccess hv, h.trap hv hn, h.trapCause hv hn, h.csr, (h.captured hv).idEx,
    Csr.step, hs]
  rfl

theorem Rel.nextExMem (h : Rel P ld t q) (hv : t.exValid = true) (hs : i.busStall = false)
    (hn : t.core.takeInterrupt i = false) :
    t.core.nextExMem i true =
      { regWe := (q.dec P).regWe && !q.syncTrap P
        memWe := (q.dec P).memWe && !q.syncTrap P
        memRe := (q.dec P).memRe && !q.syncTrap P
        aluResult := q.aluResult P
        rs2Data := q.rs2 P
        pcPlus4 := q.pc + 4
        csrRdata := q.csr.csrRdata i.timerIrq (q.csrAccess P).csrAddr
        rdAddr := (q.dec P).rdAddr
        funct3 := (q.dec P).funct3
        wbSel := (q.dec P).wbSel
        pc := q.pc
        instr := q.instr P } := by
  rw [Core.nextExMem, Core.regWeFinal, Core.memWeFinal, Core.csrRdata, h.trap hv hn, h.aluResult hv,
    h.fwdRs2 hv, h.csrAccess hv, h.csr, (h.captured hv).idEx, hs]
  rfl

/-- EX redirects exactly where the sequential machine leaves the straight line. -/
theorem Rel.redirect (h : Rel P ld t q) (hv : t.exValid = true)
    (hn : t.core.takeInterrupt i = false) :
    q.nextPc P = if t.core.pcRedirect i then t.core.pcTarget i else q.pc + 4 := by
  have hc := (h.captured hv).idEx
  have hmret : t.core.idEx.isMret = (q.dec P).isMret := congrArg IdEx.isMret hc
  have hjal : t.core.idEx.isJal = (q.dec P).isJal := congrArg IdEx.isJal hc
  have hjalr : t.core.idEx.isJalr = (q.dec P).isJalr := congrArg IdEx.isJalr hc
  have hbr : t.core.idEx.isBranch = (q.dec P).isBranch := congrArg IdEx.isBranch hc
  have hpc := (h.captured hv).pc_instr.1
  have himm : t.core.idEx.imm = q.imm P := congrArg IdEx.imm hc
  rw [Core.pcRedirect, Core.pcTarget, h.trap hv hn, h.branchTaken hv, h.aluResult hv, h.csr,
    hmret, hjal, hjalr, hbr, hpc, himm, Machine.nextPc]
  cases q.syncTrap P <;> cases (q.dec P).isMret <;> cases (q.dec P).isJalr <;>
    cases (q.dec P).isJal <;> simp

/-! ### Slots without a program instruction -/

/-- A slot without a program instruction faults in no way. -/
theorem Idle.syncTrap {s : Core} (h : Idle s.idEx) : s.syncTrap = false := by
  have hc : s.csrIllegal = false := (CsrAccess.idle (a := s.csrAccess) h.csrRe h.csrWe).1
  rw [Core.syncTrap, h.illegal, h.isEcall, hc]
  rfl

theorem Idle.pcRedirect {s : Core} (h : Idle s.idEx) (hn : s.takeInterrupt i = false) :
    s.pcRedirect i = false := by
  rw [Core.pcRedirect, Core.trap, h.syncTrap, hn, h.isMret, h.isJal, h.isJalr, h.isBranch]
  rfl

theorem Idle.nextCsr {s : Core} (h : Idle s.idEx) (hs : i.busStall = false)
    (hn : s.takeInterrupt i = false) : s.nextCsr i true = s.csr := by
  have hw : s.csrAccess.doWrite = false := (CsrAccess.idle (a := s.csrAccess) h.csrRe h.csrWe).2
  rw [Core.nextCsr, Csr.step, Csr.update, Core.trap, h.syncTrap, hn, h.isMret, hw, hs]
  rfl

/-! ### The interrupt -/

theorem Core.nextCsr_interrupt {s : Core} (hs : i.busStall = false)
    (hi : s.takeInterrupt i = true) :
    s.nextCsr i true = s.csr.trapEntry s.idEx.pc 0x80000007 := by
  rw [Core.nextCsr, Csr.step, Csr.update, Core.trap, Core.trapCause, hi, hs]
  simp

theorem Core.redirect_interrupt {s : Core} (hi : s.takeInterrupt i = true) :
    s.pcRedirect i = true ∧ s.pcTarget i = s.csr.mtvec := by
  simp [Core.pcRedirect, Core.pcTarget, Core.trap, hi]

/-- No register write and no request of the interrupted slot gets past EX. -/
theorem Core.nextExMem_interrupt {s : Core} (hs : i.busStall = false)
    (hi : s.takeInterrupt i = true) :
    (s.nextExMem i true).regWe = false ∧ (s.nextExMem i true).memWe = false ∧
      (s.nextExMem i true).memRe = false := by
  simp [Core.nextExMem, Core.regWeFinal, Core.memWeFinal, Core.trap, hi, hs]

/-- An interrupt is taken only on an unstalled cycle, with `MIE` set. -/
theorem Core.takeInterrupt_elim {s : Core} (hi : s.takeInterrupt i = true) :
    i.busStall = false ∧ s.csr.mstatusMie = true ∧ s.syncTrap = false := by
  simp only [takeInterrupt, Csr.interruptPending, Bool.and_eq_true, Bool.not_eq_true'] at hi
  exact ⟨hi.2, hi.1.1.1.1, hi.1.2⟩

end Ex

/-! ## One cycle -/

/-- The load leaving MEM gets the response the sequential machine was given. -/
def Responds (ld : Nat → Word) (t : Tracked) (i : CoreIn) : Prop :=
  i.busStall = false → t.core.exMem.memRe = true → i.memRdata = ld t.loads

section Cycle

variable {P : Params} {ld : Nat → Word} {t : Tracked} {q q' : Machine} {i : CoreIn}

theorem Tracked.step_stall (hs : i.busStall = true) :
    t.step P i = { t with core := { t.core with regs := t.core.nextRegs } } := by
  rw [Tracked.step, Core.step_stall hs]
  simp [hs]

/-- **Stalled cycle.**  WB's write is repeated; nothing else moves. -/
theorem Rel.step_stall (h : Rel P ld t q) (hs : i.busStall = true) : Rel P ld (t.step P i) q := by
  rw [Tracked.step_stall hs]
  have hop : ∀ rs data, Operand t.core rs data →
      Operand { t.core with regs := t.core.nextRegs } rs data := by
    intro rs data hd
    refine ⟨hd.zero, fun hrs hw => ?_⟩
    have hw' : ¬ t.core.fwdWb rs = true := by rw [Bool.not_eq_true]; exact hw
    rw [Core.fwdWb_iff] at hw'
    show data = t.core.nextRegs rs
    rw [hd.regs hrs hw, Core.nextRegs, regfileWrite_apply,
      if_neg (fun e => hw' ⟨e.1, e.2.1, e.2.2⟩)]
  refine { h with regs := ?_, captured := fun hv => ?_ }
  · rw [← h.regs]
    simp only [Tracked.archRegs, Core.nextRegs, regfileWrite_idem]
    rfl
  · have hc := h.captured hv
    exact { hc with rs1 := hop _ _ hc.rs1, rs2 := hop _ _ hc.rs2 }

/-- After an unstalled edge, the register file with WB's write done is the architectural
one of before: what was in MEM is in WB, with its load response. -/
theorem BackRel.nextRegs (h : BackRel ld t q) (hs : i.busStall = false) (hok : Responds ld t i) :
    (t.step P i).core.nextRegs = q.regs := by
  rw [← h.regs, Tracked.archRegs, Tracked.step, Core.nextRegs, (Core.step_back P t.core i).2.1,
    (Core.step_back P t.core i).2.2.1]
  have hwb : t.core.nextMemWb i true =
      { regWe := t.core.exMem.regWe, aluResult := t.core.exMem.aluResult
        pcPlus4 := t.core.exMem.pcPlus4, csrRdata := t.core.exMem.csrRdata, rdata := i.memRdata
        rdAddr := t.core.exMem.rdAddr, wbSel := t.core.exMem.wbSel, pc := t.core.exMem.pc
        instr := t.core.exMem.instr } := by
    rw [Core.nextMemWb, hs]; rfl
  rw [hwb]
  cases hwe : t.core.exMem.regWe with
  | false => rfl
  | true =>
    congr 1
    by_cases hsel : t.core.exMem.wbSel = 1#2
    · rw [Tracked.memData, if_pos hsel, ← hok hs (h.memLoad hwe hsel)]
      simp [MemWb.wbData, hsel]
    · rw [Tracked.memData, if_neg hsel]
      simp [MemWb.wbData, ExMem.wbValue, hsel]

theorem BackRel.nextLoads (h : BackRel ld t q) (hs : i.busStall = false) :
    (t.step P i).loads = q.loads := by
  rw [h.loads, Tracked.step, hs]
  cases t.core.exMem.memRe <;> rfl

/-- The value a program instruction takes from EX to write back. -/
theorem Rel.memData_exec (h : Rel P ld t q) (hv : t.exValid = true) (hs : i.busStall = false)
    (hn : t.core.takeInterrupt i = false) :
    (t.step P i).memData ld = q.wbData P ld i.timerIrq := by
  have hm : (t.step P i).core.exMem = _ := h.nextExMem hv hs hn
  rw [Tracked.memData, h.nextLoads hs, hm, Machine.wbData]
  simp only [ExMem.wbValue]
  split_ifs <;> simp_all

/-- The back end after a program instruction has left EX. -/
theorem Rel.back_exec (h : Rel P ld t q) (hok : Responds ld t i) (hv : t.exValid = true)
    (hs : i.busStall = false) (hn : t.core.takeInterrupt i = false) :
    BackRel ld (t.step P i) (q.exec P ld i.timerIrq) := by
  have hm : (t.step P i).core.exMem = _ := h.nextExMem hv hs hn
  refine ⟨h.nextCsr hv hs hn, ?_, ?_, ?_, ?_⟩
  · rw [Tracked.archRegs, h.memData_exec hv hs hn, h.nextRegs hs hok, hm]
    rfl
  · rw [h.nextLoads hs, hm]
    rfl
  · simp only [hm, Bool.and_eq_true]
    exact fun hwe hsel => ⟨(decoder_wbSel_eq_one _).1 hsel, hwe.2⟩
  · simp only [hm, Bool.and_eq_true]
    exact fun hre => (decoder_wbSel_eq_one _).2 hre.1

/-- The back end after a slot that writes nothing has left EX. -/
theorem BackRel.bubble (h : BackRel ld t q) (hok : Responds ld t i) (hs : i.busStall = false)
    (hwe : (t.core.nextExMem i true).regWe = true →
      (t.core.nextExMem i true).rdAddr = 0#5 ∧ (t.core.nextExMem i true).wbSel = 0#2)
    (hre : (t.core.nextExMem i true).memRe = false) (hcsr : t.core.nextCsr i true = q'.csr)
    (hregs : q'.regs = q.regs) (hloads : q'.loads = q.loads) :
    BackRel ld (t.step P i) q' := by
  have hm : (t.step P i).core.exMem = t.core.nextExMem i true := rfl
  refine ⟨hcsr, ?_, ?_, ?_, ?_⟩
  · rw [Tracked.archRegs, h.nextRegs hs hok, hm, hregs]
    funext r
    rw [regfileWrite_apply, if_neg]
    rintro ⟨h1, h2, -⟩
    exact h2 (hwe h1).1
  · rw [h.nextLoads hs, hm, hre, hloads]
    rfl
  · rw [hm]
    intro h1 h2
    rw [(hwe h1).2] at h2
    exact absurd h2 (by decide)
  · rw [hm, hre]
    intro h1
    cases h1

theorem IdEx.bubble_idle (e : IdEx) (pc : Word) : Idle (e.bubble pc) :=
  ⟨nofun, rfl, rfl, rfl, rfl, rfl, rfl, rfl, rfl, rfl, rfl⟩

/-- The nop of `if_id_valid = 0`, captured. -/
theorem IdEx.capture_nop_idle (pc d1 d2 : Word) :
    Idle (IdEx.capture pc nop (decoder nop) (immgen nop) d1 d2) :=
  ⟨fun _ => ⟨rfl, rfl⟩, rfl, rfl, rfl, rfl, rfl, rfl, rfl, rfl, rfl, rfl⟩

/-- An operand as captured: the read port has already seen the write in WB. -/
theorem Operand.of_read {s : Core} {rs : BitVec 5} {data : Word}
    (h : data = readReg s.regs rs) : Operand s rs data := by
  unfold readReg at h
  exact ⟨fun hz => by rw [h, if_pos hz], fun hz _ => by rw [h, if_neg hz]⟩

/-- ID/EX captures the program instruction in ID, its operands read through the bypass; the
absence of `load_use` is what keeps it clear of a load in MEM. -/
theorem Core.captured_advance {s : Core} {pc : Word} (hs : i.busStall = false)
    (hr : s.pcRedirect i = false) (hl : s.loadUse = false) (hv : s.ifIdValid = true)
    (hpc : s.ifIdPc = pc) (hi : s.instr = P.fetch pc) : Captured P (s.step P i) pc := by
  have hid : s.idInstr = P.fetch pc := by rw [idInstr, hv, ← hi]; rfl
  have hz : ∀ rs, rs = s.dec.rs1Addr ∨ rs = s.dec.rs2Addr → ¬ LoadHazard (s.step P i) rs := by
    rintro rs hrs ⟨hre, hne, rfl⟩
    simp only [(step_back P s i).1, nextExMem, hs, Bool.not_true, Bool.false_eq_true, if_false,
      Bool.and_eq_true] at hre hne hrs
    simp only [loadUse, hre.1, Bool.true_and, Bool.and_eq_false_iff, Bool.or_eq_false_iff,
      bne_eq_false_iff_eq, beq_eq_false_iff_ne] at hl
    rcases hl with hl | hl
    · exact hne hl
    · exact hrs.elim hl.1 hl.2
  rw [step_advance hs hr hl] at hz ⊢
  refine ⟨?_, .of_read ?_, .of_read ?_, hz _ (.inl rfl), hz _ (.inr rfl)⟩
  · show IdEx.capture s.ifIdPc s.idInstr s.dec s.imm s.rs1Data s.rs2Data = _
    rw [hpc, dec, imm, hid]
    rfl
  · exact regfileRead_eq _ _ _ _ _
  · exact regfileRead_eq _ _ _ _ _

/-- **Front end**, one unstalled cycle: if `q'` is at the redirect target, or at the
instruction that follows EX when there is no redirect, the stages follow. -/
theorem FrontRel.step (h : FrontRel P t q) (hs : i.busStall = false)
    (hr : t.core.pcRedirect i = true → q'.pc = t.core.pcTarget i)
    (hn : t.core.pcRedirect i = false → q'.pc = t.followPc q)
    (hq : t.exValid = false → t.core.pcRedirect i = false → q' = q) :
    FrontRel P (t.step P i) q' := by
  cases hred : t.core.pcRedirect i with
  | true =>
    have hc : (t.step P i).core = _ := Core.step_flush hs hred
    have hv : (t.step P i).exValid = false := by simp [Tracked.step, hs, hred]
    have hpc := (hr hred).symm
    refine ⟨?_, ?_, ?_, ?_, ?_, ?_⟩ <;> rw [hc] <;> try rw [hv]
    · exact nofun
    · exact fun _ => IdEx.bubble_idle _ _
    · exact fun _ _ => hpc
    · exact nofun
    · exact fun _ => ⟨rfl, hpc⟩
    · exact fun _ _ => hpc
  | false =>
    have hpc := hn hred
    cases hlu : t.core.loadUse with
    | true =>
      -- only a program load stalls, and what follows it in IF/ID is held
      have hex : t.exValid = true := by
        by_contra hex
        have := (h.idle (by simpa using hex)).memRe
        simp [Core.loadUse, this] at hlu
      have hif : t.core.ifIdValid = true := by
        by_contra hif
        rw [(h.empty (by simpa using hif)).1] at hex
        cases hex
      obtain ⟨hf1, hf2, hf3⟩ := h.fetched hif
      have hc : (t.step P i).core = _ := Core.step_loadUse hs hred hlu
      have hv : (t.step P i).exValid = false := by simp [Tracked.step, hs, hred, hlu]
      have hfol : (t.step P i).followPc q' = t.followPc q := by
        rw [Tracked.followPc, hv, ← hpc]; rfl
      refine ⟨?_, ?_, ?_, ?_, ?_, ?_⟩ <;> rw [hc] <;> try rw [hv]
      · exact nofun
      · exact fun _ => IdEx.bubble_idle _ _
      · exact fun _ _ => hf1.trans hpc.symm
      · exact fun _ => by rw [hfol]; exact ⟨hf1, hf2, hf3⟩
      · exact fun hf => by rw [show t.core.ifIdValid = false from hf] at hif; cases hif
      · exact fun hf => by rw [show t.core.ifIdValid = false from hf] at hif; cases hif
    | false =>
      have hc : (t.step P i).core = _ := Core.step_advance hs hred hlu
      have hv : (t.step P i).exValid = t.core.ifIdValid := by simp [Tracked.step, hs, hred, hlu]
      cases hif : t.core.ifIdValid with
      | true =>
        obtain ⟨hf1, hf2, hf3⟩ := h.fetched hif
        rw [hif] at hv
        have hcap := Core.captured_advance (P := P) hs hred hlu hif (hf1.trans hpc.symm)
          (by rw [hf2, hpc])
        have hfol : (t.step P i).followPc q' = t.core.pc := by
          rw [Tracked.followPc, hv, hpc, hf3]; rfl
        refine ⟨fun _ => hcap, ?_, ?_, ?_, ?_, ?_⟩ <;> rw [hc] <;> try rw [hv]
        · exact nofun
        · exact nofun
        · exact fun _ => by rw [hfol]; exact ⟨rfl, rfl, rfl⟩
        · exact nofun
        · exact nofun
      | false =>
        obtain ⟨hex, he⟩ := h.empty hif
        rw [hif] at hv
        have hqq := hq hex hred
        subst hqq
        have hfol : (t.step P i).followPc q' = t.core.pc := by
          rw [Tracked.followPc, hv, he]; rfl
        have hnop : t.core.idInstr = nop := by rw [Core.idInstr, hif]; rfl
        refine ⟨?_, ?_, ?_, ?_, ?_, ?_⟩ <;> rw [hc] <;> try rw [hv]
        · exact nofun
        · exact fun _ => by
            rw [Core.dec, Core.imm, hnop]; exact IdEx.capture_nop_idle _ _ _
        · exact fun _ hm => h.emptyPc hif hm
        · exact fun _ => by rw [hfol]; exact ⟨rfl, rfl, rfl⟩
        · exact nofun
        · exact nofun

/-- **Program instruction.**  It leaves EX and the sequential machine executes it. -/
theorem Rel.step_exec (h : Rel P ld t q) (hok : Responds ld t i) (hv : t.exValid = true)
    (hs : i.busStall = false) (hn : t.core.takeInterrupt i = false) :
    Rel P ld (t.step P i) (q.exec P ld i.timerIrq) := by
  have hpc := h.redirect hv hn
  refine { h.back_exec hok hv hs hn, h.toFrontRel.step hs ?_ ?_ ?_ with }
  · intro hr
    rw [if_pos hr] at hpc
    exact hpc
  · intro hr
    rw [hr] at hpc
    rw [Tracked.followPc, if_pos hv]
    exact hpc
  · intro hx
    rw [hv] at hx
    cases hx

/-- The PC in EX is that of the next program instruction whenever interrupts are enabled. -/
theorem FrontRel.idEx_pc (h : FrontRel P t q) (hm : q.csr.mstatusMie = true) :
    t.core.idEx.pc = q.pc := by
  cases hv : t.exValid with
  | true => exact (h.captured hv).pc_instr.1
  | false => exact h.idlePc hv hm

/-- **Interrupt.**  Whatever EX holds, the sequential machine takes it before the
instruction at `q.pc`. -/
theorem Rel.step_interrupt (h : Rel P ld t q) (hok : Responds ld t i)
    (hi : t.core.takeInterrupt i = true) : Rel P ld (t.step P i) q.interrupt := by
  obtain ⟨hs, hm, -⟩ := Core.takeInterrupt_elim hi
  obtain ⟨hwe, -, hre⟩ := Core.nextExMem_interrupt hs hi
  obtain ⟨hr, ht⟩ := Core.redirect_interrupt hi
  rw [h.csr] at hm
  have hcsr : t.core.nextCsr i true = q.interrupt.csr := by
    rw [Core.nextCsr_interrupt hs hi, h.csr, h.idEx_pc hm]
    rfl
  refine { h.bubble hok hs ?_ hre hcsr rfl rfl, h.toFrontRel.step hs ?_ ?_ ?_ with }
  · rw [hwe]
    exact nofun
  · intro _
    rw [ht, h.csr]
    rfl
  · rw [hr]
    exact nofun
  · rw [hr]
    exact fun _ => nofun

/-- **No instruction.**  The slot passes and nothing happens. -/
theorem Rel.step_idle (h : Rel P ld t q) (hok : Responds ld t i) (hv : t.exValid = false)
    (hs : i.busStall = false) (hn : t.core.takeInterrupt i = false) :
    Rel P ld (t.step P i) q := by
  have hidle := h.idle hv
  have hr := hidle.pcRedirect hn
  have hre : (t.core.nextExMem i true).memRe = false := by
    simp [Core.nextExMem, hs, hidle.memRe]
  refine { h.bubble hok hs ?_ hre ((hidle.nextCsr hs hn).trans h.csr) rfl rfl,
    h.toFrontRel.step hs ?_ ?_ ?_ with }
  · simp only [Core.nextExMem, Core.regWeFinal, hs, Bool.not_true, Bool.false_eq_true, if_false,
      Bool.and_eq_true]
    exact fun hwe => hidle.regWe hwe.1
  · rw [hr]
    exact fun h => absurd h Bool.false_ne_true
  · intro _
    rw [Tracked.followPc, hv]
    rfl
  · exact fun _ _ => rfl

end Cycle

/-- The sequential machine that a reset edge starts: WB's write of that edge is still done. -/
def Machine.reset (P : Params) (s : Core) : Machine where
  pc := P.resetPc
  regs := s.nextRegs
  csr := Csr.reset
  loads := 0

theorem Rel.reset (P : Params) (ld : Nat → Word) (s : Core) (i : CoreIn) :
    Rel P ld (Tracked.reset P s i) (Machine.reset P s) where
  csr := rfl
  regs := rfl
  loads := rfl
  memLoad := nofun
  loadMem := nofun
  captured := nofun
  idle := fun _ => ⟨nofun, rfl, rfl, rfl, rfl, rfl, rfl, rfl, rfl, rfl, rfl⟩
  idlePc := fun _ => nofun
  fetched := nofun
  empty := fun _ => ⟨rfl, rfl⟩
  emptyPc := fun _ => nofun

/-- **The simulation.** -/
theorem Tracked.sim (P : Params) (ld : Nat → Word) :
    Sync.Sim (Tracked.step P) (Machine.step P ld) (Responds ld) Tracked.schedule (Rel P ld) where
  step t q i h hok := by
    unfold Tracked.schedule
    cases hs : i.busStall with
    | true => exact h.step_stall hs
    | false =>
      cases hi : t.core.takeInterrupt i with
      | true => exact h.step_interrupt hok hi
      | false =>
        cases hv : t.exValid with
        | true => exact h.step_exec hok hv hs hi
        | false => exact h.step_idle hok hv hs hi

end Rv32i

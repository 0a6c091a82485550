import Rv32iCore.Core.IsaCorrect
import Rv32iCore.Core.Memory
import Rv32iCore.Spec.IsaMachine

/-!
# The pipeline against the machine of the ISA

One instruction in EX does what the ISA says; the pipeline refines `MemMachine`.  Here the two meet:
on words that conform, `MemMachine` and the machine of the ISA take the same steps, so the pipeline
refines the latter too.

    conforms            the words on which `core` is an RV32I machine
    CoreMem.Rel.isa     one cycle
-/

namespace Rv32i

open Isa hiding Word
open Sync

/-- The words on which `core` does what the ISA says, but for two checks that neither it nor
`IsaMachine` makes: the target of a jump or taken branch may be misaligned (`Isa.executeChecked`),
and U-mode may use any CSR and `mret`.  Not among them: `core` gives `ebreak` the cause of `ecall`,
drops what is written to `mhartid`, and takes some reserved words for others. -/
def conforms (w : Word) : Bool :=
  match decode w with
  | some .ebreak => false
  | some (.csr op _ src csr) => csr != csrMhartid || !op.writes src
  | some _ => true
  | none => w == mretWord || exceptionCause true w == some 2

/-! ## Traps -/

theorem exceptionCause_csr (privM : Bool) (op : CsrOp) (rd : Reg) (src : CsrSrc) (csr : BitVec 12) :
    exceptionCause privM (encode (.csr op rd src csr)) =
      if csrUnknown csr then some 2 else none := by
  obtain ⟨hop, -, hf, -, hcsr⟩ := iType_fields (op.funct3 src) 0b1110011#7 rd src.field csr
  generalize hw : encode (.csr op rd src csr) = w
  rw [show iType (op.funct3 src) 0b1110011#7 rd src.field csr = w from hw] at hop hf hcsr
  have h0 : w.extractLsb 14 12 ≠ 0b000#3 := by
    rw [hf]
    exact op.funct3_ne_zero src
  have h4 : w.extractLsb 14 12 ≠ 0b100#3 := by
    rw [hf]
    cases op <;> cases src <;> simp [CsrOp.funct3]
  have hk : w.extractLsb 6 0 ∈ knownOpcodes := by
    rw [hop]
    decide
  have hs : ¬ w.extractLsb 6 0 ≠ opSystem := not_not.2 hop
  rw [← hcsr, exceptionCause, if_neg (not_not.2 hk), if_neg hs, if_neg h0, if_neg h4]

/-- The trap that an instruction raises; `ebreak` apart. -/
theorem exceptionCause_encode (privM : Bool) (i : Instr) (h : i ≠ .ebreak) :
    exceptionCause privM (encode i) =
      match i with
      | .ecall => some (if privM then 11 else 8)
      | .csr _ _ _ csr => if csrUnknown csr then some 2 else none
      | _ => none := by
  cases i with
  | lui rd imm | auipc rd imm =>
    exact exceptionCause_known (uType_fields _ rd imm).1 (by decide) (by decide)
  | jal rd offset =>
    exact exceptionCause_known (jType_fields _ rd _).1 (by decide) (by decide)
  | jalr rd rs1 imm | load op rd rs1 imm | opImm op rd rs1 imm | fence rd rs1 imm =>
    exact exceptionCause_known (iType_fields _ _ rd rs1 imm).1 (by decide) (by decide)
  | branch op rs1 rs2 offset =>
    exact exceptionCause_known (bType_fields _ _ rs1 rs2 _).1 (by decide) (by decide)
  | store op rs1 rs2 imm =>
    exact exceptionCause_known (sType_fields _ _ rs1 rs2 imm).1 (by decide) (by decide)
  | shiftImm op rd rs1 shamt =>
    exact exceptionCause_known (rType_fields _ _ _ rd rs1 shamt).1 (by decide) (by decide)
  | op op rd rs1 rs2 =>
    exact exceptionCause_known (rType_fields _ _ _ rd rs1 rs2).1 (by decide) (by decide)
  | ecall => cases privM <;> rfl
  | ebreak => exact absurd rfl h
  | csr op rd src csr => exact exceptionCause_csr privM op rd src csr

/-- Of the causes, only that of `ecall` depends on the mode. -/
theorem exceptionCause_illegal {privM : Bool} {w : Word} (h : exceptionCause true w = some 2) :
    exceptionCause privM w = some 2 := by
  cases privM with
  | true => exact h
  | false =>
    unfold exceptionCause at h ⊢
    dsimp only at h ⊢
    split_ifs at h ⊢ <;> first | exact h | exact absurd h (by decide)

/-- On words that conform, the ISA's traps are those of the core. -/
theorem trapCause_of_conforms {P : Params} {s : MemMachine} (h : conforms (P.fetch s.cpu.pc) = true) :
    IsaMachine.trapCause P s = exceptionCause s.cpu.csr.privM (P.fetch s.cpu.pc) := by
  unfold IsaMachine.trapCause conforms at *
  rw [IsaMachine.instr]
  generalize P.fetch s.cpu.pc = w at h ⊢
  cases hd : decode w with
  | some i =>
    rw [hd] at h
    rw [← encode_decode hd, exceptionCause_encode _ i (by rintro rfl; cases h)]
    cases i <;> first | rfl | cases h
  | none =>
    rw [hd] at h
    simp only [Bool.or_eq_true, beq_iff_eq] at h
    by_cases hm : w = mretWord
    · rw [if_pos hm, hm]
      cases s.cpu.csr.privM <;> rfl
    · rw [if_neg hm, exceptionCause_illegal (h.resolve_left hm)]

namespace Machine

variable (P : Params) (q : Machine)

theorem exceptionCause_eq : exceptionCause q.csr.privM (q.instr P) =
    if q.syncTrap P then some (q.trapCause P) else none :=
  decoder_exception q.csr.privM (q.instr P) (q.csrAccess P).csrWdata

end Machine

/-! ## Sources -/

theorem iType_rs1 (funct3 : BitVec 3) (opcode : BitVec 7) (rd rs1 : Reg) (imm : BitVec 12) :
    (iType funct3 opcode rd rs1 imm).extractLsb 19 15 = rs1 :=
  (iType_fields funct3 opcode rd rs1 imm).2.2.2.1

/-- An instruction depends on the registers that it names. -/
theorem execute_sources (pc : Word) (regs : BitVec 5 → Word) (csrs : BitVec 12 → Word) (i : Instr) :
    execute pc (readReg regs ((encode i).extractLsb 19 15))
        (readReg regs ((encode i).extractLsb 24 20)) csrs i =
      execute pc (readReg regs i.rs1) (readReg regs i.rs2) csrs i := by
  cases i with
  | lui rd imm | auipc rd imm | jal rd offset | fence rd rs1 imm | ecall | ebreak => rfl
  | jalr rd rs1 imm | load op rd rs1 imm | opImm op rd rs1 imm =>
    simp only [encode, execute, Instr.rs1, iType_rs1]
  | branch op rs1 rs2 offset =>
    obtain ⟨hrs1, hrs2⟩ := bType_regs op.funct3 0b1100011 rs1 rs2 (offset ++ 0#1)
    simp only [encode, execute, Instr.rs1, Instr.rs2, hrs1, hrs2]
    rfl
  | store op rs1 rs2 imm =>
    obtain ⟨hrs1, hrs2⟩ := sType_regs op.funct3 0b0100011 rs1 rs2 imm
    simp only [encode, execute, Instr.rs1, Instr.rs2, hrs1, hrs2]
  | shiftImm op rd rs1 shamt =>
    have hrs1 := (rType_regs op.op.funct7 op.op.funct3 0b0010011 rd rs1 shamt).1
    simp only [encode, execute, Instr.rs1, hrs1]
  | op op rd rs1 rs2 =>
    obtain ⟨hrs1, hrs2, -⟩ := rType_regs op.funct7 op.funct3 0b0110011 rd rs1 rs2
    simp only [encode, execute, Instr.rs1, Instr.rs2, hrs1, hrs2]
  | csr op rd src csr =>
    cases src with
    | reg rs1 => simp only [encode, execute, Instr.rs1, CsrSrc.field, iType_rs1]
    | imm uimm => rfl

/-! ## `mhartid` -/

/-- A CSR instruction that only reads, on any CSR that `csr` knows. -/
theorem Core.computes_csrRead {P : Params} {s : Core} {i : CoreIn} {pc w : Word} (op : CsrOp)
    (src : CsrSrc) (csr : BitVec 12) (hx : s.Executing pc w) (hs : i.busStall = false)
    (hi : s.takeInterrupt i = false) (hop : w.extractLsb 6 0 = 0b1110011#7)
    (hf : w.extractLsb 14 12 = op.funct3 src) (hsrc : w.extractLsb 19 15 = src.field)
    (hcsr : w.extractLsb 31 20 = csr) (hknown : csrUnknown csr = false)
    (hread : op.writes src = false) :
    s.Computes P i { Effect.nothing with
      rd := writeRd (w.extractLsb 11 7) (.value (s.csr.csrRdata i.timerIrq csr)) } := by
  obtain ⟨rs1Data, rs2Data, he⟩ := hx
  have hsys : decoder w = Rv32i.decodeSystem w := by simp only [decoder, hop]; rfl
  obtain ⟨hill, hec, hmr, hrw, hmre, hmwe, hbr, hjal, hjalr, hsel, hrd, -, -, -, hwe⟩ :=
    decodeSystem_csrOp op src hf hsrc
  rw [hsys] at he
  have haddr : s.csrAccess.csrAddr = csr := by rw [← hcsr, csrAccess, he]; rfl
  have hlegal : s.csrAccess.csrIllegal = false := by
    rw [CsrAccess.csrIllegal, haddr]
    simp only [csrUnknown] at hknown
    split_ifs <;> simp_all
  have hdo : s.csrAccess.doWrite = false := by
    rw [CsrAccess.doWrite, csrAccess, he]
    simp [IdEx.capture, hwe, hread]
  have hold : s.csrRdata i = s.csr.csrRdata i.timerIrq csr := by rw [csrRdata, haddr]
  have ht : s.trap i = false := by
    simp [trap, syncTrap, csrIllegal, hlegal, hi, he, IdEx.capture, hill, hec]
  apply computes_of_noTrap hs ht
  case hm => rw [he]; exact hmr
  case hrd => simp [exRd, he, IdEx.capture, hrw, hrd, hsel, hold, writeRd]
  case ha => simp [exReq, he, IdEx.capture, hmre, hmwe, Effect.nothing, MemReq.Performs]
  case hr => simp [exRedirect, he, IdEx.capture, hjal, hjalr, hbr, Effect.nothing]
  case hte => rfl
  case hw => exact hdo
  case hc =>
    simp [nextCsr, Csr.step, Csr.update, hs, ht, hdo, he, IdEx.capture, hmr, Effect.nothing]

theorem decode_of_system {w : Word} (hop : w.extractLsb 6 0 = opSystem) :
    decode w = Isa.decodeSystem w := by
  simp [decode, formats, hop, opSystem]

/-- With a function code, a SYSTEM word is a CSR instruction. -/
theorem decode_csr {w : Word} {i : Instr} (h : decode w = some i)
    (hop : w.extractLsb 6 0 = opSystem) (hf : w.extractLsb 14 12 ≠ 0b000#3) :
    ∃ op rd src csr, i = .csr op rd src csr := by
  rw [decode_of_system hop, Isa.decodeSystem, if_neg (by rintro rfl; exact hf rfl),
    if_neg (by rintro rfl; exact hf rfl)] at h
  obtain ⟨op, -, rfl⟩ := find_map h
  exact ⟨op, _, _, _, rfl⟩

/-- The instruction in EX has the effect that the ISA gives it. -/
theorem Core.execute_conforms {P : Params} {s : Core} {j : CoreIn} {pc w : Word} {i : Instr}
    (hx : s.Executing pc w) (hs : j.busStall = false) (hi : s.takeInterrupt j = false)
    (hd : decode w = some i) (hc : conforms w = true) (hn : exceptionCause s.csr.privM w = none) :
    s.Computes P j (execute pc s.fwdRs1 s.fwdRs2 (s.csr.csrRdata j.timerIrq) i) := by
  have hw := encode_decode hd
  by_cases hk : csrKnown w = true
  · subst hw
    exact execute_correct hx hs hi hk
  · simp only [csrKnown, Bool.or_eq_true, not_or, bne_iff_ne, ne_eq, not_not, beq_iff_eq] at hk
    obtain ⟨⟨hop, hf⟩, hk⟩ := hk
    obtain ⟨op, rd, src, csr, rfl⟩ := decode_csr hd hop hf
    obtain ⟨hop, hrd, hf, hsrc, hcsr⟩ := iType_fields (op.funct3 src) 0b1110011#7 rd src.field csr
    rw [show iType (op.funct3 src) 0b1110011#7 rd src.field csr = w from hw]
      at hop hrd hf hsrc hcsr
    have hknown : csrUnknown csr = false := by
      rw [← hw, exceptionCause_csr] at hn
      by_contra hne
      rw [if_pos (Bool.eq_true_of_not_eq_false hne)] at hn
      cases hn
    have hhartid : csr = csrMhartid := by
      rw [hcsr, hknown] at hk
      simpa using hk
    have hread : op.writes src = false := by
      rw [conforms, hd, hhartid] at hc
      simpa using hc
    have h := computes_csrRead (P := P) op src csr hx hs hi hop hf hsrc hcsr hknown hread
    rw [hrd] at h
    simpa [execute, hread, Effect.nothing] using h

/-! ## `mret` -/

theorem decoder_isMret (w : Word) : (decoder w).isMret = true →
    w.extractLsb 6 0 = opSystem ∧ w.extractLsb 14 12 = 0b000#3 ∧ w.extractLsb 31 20 = 0x302#12 := by
  fun_cases decoder w
  case case11 hop =>
    fun_cases Rv32i.decodeSystem w <;> simp_all +zetaDelta [decoderDefaults, opSystem]
  all_goals
    intro h
    cases h

/-- `mret` is not of the user-level ISA. -/
theorem decode_mret {w : Word} (h : (decoder w).isMret = true) : decode w = none := by
  obtain ⟨hop, hf, hf12⟩ := decoder_isMret w h
  rw [decode_of_system hop, Isa.decodeSystem,
    if_neg (by rintro rfl; exact absurd hf12 (by decide)),
    if_neg (by rintro rfl; exact absurd hf12 (by decide)), Option.map_eq_none_iff, List.find?_eq_none]
  intro op _
  rw [hf, beq_iff_eq]
  exact op.funct3_ne_zero _

/-- On words that conform, the decoder's `mret` is that of the ISA. -/
theorem isMret_of_conforms {privM : Bool} {w : Word} (hc : conforms w = true)
    (hn : exceptionCause privM w = none) : (decoder w).isMret = (w == mretWord) := by
  by_cases hm : w = mretWord
  · subst hm
    rfl
  · rw [beq_false_of_ne hm]
    by_contra h
    rw [conforms, decode_mret (Bool.eq_true_of_not_eq_false h), beq_false_of_ne hm, Bool.false_or,
      beq_iff_eq] at hc
    rw [exceptionCause_illegal hc] at hn
    cases hn

/-! ## An instruction that does not trap -/

attribute [ext] Machine MemMachine

/-- The instruction at `pc` has the effect `e`. -/
structure Machine.Does (P : Params) (ld : Nat → Word) (q : Machine) (timerIrq : Bool) (e : Effect) :
    Prop where
  noTrap : q.syncTrap P = false
  pc : q.nextPc P = e.redirect.getD (q.pc + 4)
  csr : q.csrAfter P timerIrq = e.csr.elim q.csr fun (csr, v) => q.csr.write csr v
  rd : (if (q.dec P).regWe && (q.dec P).rdAddr != 0#5 then
      some ((q.dec P).rdAddr, q.wbData P ld timerIrq) else none) =
    e.rd.map fun (rd, v) => (rd, v.get (ld q.loads))
  access : (q.memReq P).Performs e.access

section Cycle

variable {P : Params} {ld : Nat → Word} {t : Tracked} {q : Machine} {i : CoreIn} {e : Effect}

/-- What EX computes is what the sequential machine does. -/
theorem Rel.does (h : Rel P ld t q) (hv : t.exValid = true) (hs : i.busStall = false)
    (hn : t.core.takeInterrupt i = false) (hc : t.core.Computes P i e) (he : e.traps = false) :
    q.Does P ld i.timerIrq e := by
  have hexMem : (t.core.step P i).exMem = _ := h.nextExMem hv hs hn
  have hnoTrap : q.syncTrap P = false := by rw [← h.trap hv hn, hc.traps, he]
  rw [hnoTrap] at hexMem
  simp only [Bool.not_false, Bool.and_true] at hexMem
  refine ⟨hnoTrap, ?_, ?_, ?_, ?_⟩
  · rw [h.redirect hv hn, ← hc.redirect]
    split_ifs <;> rfl
  · rw [← h.nextCsr hv hs hn, ← h.csr]
    exact hc.csr he
  · have hrd := hc.rd (ld q.loads)
    have hdata := h.memData_exec hv hs hn
    rw [Tracked.memData, h.nextLoads hs] at hdata
    rw [← hrd, ← hdata, ExMem.rdWrite, show (t.step P i).core = t.core.step P i from rfl, hexMem]
  · have haccess := hc.access
    rw [Core.memReq, hexMem] at haccess
    exact haccess

variable {M : MemMap} {s : MemMachine} {timerIrq : Bool}

theorem MemReq.size_load (m : MemReq) (op : LoadOp) (h : m.size = op.size) : m.size ≠ 0 := by
  rw [h]
  cases op <;> decide

/-- The load gets the value that the ISA gives it. -/
theorem Machine.Does.loaded (h : s.cpu.Does P (s.ld P M) timerIrq e) {op : LoadOp} {addr : Word}
    (ha : e.access = some (.load op addr)) :
    M.loaded s.cpu.loads s.bytes (s.cpu.memReq P) = IsaMachine.loaded M s e := by
  have haccess := h.access
  rw [ha] at haccess
  obtain ⟨-, -, -, hsize, hvalue⟩ := haccess
  rw [MemMap.loaded, MemReq.value, if_neg (MemReq.size_load _ op hsize), hvalue, IsaMachine.loaded, ha]

namespace Machine.Does

theorem value (h : s.cpu.Does P (s.ld P M) timerIrq e) (hl : e.Loads) {rd : Reg} {v : RdValue}
    (hrd : e.rd = some (rd, v)) :
    v.get (s.ld P M s.cpu.loads) = v.get (IsaMachine.loaded M s e) := by
  cases v with
  | value v => rfl
  | loaded =>
    obtain ⟨op, addr, ha⟩ := hl rd hrd
    exact h.loaded ha

theorem regs (h : s.cpu.Does P (s.ld P M) timerIrq e) (hl : e.Loads) :
    (s.cpu.exec P (s.ld P M) timerIrq).regs = (IsaMachine.apply M s e).cpu.regs := by
  have hrd := h.rd
  show regfileWrite s.cpu.regs ((s.cpu.dec P).regWe && !s.cpu.syncTrap P) _ _ =
    e.rd.elim s.cpu.regs fun (rd, v) =>
      Function.update s.cpu.regs rd (v.get (IsaMachine.loaded M s e))
  rw [h.noTrap, Bool.not_false, Bool.and_true, regfileWrite]
  cases he : e.rd with
  | none =>
    rw [he, Option.map_none] at hrd
    split_ifs at hrd ⊢
    rfl
  | some x =>
    obtain ⟨rd, v⟩ := x
    rw [he, Option.map_some] at hrd
    dsimp only at hrd
    rw [h.value hl he] at hrd
    split_ifs at hrd ⊢
    obtain ⟨hreg, hvalue⟩ := Prod.mk.inj (Option.some.inj hrd)
    rw [hreg, hvalue]
    rfl

theorem loads (h : s.cpu.Does P (s.ld P M) timerIrq e) :
    (s.cpu.exec P (s.ld P M) timerIrq).loads = IsaMachine.loads s e := by
  have haccess := h.access
  show s.cpu.loads + ((s.cpu.dec P).memRe && !s.cpu.syncTrap P).toNat = _
  have hre : (s.cpu.memReq P).re = (s.cpu.dec P).memRe := rfl
  rw [h.noTrap, Bool.not_false, Bool.and_true, ← hre, IsaMachine.loads]
  match he : e.access with
  | none =>
    rw [he] at haccess
    rw [haccess.1]
    rfl
  | some (.load op addr) =>
    rw [he] at haccess
    rw [haccess.1]
    rfl
  | some (.store size addr data) =>
    rw [he] at haccess
    rw [haccess.1]
    rfl

/-- The machine makes the access, if there is one. -/
theorem memReqs (h : s.cpu.Does P (s.ld P M) timerIrq e) :
    s.cpu.memReqs P (.exec timerIrq) = if e.access.isSome then [s.cpu.memReq P] else [] := by
  have haccess := h.access
  show (if ((s.cpu.memReq P).re || (s.cpu.memReq P).we) && !s.cpu.syncTrap P then
    [s.cpu.memReq P] else []) = _
  rw [h.noTrap]
  match he : e.access with
  | none =>
    rw [he] at haccess
    rw [haccess.1, haccess.2]
    rfl
  | some (.load op addr) =>
    rw [he] at haccess
    rw [haccess.1]
    rfl
  | some (.store size addr data) =>
    rw [he] at haccess
    rw [haccess.2.1, Bool.or_true]
    rfl

theorem bytes (h : s.cpu.Does P (s.ld P M) timerIrq e) :
    (MemMachine.step P M s (.exec timerIrq)).bytes = IsaMachine.stored s e := by
  have haccess := h.access
  show run ByteMachine.step s.bytes (s.cpu.memReqs P (.exec timerIrq)) = _
  rw [h.memReqs, IsaMachine.stored]
  match he : e.access with
  | none => rfl
  | some (.load op addr) =>
    rw [he] at haccess
    show ByteMachine.step s.bytes (s.cpu.memReq P) = s.bytes
    rw [ByteMachine.step, haccess.2.1]
    rfl
  | some (.store size addr data) =>
    rw [he] at haccess
    obtain ⟨-, hwe, haddr, hsize, hdata⟩ := haccess
    show ByteMachine.step s.bytes (s.cpu.memReq P) = Bytes.storeBytes s.bytes addr size data
    rw [ByteMachine.step_store hwe, haddr, hsize, hdata]

theorem step (h : s.cpu.Does P (s.ld P M) timerIrq e) (hl : e.Loads) :
    MemMachine.step P M s (.exec timerIrq) = IsaMachine.apply M s e := by
  have hcpu : s.cpu.exec P (s.ld P M) timerIrq = (IsaMachine.apply M s e).cpu := by
    have hpc : (s.cpu.exec P (s.ld P M) timerIrq).pc = (IsaMachine.apply M s e).cpu.pc := h.pc
    have hcsr : (s.cpu.exec P (s.ld P M) timerIrq).csr = (IsaMachine.apply M s e).cpu.csr := h.csr
    have hloads : (s.cpu.exec P (s.ld P M) timerIrq).loads = (IsaMachine.apply M s e).cpu.loads :=
      h.loads
    exact Machine.ext hpc (h.regs hl) hcsr hloads
  exact MemMachine.ext hcpu h.bytes

end Machine.Does

end Cycle

/-! ## One step -/

/-- On this step the two machines agree. -/
structure IsaStep (P : Params) (M : MemMap) (s : MemMachine) (e : Event) : Prop where
  step : MemMachine.step P M s e = IsaMachine.step P M s e
  executed : MemMachine.executed P s e = IsaMachine.executed P M s e
  accesses : List.Forall₂ (fun m a => m.Performs (some a)) (MemMachine.memReqs P s e)
    (IsaMachine.accesses P s e)
  retired : MemMachine.retired P M s e = IsaMachine.retired P M s e

section Step

variable {P : Params} {M : MemMap} {s : MemMachine} {timerIrq : Bool}

theorem IsaStep.interrupt : IsaStep P M s .interrupt := ⟨rfl, rfl, .nil, rfl⟩

/-- The ISA's trap is the machine's. -/
theorem isa_trapCause (hc : conforms (s.cpu.instr P) = true) :
    IsaMachine.trapCause P s = if s.cpu.syncTrap P then some (s.cpu.trapCause P) else none :=
  (trapCause_of_conforms hc).trans (s.cpu.exceptionCause_eq P)

theorem isa_executed (hc : conforms (s.cpu.instr P) = true)
    (hstep : MemMachine.step P M s (.exec timerIrq) = IsaMachine.step P M s (.exec timerIrq)) :
    MemMachine.executed P s (.exec timerIrq) = IsaMachine.executed P M s (.exec timerIrq) := by
  have hexec : MemMachine.step P M s (.exec timerIrq) = IsaMachine.exec P M s timerIrq := hstep
  have hmret : ((s.cpu.dec P).isMret && !s.cpu.syncTrap P) = (s.cpu.instr P == mretWord) := by
    have hcause := s.cpu.exceptionCause_eq P
    cases ht : s.cpu.syncTrap P with
    | false =>
      rw [ht] at hcause
      rw [Bool.not_false, Bool.and_true]
      exact isMret_of_conforms hc hcause
    | true =>
      rw [ht] at hcause
      rw [Bool.not_true, Bool.and_false]
      refine (beq_false_of_ne fun hm => ?_).symm
      rw [hm] at hcause
      cases hp : s.cpu.csr.privM <;> rw [hp] at hcause <;> cases hcause
  show [_] = [_]
  rw [isa_trapCause hc, ← hexec, hmret]
  rfl

theorem IsaStep.trap (hc : conforms (s.cpu.instr P) = true) (ht : s.cpu.syncTrap P = true) :
    IsaStep P M s (.exec timerIrq) := by
  have hcause := isa_trapCause hc
  rw [ht] at hcause
  have hreqs : s.cpu.memReqs P (.exec timerIrq) = [] := by
    show (if _ && !s.cpu.syncTrap P then _ else _) = _
    rw [ht, Bool.not_true, Bool.and_false]
    rfl
  have hstep : MemMachine.step P M s (.exec timerIrq) = IsaMachine.step P M s (.exec timerIrq) := by
    show (⟨s.cpu.exec P _ timerIrq, run ByteMachine.step s.bytes (s.cpu.memReqs P (.exec timerIrq))⟩ :
      MemMachine) = IsaMachine.exec P M s timerIrq
    rw [IsaMachine.exec, hcause, hreqs]
    simp [Machine.exec, Machine.nextPc, Machine.csrAfter, Csr.update, regfileWrite, ht]
  refine ⟨hstep, isa_executed hc hstep, ?_, ?_⟩
  · show List.Forall₂ _ (s.cpu.memReqs P (.exec timerIrq)) _
    rw [hreqs, IsaMachine.accesses, hcause]
    exact .nil
  · rw [IsaMachine.retired, hcause]
    simp [MemMachine.retired, Machine.retired, ht]

theorem IsaStep.mret (hm : s.cpu.instr P = mretWord) : IsaStep P M s (.exec timerIrq) := by
  have hc : conforms (s.cpu.instr P) = true := by rw [hm]; rfl
  have hcause : IsaMachine.trapCause P s = none := by
    rw [trapCause_of_conforms hc, show P.fetch s.cpu.pc = mretWord from hm]
    cases s.cpu.csr.privM <;> rfl
  have ht : s.cpu.syncTrap P = false := by
    have h := (isa_trapCause hc).symm.trans hcause
    by_contra hne
    rw [if_pos (Bool.eq_true_of_not_eq_false hne)] at h
    cases h
  have hdec : s.cpu.dec P = decoder mretWord := by rw [Machine.dec, hm]
  have heffect : IsaMachine.effect P s timerIrq = .nothing := by
    rw [IsaMachine.effect, show IsaMachine.instr P s = mretWord from hm]
    rfl
  have hreqs : s.cpu.memReqs P (.exec timerIrq) = [] := by
    rw [Machine.memReqs, hdec]
    rfl
  have hstep : MemMachine.step P M s (.exec timerIrq) = IsaMachine.step P M s (.exec timerIrq) := by
    show (⟨s.cpu.exec P _ timerIrq, run ByteMachine.step s.bytes (s.cpu.memReqs P (.exec timerIrq))⟩ :
      MemMachine) = IsaMachine.exec P M s timerIrq
    rw [IsaMachine.exec, hcause, hreqs]
    dsimp only
    rw [if_pos (show IsaMachine.instr P s = mretWord from hm), Machine.exec, Machine.nextPc,
      Machine.csrAfter, ht, hdec]
    rfl
  refine ⟨hstep, isa_executed hc hstep, ?_, ?_⟩
  · show List.Forall₂ _ (s.cpu.memReqs P (.exec timerIrq)) _
    rw [hreqs, IsaMachine.accesses, hcause, heffect]
    exact .nil
  · rw [IsaMachine.retired, hcause, heffect]
    show s.cpu.retired P _ (.exec timerIrq) = _
    rw [Machine.retired, hdec]
    rfl

theorem IsaStep.instr {i : Instr} (hc : conforms (s.cpu.instr P) = true)
    (hd : decode (s.cpu.instr P) = some i)
    (h : s.cpu.Does P (s.ld P M) timerIrq (IsaMachine.effect P s timerIrq)) :
    IsaStep P M s (.exec timerIrq) := by
  have hcause : IsaMachine.trapCause P s = none := by
    rw [isa_trapCause hc, h.noTrap]
    rfl
  have hm : ¬ IsaMachine.instr P s = mretWord := by
    intro hm
    rw [show s.cpu.instr P = mretWord from hm] at hd
    cases hd
  have hl : (IsaMachine.effect P s timerIrq).Loads := by
    rw [IsaMachine.effect, show decode (IsaMachine.instr P s) = some i from hd]
    exact execute_loads _ _ _ _ _
  have hstep : MemMachine.step P M s (.exec timerIrq) = IsaMachine.step P M s (.exec timerIrq) := by
    rw [h.step hl, IsaMachine.step, IsaMachine.exec, hcause]
    exact (if_neg hm).symm
  refine ⟨hstep, isa_executed hc hstep, ?_, ?_⟩
  · have haccess := h.access
    show List.Forall₂ _ (s.cpu.memReqs P (.exec timerIrq)) _
    rw [h.memReqs, IsaMachine.accesses, hcause]
    cases he : (IsaMachine.effect P s timerIrq).access with
    | none => exact .nil
    | some a =>
      rw [he] at haccess
      exact .cons haccess .nil
  · have hrd := h.rd
    rw [IsaMachine.retired, hcause]
    show (if (s.cpu.dec P).regWe && !s.cpu.syncTrap P && (s.cpu.dec P).rdAddr != 0#5 then _ else _) =
      (IsaMachine.effect P s timerIrq).rd.toList.map _
    rw [h.noTrap, Bool.not_false, Bool.and_true]
    cases he : (IsaMachine.effect P s timerIrq).rd with
    | none =>
      rw [he, Option.map_none] at hrd
      split_ifs at hrd ⊢
      rfl
    | some x =>
      obtain ⟨rd, v⟩ := x
      rw [he, Option.map_some] at hrd
      dsimp only at hrd
      rw [h.value hl he] at hrd
      split_ifs at hrd ⊢
      obtain ⟨hreg, hvalue⟩ := Prod.mk.inj (Option.some.inj hrd)
      rw [hreg, hvalue]
      rfl

end Step

/-! ## The pipeline -/

theorem Machine.Does.congr {P : Params} {ld ld' : Nat → Word} {q : Machine} {timerIrq : Bool}
    {e : Effect} (h : q.Does P ld timerIrq e) (hld : ld' q.loads = ld q.loads) :
    q.Does P ld' timerIrq e where
  noTrap := h.noTrap
  pc := h.pc
  csr := h.csr
  rd := by
    rw [Machine.wbData_congr hld, hld]
    exact h.rd
  access := h.access

/-- The effect that EX computes is that of the machine of the ISA. -/
theorem Rel.effect {P : Params} {ld : Nat → Word} {t : Tracked} {s : MemMachine} {timerIrq : Bool}
    {i : Instr} (h : Rel P ld t s.cpu) (hv : t.exValid = true) (hd : decode (s.cpu.instr P) = some i) :
    IsaMachine.effect P s timerIrq =
      execute s.cpu.pc t.core.fwdRs1 t.core.fwdRs2 (t.core.csr.csrRdata timerIrq) i := by
  obtain ⟨hrs1, hrs2⟩ := decoder_rsAddr (s.cpu.instr P)
  rw [IsaMachine.effect, show decode (IsaMachine.instr P s) = some i from hd, h.fwdRs1 hv, h.fwdRs2 hv,
    Machine.rs1, Machine.rs2, Machine.dec, hrs1, hrs2, ← encode_decode hd, execute_sources, h.csr]

/-- In each cycle the machine of the ISA takes the step that the pipeline schedules. -/
theorem CoreMem.Rel.isa {P : Params} {M : MemMap} {t : CoreMem} {s : MemMachine} {i : CoreIn}
    (h : CoreMem.Rel P M t s) (hc : ∀ x ∈ t.core.executed i, conforms x.instr = true) :
    ∀ e ∈ t.core.schedule i, IsaStep P M s e := by
  intro e he
  unfold Tracked.schedule at he
  split_ifs at he with hs hi hv
  · cases he
  · obtain rfl := List.mem_singleton.1 he
    exact .interrupt
  · obtain rfl := List.mem_singleton.1 he
    have hs : i.busStall = false := Bool.eq_false_of_not_eq_true hs
    have hi : t.core.core.takeInterrupt i = false := Bool.eq_false_of_not_eq_true hi
    have hcap := h.cpu.captured hv
    have hw : conforms (s.cpu.instr P) = true := by
      have hleaves : t.core.leavesEx i = true := by simp [Tracked.leavesEx, hs, hi, hv]
      rw [Tracked.executed, if_pos hleaves] at hc
      have hx := hc _ (List.mem_singleton_self _)
      rwa [hcap.pc_instr.2] at hx
    cases ht : s.cpu.syncTrap P with
    | true => exact .trap hw ht
    | false =>
      have hnone := s.cpu.exceptionCause_eq P
      rw [ht] at hnone
      cases hd : decode (s.cpu.instr P) with
      | none =>
        refine .mret ?_
        rw [conforms, hd, Bool.or_eq_true, beq_iff_eq, beq_iff_eq] at hw
        refine hw.resolve_right fun h2 => ?_
        rw [exceptionCause_illegal h2] at hnone
        cases hnone
      | some instr =>
        refine .instr hw hd ?_
        have hx : t.core.core.Executing s.cpu.pc (s.cpu.instr P) := ⟨_, _, hcap.idEx⟩
        rw [← h.cpu.csr] at hnone
        have hcomp := Core.execute_conforms (P := P) hx hs hi hd hw hnone
        rw [← h.cpu.effect hv hd] at hcomp
        have hnoTraps : (IsaMachine.effect P s i.timerIrq).traps = false := by
          rw [← hcomp.traps, h.cpu.trap hv hi, ht]
        exact (h.both.does hv hs hi hcomp hnoTraps).congr h.ldBoth_next.symm
  · cases he

end Rv32i

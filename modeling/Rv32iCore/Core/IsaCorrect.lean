import Rv32iCore.Spec.Isa
import Rv32iCore.Spec.WordMemory
import Rv32iCore.Core.Exceptions

/-!
# One instruction in EX does what the ISA says

The path through `decoder`, `immgen`, the operand muxes, `alu`, `branch_cmp`, `pc_target` and the
instruction side of `csr`, for every word of RV32I and Zicsr.  `Core.Computes` compares an
unstalled edge with an effect of `Isa.execute`: what WB is to write, what MEM is to request, where
the front end goes, whether the instruction traps and what it leaves in the CSRs.

    immgen_encode          the immediate that the format scatters over the word
    alu_op, branchCmp_op   the units on the `funct` codes
    instruction_correct    all of it
-/

namespace Rv32i

open Isa hiding Word

/-! ## `immgen` against the formats -/

theorem append_pad {m k n l : Nat} {y : BitVec m} {a : BitVec k} {x : BitVec n}
    (h : ∀ i, y.getLsbD i = (a ++ x).getLsbD i) (z : BitVec l) (i : Nat) :
    (y ++ z).getLsbD i = (a ++ (x ++ z)).getLsbD i := by
  rw [BitVec.getLsbD_append, h]
  simp only [BitVec.getLsbD_append]
  by_cases hi : i < l
  · simp only [if_pos hi, if_pos (show i < n + l by omega)]
  · rw [if_neg hi, if_neg hi]
    by_cases hn : i - l < n
    · rw [if_pos hn, if_pos (by omega)]
    · rw [if_neg hn, if_neg (by omega)]
      congr 1
      omega

/-- A bit vector under copies of its top bit is sign-extended. -/
theorem eq_signExtend_of_pad {n k : Nat} {s : BitVec 1} {x : BitVec n} {y : Word} (hk : k + n = 32)
    (hs : s.getLsbD 0 = x.msb) (hy : ∀ i, y.getLsbD i = (s.replicate k ++ x).getLsbD i) :
    y = x.signExtend 32 := by
  apply BitVec.eq_of_getLsbD_eq
  intro i hi
  rw [hy, BitVec.getLsbD_signExtend, BitVec.getLsbD_append, BitVec.getLsbD_replicate, Nat.one_mul,
    Nat.mod_one, hs, decide_eq_true hi, Bool.true_and]
  by_cases h : i < n
  · rw [if_pos h, if_pos h]
  · rw [if_neg h, if_neg h, decide_eq_true (show i - n < k by omega), Bool.true_and]

theorem msb_append_of_pos {m n : Nat} (x : BitVec (m + 1)) (y : BitVec n) : (x ++ y).msb = x.msb := by
  rw [BitVec.msb_append, if_neg (Nat.succ_ne_zero m)]

/-- Bit 31 of a word is the top bit of a field that ends there. -/
theorem sign_eq_msb (w : Word) (lo n : Nat) (h : lo + (n + 1) = 32) :
    (w.extractLsb 31 31).getLsbD 0 = (w.extractLsb' lo (n + 1)).msb := by
  rw [BitVec.msb_eq_getLsbD_last, BitVec.extractLsb, BitVec.getLsbD_extractLsb',
    BitVec.getLsbD_extractLsb', show lo + (n + 1 - 1) = 31 + 0 by omega]
  simp

variable (w : Word)

theorem immgen_u (h : w.extractLsb 6 0 = 0b0110111#7 ∨ w.extractLsb 6 0 = 0b0010111#7) :
    immgen w = immU (w.extractLsb 31 12) := if_pos h

theorem immgen_j (h : w.extractLsb 6 0 = 0b1101111#7) :
    immgen w = immJ (w.extractLsb 31 31 ++ w.extractLsb 19 12 ++ w.extractLsb 20 20 ++
      w.extractLsb 30 21) := by
  have hw : immgen w = (w.extractLsb 31 31).replicate 11 ++ w.extractLsb 31 31 ++
      w.extractLsb 19 12 ++ w.extractLsb 20 20 ++ w.extractLsb 30 21 ++ 0#1 := by
    simp only [immgen, h]
    rfl
  rw [hw]
  refine eq_signExtend_of_pad (k := 11) (s := w.extractLsb 31 31) rfl ?_
    (append_pad (append_pad (append_pad (append_pad (fun _ => rfl) _) _) _) _)
  simp only [msb_append_of_pos]
  rfl

theorem immgen_b (h : w.extractLsb 6 0 = 0b1100011#7) :
    immgen w = immB (w.extractLsb 31 31 ++ w.extractLsb 7 7 ++ w.extractLsb 30 25 ++
      w.extractLsb 11 8) := by
  have hw : immgen w = (w.extractLsb 31 31).replicate 19 ++ w.extractLsb 31 31 ++
      w.extractLsb 7 7 ++ w.extractLsb 30 25 ++ w.extractLsb 11 8 ++ 0#1 := by
    simp only [immgen, h]
    rfl
  rw [hw]
  refine eq_signExtend_of_pad (k := 19) (s := w.extractLsb 31 31) rfl ?_
    (append_pad (append_pad (append_pad (append_pad (fun _ => rfl) _) _) _) _)
  simp only [msb_append_of_pos]
  rfl

theorem immgen_s (h : w.extractLsb 6 0 = 0b0100011#7) :
    immgen w = immI (w.extractLsb 31 25 ++ w.extractLsb 11 7) := by
  have hw : immgen w = (w.extractLsb 31 31).replicate 20 ++ w.extractLsb 31 25 ++ w.extractLsb 11 7 := by
    simp only [immgen, h]
    rfl
  rw [hw]
  refine eq_signExtend_of_pad (k := 20) (s := w.extractLsb 31 31) rfl ?_
    (append_pad (fun _ => rfl) _)
  rw [msb_append_of_pos]
  exact sign_eq_msb w 25 6 rfl

theorem immgen_i (h : w.extractLsb 6 0 = 0b1100111#7 ∨ w.extractLsb 6 0 = 0b0000011#7 ∨
      w.extractLsb 6 0 = 0b0010011#7 ∨ w.extractLsb 6 0 = 0b0001111#7 ∨
      w.extractLsb 6 0 = 0b1110011#7) :
    immgen w = immI (w.extractLsb 31 20) := by
  have hw : immgen w = (w.extractLsb 31 31).replicate 20 ++ w.extractLsb 31 20 := by
    rcases h with h | h | h | h | h <;> simp only [immgen, h] <;> rfl
  rw [hw]
  exact eq_signExtend_of_pad (k := 20) rfl (sign_eq_msb w 20 11 rfl) (fun _ => rfl)

/-- Dropping the low zero of an offset. -/
theorem extractLsb'_append_zero {n : Nat} (x : BitVec n) : (x ++ 0#1).extractLsb' 1 n = x := by
  rw [BitVec.extractLsb'_append_eq_of_le (Nat.le_refl 1), Nat.sub_self, BitVec.extractLsb'_eq_self]

/-- `immgen` gives back the immediate of every instruction that has one. -/
theorem immgen_encode (i : Instr) (v : Word) (hv : i.imm = some v) : immgen (encode i) = v := by
  cases i <;> simp only [Instr.imm, Option.some.injEq, reduceCtorEq] at hv <;> subst hv
  case lui rd imm =>
    obtain ⟨hop, -, himm⟩ := uType_fields 0b0110111 rd imm
    exact (immgen_u _ (.inl hop)).trans (congrArg immU himm)
  case auipc rd imm =>
    obtain ⟨hop, -, himm⟩ := uType_fields 0b0010111 rd imm
    exact (immgen_u _ (.inr hop)).trans (congrArg immU himm)
  case jal rd offset =>
    obtain ⟨hop, -, himm⟩ := jType_fields 0b1101111 rd (offset ++ 0#1)
    exact (immgen_j _ hop).trans (congrArg immJ (himm.trans (extractLsb'_append_zero offset)))
  case branch op rs1 rs2 offset =>
    obtain ⟨hop, -, himm⟩ := bType_fields op.funct3 0b1100011 rs1 rs2 (offset ++ 0#1)
    exact (immgen_b _ hop).trans (congrArg immB (himm.trans (extractLsb'_append_zero offset)))
  case store op rs1 rs2 imm =>
    obtain ⟨hop, -, himm⟩ := sType_fields op.funct3 0b0100011 rs1 rs2 imm
    exact (immgen_s _ hop).trans (congrArg immI himm)
  case jalr rd rs1 imm =>
    obtain ⟨hop, -, -, -, himm⟩ := iType_fields 0b000 0b1100111 rd rs1 imm
    exact (immgen_i _ (.inl hop)).trans (congrArg immI himm)
  case load op rd rs1 imm =>
    obtain ⟨hop, -, -, -, himm⟩ := iType_fields op.funct3 0b0000011 rd rs1 imm
    exact (immgen_i _ (.inr (.inl hop))).trans (congrArg immI himm)
  case opImm op rd rs1 imm =>
    obtain ⟨hop, -, -, -, himm⟩ := iType_fields op.op.funct3 0b0010011 rd rs1 imm
    exact (immgen_i _ (.inr (.inr (.inl hop)))).trans (congrArg immI himm)

/-! ## `alu`, `branch_cmp` and the extension of a load, on the function codes -/

theorem toNat_shamt (b : Word) : (b.extractLsb 4 0).toNat = b.toNat % 32 := by
  rw [BitVec.extractLsb_toNat]
  rfl

/-- `{instr[30], funct3}` is the operation of an OP word. -/
theorem alu_op (op : Op) (a b : Word) :
    alu a b (op.funct7.extractLsb 5 5 ++ op.funct3) = op.eval a b := by
  cases op with
  | sll =>
    show a <<< (b.extractLsb 4 0).toNat = a <<< (b.toNat % 32)
    rw [toNat_shamt]
  | srl =>
    show a >>> (b.extractLsb 4 0).toNat = a >>> (b.toNat % 32)
    rw [toNat_shamt]
  | sra =>
    show a.sshiftRight (b.extractLsb 4 0).toNat = a.sshiftRight (b.toNat % 32)
    rw [toNat_shamt]
  | slt =>
    show (if decide (a.toInt < b.toInt) = true then 1 else 0) =
      if a.toInt < b.toInt then (1 : Word) else 0
    simp only [decide_eq_true_eq]
  | add | sub | sltu | xor | or | and => rfl

/-- Without bit 30, that of an OP-IMM word, shifts apart. -/
theorem alu_immOp (op : ImmOp) (a b : Word) : alu a b (0#1 ++ op.op.funct3) = op.op.eval a b := by
  have h := alu_op op.op a b
  cases op <;> exact h

/-- A shift reads the low five bits of its operand. -/
theorem eval_shiftOp (op : ShiftOp) (a : Word) {b c : Word} (h : b.extractLsb 4 0 = c.extractLsb 4 0) :
    op.op.eval a b = op.op.eval a c := by
  have h' : b.toNat % 32 = c.toNat % 32 := by rw [← toNat_shamt, ← toNat_shamt, h]
  cases op <;> simp only [ShiftOp.op, Op.eval, h']

/-- Those of an I immediate are where the shift amount stands. -/
theorem extract_immI (funct7 : BitVec 7) (shamt : BitVec 5) :
    (immI (funct7 ++ shamt)).extractLsb 4 0 = (shamt.zeroExtend 32 : Word).extractLsb 4 0 := by
  apply BitVec.eq_of_getLsbD_eq
  intro i hi
  have h5 : i < 5 := hi
  simp only [immI, BitVec.extractLsb, BitVec.getLsbD_extractLsb', BitVec.getLsbD_signExtend,
    BitVec.getLsbD_append, BitVec.getLsbD_setWidth, Nat.zero_add, h5, show i < 7 + 5 by omega, if_true]

theorem branchCmp_op (op : BranchOp) (a b : Word) : branchCmp a b op.funct3 = op.taken a b := by
  cases op with
  | ne =>
    show (!decide (a = b)) = decide (a ≠ b)
    rw [decide_not]
  | ge =>
    show (!decide (a.toInt < b.toInt)) = decide (b.toInt ≤ a.toInt)
    rw [← decide_not, decide_eq_decide, Int.not_lt]
  | geu =>
    show (!decide (a.toNat < b.toNat)) = decide (b.toNat ≤ a.toNat)
    rw [← decide_not, decide_eq_decide, Nat.not_lt]
  | eq | lt | ltu => rfl

theorem loadValue_op (op : LoadOp) (bytes : Word → BitVec 8) (a : Word) :
    loadValue bytes a op.funct3 = op.value bytes a := by
  cases op <;> rfl

/-! ## What one instruction is to do -/

/-- The CSRs that are plain 32-bit registers. -/
inductive FullCsr where
  | mtvec | mscratch | mepc | mcause
deriving DecidableEq

def FullCsr.addr : FullCsr → BitVec 12
  | .mtvec => csrMtvec
  | .mscratch => csrMscratch
  | .mepc => csrMepc
  | .mcause => csrMcause

namespace Csr

/-- The value of such a register. -/
def full (c : Csr) : FullCsr → Word
  | .mtvec => c.mtvec
  | .mscratch => c.mscratch
  | .mepc => c.mepc
  | .mcause => c.mcause

/-- That register replaced. -/
def setFull (c : Csr) (v : Word) : FullCsr → Csr
  | .mtvec => { c with mtvec := v }
  | .mscratch => { c with mscratch := v }
  | .mepc => { c with mepc := v }
  | .mcause => { c with mcause := v }

theorem csrRdata_full (c : Csr) (timerIrq : Bool) (csr : FullCsr) :
    c.csrRdata timerIrq csr.addr = c.full csr := by
  cases csr <;> rfl

theorem write_full (c : Csr) (v : Word) (csr : FullCsr) : c.write csr.addr v = c.setFull v csr := by
  cases csr <;> rfl

end Csr

/-- What WB is to write for an instruction in MEM, given the value on `mem_rdata`. -/
def ExMem.rdWrite (m : ExMem) (memRdata : Word) : Option (BitVec 5 × Word) :=
  if m.regWe && m.rdAddr != 0#5 then
    some (m.rdAddr, if m.wbSel = 0b01#2 then memRdata else m.wbValue)
  else none

/-- The request is for this access. -/
def MemReq.Performs (m : MemReq) : Option Access → Prop
  | none => m.re = false ∧ m.we = false
  | some (.load op addr) =>
    m.re = true ∧ m.we = false ∧ m.addr = addr ∧ m.size = op.size ∧
      ∀ bytes, loadValue bytes m.addr m.funct3 = op.value bytes addr
  | some (.store size addr data) =>
    m.re = false ∧ m.we = true ∧ m.addr = addr ∧ m.size = size ∧ m.wdata = data

/-- An unstalled edge has the effect `e` for the instruction in EX. -/
structure Core.Computes (P : Params) (s : Core) (i : CoreIn) (e : Effect) : Prop where
  rd : ∀ memRdata, (s.step P i).exMem.rdWrite memRdata = e.rd.map fun (rd, v) => (rd, v.get memRdata)
  access : (s.step P i).memReq.Performs e.access
  redirect : (if s.pcRedirect i then some (s.pcTarget i) else none) = e.redirect
  traps : s.trap i = e.traps
  /-- whether a CSR instruction writes -/
  csrWrite : s.csrAccess.doWrite = e.csr.isSome
  /-- and what it gives the CSR; a trap leaves its own values -/
  csr : e.traps = false → (s.step P i).csr = e.csr.elim s.csr fun (csr, v) => s.csr.write csr v

/-- WB writes what `rdWrite` says of the instruction that leaves MEM. -/
theorem Core.nextRegs_step (P : Params) (s : Core) {i : CoreIn} (hs : i.busStall = false) :
    (s.step P i).nextRegs =
      (s.exMem.rdWrite i.memRdata).elim s.nextRegs fun (rd, v) => Function.update s.nextRegs rd v := by
  have hwb : (s.step P i).memWb.wbData =
      if s.exMem.wbSel = 0b01#2 then i.memRdata else s.exMem.wbValue := by
    simp only [Core.step, Core.edge, Core.nextMemWb, hs, MemWb.wbData, ExMem.wbValue]
    split_ifs <;> simp_all
  have hm : (s.step P i).memWb.regWe = s.exMem.regWe ∧ (s.step P i).memWb.rdAddr = s.exMem.rdAddr := by
    simp [Core.step, Core.edge, Core.nextMemWb, hs]
  rw [Core.nextRegs, hwb, hm.1, hm.2, regfileWrite, ExMem.rdWrite]
  split_ifs <;> rfl

/-! ## An instruction that does not trap -/

section Executing

variable {P : Params} {s : Core} {i : CoreIn} {e : Effect}

/-- What the instruction in EX has for its destination. -/
def Core.exRd (s : Core) (i : CoreIn) : Option (BitVec 5 × RdValue) :=
  if s.idEx.regWe && s.idEx.rdAddr != 0#5 then
    some (s.idEx.rdAddr,
      if s.idEx.wbSel = 0b01#2 then .loaded
      else if s.idEx.wbSel = 0b11#2 then .value (s.csrRdata i)
      else if s.idEx.wbSel = 0b10#2 then .value s.idEx.pcPlus4
      else .value s.aluResult)
  else none

/-- What it asks of MEM. -/
def Core.exReq (s : Core) : MemReq where
  addr := s.aluResult
  wdata := s.fwdRs2
  funct3 := s.idEx.funct3
  re := s.idEx.memRe
  we := s.idEx.memWe

/-- Where it sends the front end. -/
def Core.exRedirect (s : Core) : Option Word :=
  if s.idEx.isJal || s.idEx.isJalr || (s.idEx.isBranch && s.branchTaken) then
    some (if s.idEx.isJalr then s.aluResult &&& ~~~1 else s.idEx.pc + s.idEx.imm)
  else none

theorem Core.step_rdWrite (hs : i.busStall = false) (ht : s.trap i = false) (memRdata : Word) :
    (s.step P i).exMem.rdWrite memRdata = (s.exRd i).map fun (rd, v) => (rd, v.get memRdata) := by
  have hx : (s.step P i).exMem.rdWrite memRdata =
      if s.idEx.regWe && s.idEx.rdAddr != 0#5 then
        some (s.idEx.rdAddr, if s.idEx.wbSel = 0b01#2 then memRdata
          else if s.idEx.wbSel = 0b11#2 then s.csrRdata i
          else if s.idEx.wbSel = 0b10#2 then s.idEx.pcPlus4
          else s.aluResult)
      else none := by
    simp [step, edge, nextExMem, hs, ht, ExMem.rdWrite, ExMem.wbValue, regWeFinal]
  rw [hx, exRd]
  split_ifs <;> rfl

/-- Without a trap, an edge has the effect that EX shows. -/
theorem Core.computes_of_noTrap (hs : i.busStall = false) (ht : s.trap i = false)
    (hm : s.idEx.isMret = false) (hrd : s.exRd i = e.rd)
    (ha : s.exReq.Performs e.access) (hr : s.exRedirect = e.redirect)
    (hte : e.traps = false) (hw : s.csrAccess.doWrite = e.csr.isSome)
    (hc : s.nextCsr i true = e.csr.elim s.csr fun (csr, v) => s.csr.write csr v) :
    s.Computes P i e where
  rd memRdata := by rw [step_rdWrite hs ht, hrd]
  access := by simpa [step, edge, nextExMem, hs, ht, memReq, memWeFinal, exReq] using ha
  redirect := by rw [← hr]; simp [pcRedirect, pcTarget, exRedirect, ht, hm]
  traps := ht.trans hte.symm
  csrWrite := hw
  csr _ := hc

/-- There is none for an instruction that `decoder` flags neither as illegal nor as a trap, and
that leaves the CSRs alone. -/
theorem Core.computes_plain (hs : i.busStall = false) (hi : s.takeInterrupt i = false)
    (hx : s.idEx.illegal = false ∧ s.idEx.isEcall = false ∧ s.idEx.isMret = false ∧
      s.idEx.csrRe = false ∧ s.idEx.csrWe = false)
    (hrd : s.exRd i = e.rd)
    (ha : s.exReq.Performs e.access) (hr : s.exRedirect = e.redirect)
    (hte : e.traps = false) (hc : e.csr = none) : s.Computes P i e := by
  obtain ⟨hill, hec, hmr, hre, hwe⟩ := hx
  have hq := CsrAccess.idle (a := s.csrAccess) hre hwe
  have htrap : s.trap i = false := by simp [trap, syncTrap, csrIllegal, hi, hill, hec, hq.1]
  refine computes_of_noTrap hs htrap hmr hrd ha hr hte ?_ ?_
  · rw [hq.2, hc]
    rfl
  · rw [hc]
    simp [nextCsr, Csr.step, Csr.update, hs, htrap, hmr, hq.2]

end Executing

/-- EX holds the word `w`, decoded. -/
def Core.Executing (s : Core) (pc w : Word) : Prop :=
  ∃ rs1Data rs2Data, s.idEx = IdEx.capture pc w (decoder w) (immgen w) rs1Data rs2Data

section Opcodes

variable {P : Params} {s : Core} {i : CoreIn} {pc w : Word}

/-- An instruction that asks nothing of MEM, by the controls that `decoder` gives it. -/
theorem Core.computes_unit {d : Decoded} (hx : s.Executing pc w) (hs : i.busStall = false)
    (hi : s.takeInterrupt i = false)
    (hd : decoder w = { decoderDefaults w with
      regWe := d.regWe, wbSel := if d.isJal || d.isJalr then 2 else 0, aluOp := d.aluOp
      aluSrc := d.aluSrc, aluAPc := d.aluAPc, aluAZero := d.aluAZero
      isBranch := d.isBranch, isJal := d.isJal, isJalr := d.isJalr }) :
    let result := alu (if d.aluAZero then 0 else if d.aluAPc then pc else s.fwdRs1)
      (if d.aluSrc then immgen w else s.fwdRs2) d.aluOp
    s.Computes P i { Effect.nothing with
      rd := if d.regWe then
          writeRd (w.extractLsb 11 7) (.value (if d.isJal || d.isJalr then pc + 4 else result))
        else none
      redirect :=
        if d.isJal || d.isJalr || (d.isBranch && branchCmp s.fwdRs1 s.fwdRs2 (w.extractLsb 14 12)) then
          some (if d.isJalr then result &&& ~~~1 else pc + immgen w)
        else none } := by
  intro result
  obtain ⟨rs1Data, rs2Data, he⟩ := hx
  rw [hd] at he
  have hr : s.aluResult = result := by
    simp [aluResult, aluA, aluB, he, IdEx.capture, decoderDefaults, result]
  apply computes_plain hs hi
  case hx => simp [he, IdEx.capture, decoderDefaults]
  case hrd =>
    simp only [exRd, hr, he, IdEx.capture, decoderDefaults, writeRd, bne_iff_ne, Bool.and_eq_true]
    split_ifs <;> simp_all
  case ha => simp [exReq, he, IdEx.capture, decoderDefaults, Effect.nothing, MemReq.Performs]
  case hr => simp [exRedirect, branchTaken, hr, he, IdEx.capture, decoderDefaults]
  case hte => rfl
  case hc => rfl

/-- The address of a load or a store. -/
theorem Core.aluResult_of_add (hx : s.Executing pc w)
    (hd : (decoder w).aluOp = aluAdd ∧ (decoder w).aluSrc = true ∧ (decoder w).aluAPc = false ∧
      (decoder w).aluAZero = false) :
    s.aluResult = s.fwdRs1 + immgen w := by
  obtain ⟨rs1Data, rs2Data, he⟩ := hx
  simp [aluResult, aluA, aluB, alu, he, IdEx.capture, hd]

theorem Core.computes_load (op : LoadOp) (hx : s.Executing pc w) (hs : i.busStall = false)
    (hi : s.takeInterrupt i = false) (hop : w.extractLsb 6 0 = 0b0000011#7)
    (hf : w.extractLsb 14 12 = op.funct3) :
    s.Computes P i { Effect.nothing with
      rd := writeRd (w.extractLsb 11 7) .loaded, access := some (.load op (s.fwdRs1 + immgen w)) } := by
  have hr := aluResult_of_add hx (by simp [decoder, hop, decoderDefaults])
  obtain ⟨rs1Data, rs2Data, he⟩ := hx
  have hf' : s.idEx.funct3 = op.funct3 := by
    simp [he, IdEx.capture, decoder, hop, decoderDefaults, hf]
  apply computes_plain hs hi
  case hx => simp [he, IdEx.capture, decoder, hop, decoderDefaults]
  case hrd => simp [exRd, he, IdEx.capture, decoder, hop, decoderDefaults, writeRd]
  case ha =>
    rw [exReq, hr, hf']
    refine ⟨?_, ?_, rfl, ?_, fun bytes => loadValue_op op bytes _⟩
    · simp [he, IdEx.capture, decoder, hop, decoderDefaults]
    · simp [he, IdEx.capture, decoder, hop, decoderDefaults]
    · cases op <;> simp [MemReq.size, LoadOp.funct3, LoadOp.size]
  case hr => simp [exRedirect, he, IdEx.capture, decoder, hop, decoderDefaults, Effect.nothing]
  case hte => rfl
  case hc => rfl

theorem Core.computes_store (op : StoreOp) (hx : s.Executing pc w) (hs : i.busStall = false)
    (hi : s.takeInterrupt i = false) (hop : w.extractLsb 6 0 = 0b0100011#7)
    (hf : w.extractLsb 14 12 = op.funct3) :
    s.Computes P i { Effect.nothing with
      access := some (.store op.size (s.fwdRs1 + immgen w) s.fwdRs2) } := by
  have hr := aluResult_of_add hx (by simp [decoder, hop, decoderDefaults])
  obtain ⟨rs1Data, rs2Data, he⟩ := hx
  have hf' : s.idEx.funct3 = op.funct3 := by
    simp [he, IdEx.capture, decoder, hop, decoderDefaults, hf]
  apply computes_plain hs hi
  case hx => simp [he, IdEx.capture, decoder, hop, decoderDefaults]
  case hrd => simp [exRd, he, IdEx.capture, decoder, hop, decoderDefaults, Effect.nothing]
  case ha =>
    rw [exReq, hr, hf']
    refine ⟨?_, ?_, rfl, ?_, rfl⟩
    · simp [he, IdEx.capture, decoder, hop, decoderDefaults]
    · simp [he, IdEx.capture, decoder, hop, decoderDefaults]
    · cases op <;> rfl
  case hr => simp [exRedirect, he, IdEx.capture, decoder, hop, decoderDefaults, Effect.nothing]
  case hte => rfl
  case hc => rfl

/-- `ecall` and `ebreak`. -/
theorem Core.computes_ecall (hx : s.Executing pc w) (hs : i.busStall = false)
    (hop : w.extractLsb 6 0 = 0b1110011#7) (hf : w.extractLsb 14 12 = 0b000#3)
    (hw : w.extractLsb 31 20 = 0x000#12 ∨ w.extractLsb 31 20 = 0x001#12) :
    s.Computes P i { Effect.nothing with redirect := some s.csr.mtvec, traps := true } := by
  obtain ⟨rs1Data, rs2Data, he⟩ := hx
  have hd : decoder w = { decoderDefaults w with isEcall := true } := by
    have hsys : decoder w = decodeSystem w := by simp only [decoder, hop]; rfl
    rw [hsys, decodeSystem, if_pos (show (decoderDefaults w).funct3 = 0b000#3 from hf)]
    rcases hw with hw | hw <;> rw [hw] <;> rfl
  rw [hd] at he
  have hec : s.idEx.isEcall = true := by rw [he]; rfl
  have ht : s.trap i = true := by simp [trap, syncTrap, hec]
  have hq := CsrAccess.idle (a := s.csrAccess) (show s.idEx.csrRe = false by rw [he]; rfl)
    (show s.idEx.csrWe = false by rw [he]; rfl)
  constructor
  · intro memRdata
    simp [step, edge, nextExMem, hs, ht, ExMem.rdWrite, regWeFinal, Effect.nothing]
  · simp [step, edge, nextExMem, hs, ht, memReq, memWeFinal, Effect.nothing, MemReq.Performs]
  · simp [pcRedirect, pcTarget, ht]
  · exact ht
  · exact hq.2
  · intro htraps
    exact absurd htraps.symm Bool.false_ne_true

/-- `csr_op` -/
def CsrOp.code : CsrOp → BitVec 2
  | .rw => 0b01
  | .rs => 0b10
  | .rc => 0b11

def CsrSrc.isImm : CsrSrc → Bool
  | .reg _ => false
  | .imm _ => true

/-- The decoder's view of a CSR instruction. -/
theorem decodeSystem_csrOp (op : CsrOp) (src : CsrSrc) (hf : w.extractLsb 14 12 = op.funct3 src)
    (hsrc : w.extractLsb 19 15 = src.field) :
    let d := decodeSystem w
    d.illegal = false ∧ d.isEcall = false ∧ d.isMret = false ∧ d.regWe = true ∧ d.memRe = false ∧
      d.memWe = false ∧ d.isBranch = false ∧ d.isJal = false ∧ d.isJalr = false ∧ d.wbSel = 3 ∧
      d.rdAddr = w.extractLsb 11 7 ∧ d.rs1Addr = src.field ∧ d.csrUseImm = CsrSrc.isImm src ∧
      d.csrOp = CsrOp.code op ∧ d.csrWe = op.writes src := by
  cases op <;> cases src <;>
    simp_all [decodeSystem, decoderDefaults, CsrOp.funct3, CsrSrc.isImm, CsrOp.code, CsrOp.writes,
      CsrSrc.field, bne]

/-- A CSR instruction on a CSR that `csr` knows, the read-only `mhartid` apart. -/
theorem Core.computes_csr (op : CsrOp) (src : CsrSrc) (csr : BitVec 12) (hx : s.Executing pc w)
    (hs : i.busStall = false) (hi : s.takeInterrupt i = false)
    (hop : w.extractLsb 6 0 = 0b1110011#7) (hf : w.extractLsb 14 12 = op.funct3 src)
    (hsrc : w.extractLsb 19 15 = src.field) (hcsr : w.extractLsb 31 20 = csr)
    (hknown : csrUnknown csr = false) (hro : csr ≠ csrMhartid) :
    s.Computes P i { Effect.nothing with
      rd := writeRd (w.extractLsb 11 7) (.value (s.csr.csrRdata i.timerIrq csr))
      csr := if op.writes src then
          some (csr, op.new (s.csr.csrRdata i.timerIrq csr) (src.value s.fwdRs1))
        else none } := by
  obtain ⟨rs1Data, rs2Data, he⟩ := hx
  have hsys : decoder w = decodeSystem w := by simp only [decoder, hop]; rfl
  obtain ⟨hill, hec, hmr, hrw, hmre, hmwe, hbr, hjal, hjalr, hsel, hrd, hrs1, huse, hcode, hwe⟩ :=
    decodeSystem_csrOp op src hf hsrc
  rw [hsys] at he
  have haddr : s.csrAccess.csrAddr = csr := by rw [← hcsr, csrAccess, he]; rfl
  have hlegal : s.csrAccess.csrIllegal = false := by
    rw [CsrAccess.csrIllegal, haddr]
    simp only [csrUnknown] at hknown
    split_ifs <;> simp_all
  have hdo : s.csrAccess.doWrite = op.writes src := by
    rw [CsrAccess.doWrite, hlegal, haddr, csrAccess, he]
    simp [IdEx.capture, hwe, hro]
  have hold : s.csrRdata i = s.csr.csrRdata i.timerIrq csr := by rw [csrRdata, haddr]
  generalize s.csr.csrRdata i.timerIrq csr = old at hold ⊢
  have hdata : s.csrAccess.csrWdata = src.value s.fwdRs1 := by
    show s.csrWdata = _
    rw [csrWdata, he]
    simp only [IdEx.capture, huse, hrs1]
    cases src with
    | reg rs1 => rfl
    | imm uimm => exact Bytes.zero_append_eq_zeroExtend uimm
  have hnew : s.csrAccess.csrNew old = op.new old (src.value s.fwdRs1) := by
    have hco : s.csrAccess.csrOp = CsrOp.code op := by rw [csrAccess, he]; exact hcode
    rw [CsrAccess.csrNew, hco, hdata]
    cases op <;> rfl
  have ht : s.trap i = false := by
    simp [trap, syncTrap, csrIllegal, hlegal, hi, he, IdEx.capture, hill, hec]
  apply computes_of_noTrap hs ht
  case hm => rw [he]; exact hmr
  case hrd => simp [exRd, he, IdEx.capture, hrw, hrd, hsel, hold, writeRd]
  case ha => simp [exReq, he, IdEx.capture, hmre, hmwe, Effect.nothing, MemReq.Performs]
  case hr => simp [exRedirect, he, IdEx.capture, hjal, hjalr, hbr, Effect.nothing]
  case hte => rfl
  case hw =>
    rw [hdo]
    cases op.writes src <;> rfl
  case hc =>
    have hstep : s.nextCsr i true =
        if op.writes src then s.csr.write csr (s.csrAccess.csrNew (s.csrRdata i)) else s.csr := by
      simp only [nextCsr, Csr.step, Csr.update, csrRdata, hs, ht, hdo, haddr]
      simp [he, IdEx.capture, hmr]
    rw [hstep, hold, hnew]
    cases op.writes src <;> rfl

end Opcodes

/-! ## All instructions -/

variable {P : Params} {s : Core} {j : CoreIn} {pc : Word}

/-- A CSR word names a CSR that `csr` knows, and not the read-only one. -/
def csrKnown (instr : Word) : Bool :=
  instr.extractLsb 6 0 != opSystem || instr.extractLsb 14 12 == 0b000#3 ||
    (!csrUnknown (instr.extractLsb 31 20) && instr.extractLsb 31 20 != csrMhartid)

/-- The instruction in EX has the effect that the ISA gives it. -/
theorem Core.execute_correct {i : Instr} (hx : s.Executing pc (encode i)) (hs : j.busStall = false)
    (hi : s.takeInterrupt j = false) (hk : csrKnown (encode i) = true) :
    s.Computes P j (execute pc s.fwdRs1 s.fwdRs2 (s.csr.csrRdata j.timerIrq) i) := by
  have himm := immgen_encode i
  generalize hw : encode i = w at hx himm hk
  cases i with
  | lui rd imm =>
    obtain ⟨hop, hrd, -⟩ := uType_fields 0b0110111#7 rd imm
    rw [show uType 0b0110111#7 rd imm = w from hw] at hop hrd
    have h := computes_unit (P := P) (d := { decoderDefaults w with regWe := true, aluAZero := true })
      hx hs hi (by simp [decoder, hop, decoderDefaults])
    simpa [execute, Effect.nothing, decoderDefaults, hrd, himm _ rfl, alu] using h
  | auipc rd imm =>
    obtain ⟨hop, hrd, -⟩ := uType_fields 0b0010111#7 rd imm
    rw [show uType 0b0010111#7 rd imm = w from hw] at hop hrd
    have h := computes_unit (P := P) (d := { decoderDefaults w with regWe := true, aluAPc := true })
      hx hs hi (by simp [decoder, hop, decoderDefaults])
    simpa [execute, Effect.nothing, decoderDefaults, hrd, himm _ rfl, alu] using h
  | jal rd offset =>
    obtain ⟨hop, hrd, -⟩ := jType_fields 0b1101111#7 rd (offset ++ 0#1)
    rw [show jType 0b1101111#7 rd (offset ++ 0#1) = w from hw] at hop hrd
    have h := computes_unit (P := P) (d := { decoderDefaults w with regWe := true, isJal := true })
      hx hs hi (by simp [decoder, hop, decoderDefaults])
    simpa [execute, Effect.nothing, decoderDefaults, hrd, himm _ rfl] using h
  | jalr rd rs1 imm =>
    obtain ⟨hop, hrd, -, -, -⟩ := iType_fields 0b000#3 0b1100111#7 rd rs1 imm
    rw [show iType 0b000#3 0b1100111#7 rd rs1 imm = w from hw] at hop hrd
    have h := computes_unit (P := P) (d := { decoderDefaults w with regWe := true, isJalr := true })
      hx hs hi (by simp [decoder, hop, decoderDefaults])
    simpa [execute, Effect.nothing, decoderDefaults, hrd, himm _ rfl, alu] using h
  | branch op rs1 rs2 offset =>
    obtain ⟨hop, hf, -⟩ := bType_fields op.funct3 0b1100011#7 rs1 rs2 (offset ++ 0#1)
    rw [show bType op.funct3 0b1100011#7 rs1 rs2 (offset ++ 0#1) = w from hw] at hop hf
    have h := computes_unit (P := P) (d := { decoderDefaults w with isBranch := true })
      hx hs hi (by simp [decoder, hop, decoderDefaults])
    simpa [execute, Effect.nothing, decoderDefaults, hf, branchCmp_op, himm _ rfl] using h
  | load op rd rs1 imm =>
    obtain ⟨hop, hrd, hf, -, -⟩ := iType_fields op.funct3 0b0000011#7 rd rs1 imm
    rw [show iType op.funct3 0b0000011#7 rd rs1 imm = w from hw] at hop hrd hf
    have h := computes_load (P := P) op hx hs hi hop hf
    rwa [hrd, himm _ rfl] at h
  | store op rs1 rs2 imm =>
    obtain ⟨hop, hf, -⟩ := sType_fields op.funct3 0b0100011#7 rs1 rs2 imm
    rw [show sType op.funct3 0b0100011#7 rs1 rs2 imm = w from hw] at hop hf
    have h := computes_store (P := P) op hx hs hi hop hf
    rwa [himm _ rfl] at h
  | opImm op rd rs1 imm =>
    obtain ⟨hop, hrd, hf, -, -⟩ := iType_fields op.op.funct3 0b0010011#7 rd rs1 imm
    rw [show iType op.op.funct3 0b0010011#7 rd rs1 imm = w from hw] at hop hrd hf
    have h5 : op.op.funct3 ≠ 0b101#3 := by cases op <;> decide
    have h := computes_unit (P := P)
      (d := { decoderDefaults w with regWe := true, aluOp := 0#1 ++ op.op.funct3 })
      hx hs hi (by simp [decoder, hop, decoderDefaults, hf, h5])
    simp only [decoderDefaults, hrd, himm _ rfl, alu_immOp] at h
    exact h
  | shiftImm op rd rs1 shamt =>
    obtain ⟨hop, hrd, hf, hf5, hf7⟩ :=
      rType_fields op.op.funct7 op.op.funct3 0b0010011#7 rd rs1 shamt
    rw [show rType op.op.funct7 op.op.funct3 0b0010011#7 rd rs1 shamt = w from hw]
      at hop hrd hf hf5 hf7
    have hbit : (if op.op.funct3 = 0b101#3 then op.op.funct7.extractLsb 5 5 else 0#1) =
        op.op.funct7.extractLsb 5 5 := by cases op <;> rfl
    have h := computes_unit (P := P)
      (d := { decoderDefaults w with
        regWe := true, aluOp := op.op.funct7.extractLsb 5 5 ++ op.op.funct3 })
      hx hs hi (by simp [decoder, hop, decoderDefaults, hf, hf5, hbit])
    have hv : op.op.eval s.fwdRs1 (immgen w) = op.op.eval s.fwdRs1 (shamt.zeroExtend 32) := by
      apply eval_shiftOp
      rw [immgen_i w (.inr (.inr (.inl hop))), hf7, extract_immI]
    simp only [decoderDefaults, hrd, alu_op, Bool.false_eq_true, if_false, if_true, hv] at h
    exact h
  | op op rd rs1 rs2 =>
    obtain ⟨hop, hrd, hf, hf5, -⟩ := rType_fields op.funct7 op.funct3 0b0110011#7 rd rs1 rs2
    rw [show rType op.funct7 op.funct3 0b0110011#7 rd rs1 rs2 = w from hw] at hop hrd hf hf5
    have h := computes_unit (P := P)
      (d := { decoderDefaults w with
        regWe := true, aluSrc := false, aluOp := op.funct7.extractLsb 5 5 ++ op.funct3 })
      hx hs hi (by simp [decoder, hop, decoderDefaults, hf, hf5])
    simp only [decoderDefaults, hrd, alu_op] at h
    exact h
  | fence rd rs1 imm =>
    obtain ⟨hop, -, -, -, -⟩ := iType_fields 0b000#3 0b0001111#7 rd rs1 imm
    rw [show iType 0b000#3 0b0001111#7 rd rs1 imm = w from hw] at hop
    exact computes_unit (P := P) (d := decoderDefaults w) hx hs hi
      (by simp [decoder, hop, decoderDefaults])
  | ecall =>
    subst hw
    exact computes_ecall hx hs (by decide) (by decide) (.inl (by decide))
  | ebreak =>
    subst hw
    exact computes_ecall hx hs (by decide) (by decide) (.inr (by decide))
  | csr op rd src csr =>
    obtain ⟨hop, hrd, hf, hsrc, hcsr⟩ :=
      iType_fields (op.funct3 src) 0b1110011#7 rd src.field csr
    rw [show iType (op.funct3 src) 0b1110011#7 rd src.field csr = w from hw]
      at hop hrd hf hsrc hcsr
    have h0 : op.funct3 src ≠ 0b000#3 := by cases op <;> cases src <;> simp [CsrOp.funct3]
    have hk' : csrUnknown csr = false ∧ csr ≠ csrMhartid := by
      simpa [csrKnown, hop, hf, hcsr, h0, opSystem] using hk
    have h := computes_csr (P := P) op src csr hx hs hi hop hf hsrc hcsr hk'.1 hk'.2
    rwa [hrd] at h

/-! ## Every word of the two ISAs -/

/-- The words of RV32I, and those of Zicsr on a CSR that is there to be written.  `mret` is
privileged, and MISC-MEM is FENCE. -/
def isaWord (instr : Word) : Bool :=
  validEncoding instr && instr != 0x30200073#32 &&
    (instr.extractLsb 6 0 != 0b0001111#7 || instr.extractLsb 14 12 == 0b000#3) && csrKnown instr

theorem exists_branchOp : ∀ f : BitVec 3, f ≠ 0b010#3 ∧ f ≠ 0b011#3 →
    ∃ op ∈ [BranchOp.eq, .ne, .lt, .ge, .ltu, .geu], op.funct3 = f := by
  decide

theorem exists_loadOp : ∀ f : BitVec 3, (f ≠ 0b011#3 ∧ f ≠ 0b110#3) ∧ f ≠ 0b111#3 →
    ∃ op ∈ [LoadOp.lb, .lh, .lw, .lbu, .lhu], op.funct3 = f := by
  decide

theorem exists_storeOp : ∀ f : BitVec 3, (f = 0b000#3 ∨ f = 0b001#3) ∨ f = 0b010#3 →
    ∃ op ∈ [StoreOp.sb, .sh, .sw], op.funct3 = f := by
  decide

theorem exists_op : ∀ (f3 : BitVec 3) (f7 : BitVec 7),
    f7 = 0b0000000#7 ∨ f7 = 0b0100000#7 ∧ (f3 = 0b000#3 ∨ f3 = 0b101#3) →
    ∃ op ∈ [Op.add, .sub, .sll, .slt, .sltu, .xor, .srl, .sra, .or, .and],
      op.funct3 = f3 ∧ op.funct7 = f7 := by
  intro f3 f7 h
  rcases h with rfl | ⟨rfl, h⟩
  · decide +revert
  · decide +revert

/-- An OP-IMM word is a shift or has a plain immediate. -/
theorem exists_immOp : ∀ (f3 : BitVec 3) (f7 : BitVec 7),
    (if f3 = 0b001#3 then f7 = 0b0000000#7
      else ¬f3 = 0b101#3 ∨ f7 = 0b0000000#7 ∨ f7 = 0b0100000#7) →
    (∃ op ∈ [ShiftOp.sll, .srl, .sra], op.op.funct3 = f3 ∧ op.op.funct7 = f7) ∨
      ∃ op ∈ [ImmOp.add, .slt, .sltu, .xor, .or, .and], op.op.funct3 = f3 := by
  have h : ∀ f3 : BitVec 3, f3 = 0b001#3 ∨ f3 = 0b101#3 ∨
      ∃ op ∈ [ImmOp.add, .slt, .sltu, .xor, .or, .and], op.op.funct3 = f3 := by decide
  intro f3 f7 hv
  obtain rfl | rfl | h := h f3
  · exact .inl ⟨.sll, by decide, rfl, Eq.symm hv⟩
  · obtain hf | rfl | rfl : ¬(0b101#3 = 0b101#3) ∨ f7 = 0b0000000#7 ∨ f7 = 0b0100000#7 := hv
    · exact absurd rfl hf
    · exact .inl ⟨.srl, by decide, rfl, rfl⟩
    · exact .inl ⟨.sra, by decide, rfl, rfl⟩
  · exact .inr h

theorem exists_csrOp : ∀ (f : BitVec 3) (x : BitVec 5), f ≠ 0b000#3 → f ≠ 0b100#3 →
    ∃ (op : CsrOp) (src : CsrSrc), op.funct3 src = f ∧ src.field = x := by
  have h : ∀ f : BitVec 3, f ≠ 0b000#3 → f ≠ 0b100#3 → ∃ op ∈ [CsrOp.rw, .rs, .rc],
      op.funct3 (.reg 0) = f ∨ op.funct3 (.imm 0) = f := by decide
  intro f x h0 h4
  obtain ⟨op, -, hop | hop⟩ := h f h0 h4
  · exact ⟨op, .reg x, hop, rfl⟩
  · exact ⟨op, .imm x, hop, rfl⟩

theorem exists_encode {w : Word} (h : isaWord w = true) : ∃ i, encode i = w := by
  unfold isaWord at h
  simp only [Bool.and_eq_true] at h
  obtain ⟨⟨⟨hv, hm⟩, hfence⟩, -⟩ := h
  have hop := validEncoding_opcode hv
  simp only [knownOpcodes, List.mem_cons, List.not_mem_nil, or_false] at hop
  rcases hop with hop | hop | hop | hop | hop | hop | hop | hop | hop | hop | hop
  · refine ⟨.lui (w.extractLsb 11 7) (w.extractLsb 31 12), ?_⟩
    rw [encode, ← hop, uType_eta]
  · refine ⟨.auipc (w.extractLsb 11 7) (w.extractLsb 31 12), ?_⟩
    rw [encode, ← hop, uType_eta]
  · refine ⟨.jal (w.extractLsb 11 7) (w.extractLsb 31 31 ++ w.extractLsb 19 12 ++
      w.extractLsb 20 20 ++ w.extractLsb 30 21), ?_⟩
    rw [encode, ← hop, jType_eta]
  · obtain ⟨op, -, hf⟩ := exists_branchOp (w.extractLsb 14 12)
      (by simpa [validEncoding, hop] using hv)
    refine ⟨.branch op (w.extractLsb 19 15) (w.extractLsb 24 20) (w.extractLsb 31 31 ++
      w.extractLsb 7 7 ++ w.extractLsb 30 25 ++ w.extractLsb 11 8), ?_⟩
    rw [encode, hf, ← hop, bType_eta]
  · obtain ⟨op, -, hf⟩ := exists_storeOp (w.extractLsb 14 12)
      (by simpa [validEncoding, hop] using hv)
    refine ⟨.store op (w.extractLsb 19 15) (w.extractLsb 24 20)
      (w.extractLsb 31 25 ++ w.extractLsb 11 7), ?_⟩
    rw [encode, hf, ← hop, sType_eta]
  · obtain ⟨op, -, hf, hf7⟩ := exists_op (w.extractLsb 14 12) (w.extractLsb 31 25)
      (by simpa [validEncoding, hop] using hv)
    refine ⟨.op op (w.extractLsb 11 7) (w.extractLsb 19 15) (w.extractLsb 24 20), ?_⟩
    rw [encode, hf, hf7, ← hop, rType_eta]
  · have hf : w.extractLsb 14 12 = 0b000#3 := by simpa [validEncoding, hop] using hv
    refine ⟨.jalr (w.extractLsb 11 7) (w.extractLsb 19 15) (w.extractLsb 31 20), ?_⟩
    have hw := iType_eta w
    rw [hf, hop] at hw
    exact hw
  · obtain ⟨op, -, hf⟩ := exists_loadOp (w.extractLsb 14 12)
      (by simpa [validEncoding, hop] using hv)
    refine ⟨.load op (w.extractLsb 11 7) (w.extractLsb 19 15) (w.extractLsb 31 20), ?_⟩
    rw [encode, hf, ← hop, iType_eta]
  · obtain ⟨op, -, hf, hf7⟩ | ⟨op, -, hf⟩ := exists_immOp (w.extractLsb 14 12) (w.extractLsb 31 25)
      (by simpa [validEncoding, hop] using hv)
    · refine ⟨.shiftImm op (w.extractLsb 11 7) (w.extractLsb 19 15) (w.extractLsb 24 20), ?_⟩
      rw [encode, hf, hf7, ← hop, rType_eta]
    · refine ⟨.opImm op (w.extractLsb 11 7) (w.extractLsb 19 15) (w.extractLsb 31 20), ?_⟩
      rw [encode, hf, ← hop, iType_eta]
  · have hf : w.extractLsb 14 12 = 0b000#3 := by simpa [hop] using hfence
    refine ⟨.fence (w.extractLsb 11 7) (w.extractLsb 19 15) (w.extractLsb 31 20), ?_⟩
    have hw := iType_eta w
    rw [hf, hop] at hw
    exact hw
  · rcases validEncoding_system hv hop with ⟨-, rfl | rfl | rfl⟩ | ⟨h0, h4⟩
    · exact ⟨.ecall, rfl⟩
    · exact ⟨.ebreak, rfl⟩
    · exact absurd hm (by decide)
    · obtain ⟨op, src, hf, hx⟩ := exists_csrOp _ (w.extractLsb 19 15) h0 h4
      refine ⟨.csr op (w.extractLsb 11 7) src (w.extractLsb 31 20), ?_⟩
      rw [encode, hf, hx, ← hop, iType_eta]

/-- Single-instruction correctness: a word of the ISAs is the encoding of an instruction, and of
whichever it is, `immgen` gives back the immediate and EX computes the effect, for any `pc`,
register values and CSRs, unless an interrupt takes the instruction's place.  It goes to the target
of a jump whatever it is, so it does what the ISA says exactly if the target is aligned.  The plain
32-bit CSRs read as they are and become what they are given. -/
theorem instruction_correct (P : Params) {s : Core} {j : CoreIn} {pc w : Word}
    (hw : isaWord w = true) (hx : s.Executing pc w) (hs : j.busStall = false)
    (hi : s.takeInterrupt j = false) :
    (∃ i, encode i = w) ∧
      (∀ i, encode i = w →
        (∀ v, i.imm = some v → immgen w = v) ∧
          s.Computes P j (execute pc s.fwdRs1 s.fwdRs2 (s.csr.csrRdata j.timerIrq) i) ∧
          (s.Computes P j (executeChecked pc s.fwdRs1 s.fwdRs2 (s.csr.csrRdata j.timerIrq) i) ↔
            (execute pc s.fwdRs1 s.fwdRs2 (s.csr.csrRdata j.timerIrq) i).misaligned = false)) ∧
      ∀ csr : FullCsr, s.csr.csrRdata j.timerIrq csr.addr = s.csr.full csr ∧
        ∀ v, s.csr.write csr.addr v = s.csr.setFull v csr := by
  refine ⟨exists_encode hw, ?_,
    fun csr => ⟨s.csr.csrRdata_full _ csr, fun v => s.csr.write_full v csr⟩⟩
  rintro i rfl
  have hk : csrKnown (encode i) = true := (Bool.and_eq_true_iff.1 hw).2
  have hcomp := Core.execute_correct (P := P) hx hs hi hk
  refine ⟨immgen_encode i, hcomp, fun hchecked => ?_, fun haligned => ?_⟩
  · by_contra hmis
    obtain ⟨hgoes, htraps⟩ := traps_of_misaligned (Bool.eq_true_of_not_eq_false hmis)
    rw [← hcomp.traps, hchecked.traps, htraps] at hgoes
    cases hgoes
  · rw [executeChecked_of_aligned haligned]
    exact hcomp

/-- `bltu x5, x6, -8` at address 64, taken. -/
theorem instruction_correct_bltu :
    let w : Word := 0xfe62ece3
    let s : Core := { (default : Core) with
      idEx := IdEx.capture 64 w (decoder w) (immgen w) 3 0xfffffff0 }
    encode (.branch .ltu 5 6 (-4)) = w ∧ immgen w = -8 ∧
      s.Computes (Params.ofWords []) default { Effect.nothing with redirect := some 56 } ∧
      s.Computes (Params.ofWords []) default (executeChecked 64 s.fwdRs1 s.fwdRs2
        (s.csr.csrRdata false) (.branch .ltu 5 6 (-4))) := by
  intro w s
  have hx : s.Executing 64 w := ⟨3, 0xfffffff0, rfl⟩
  have h := instruction_correct (Params.ofWords []) (j := default) (by decide) hx rfl rfl
  have hi := h.2.1 (.branch .ltu 5 6 (-4)) (by decide)
  exact ⟨by decide, hi.1 _ rfl, hi.2.1, hi.2.2.2 (by decide)⟩

/-- Misaligned targets are not trapped on: `jalr x1, 2(x0)` goes to 2 and writes x1. -/
theorem instruction_correct_misaligned :
    ¬ ∀ (P : Params) (s : Core) (j : CoreIn) (pc w : Word), isaWord w = true → s.Executing pc w →
      j.busStall = false → s.takeInterrupt j = false → ∀ i, encode i = w →
        s.Computes P j (executeChecked pc s.fwdRs1 s.fwdRs2 (s.csr.csrRdata j.timerIrq) i) := by
  intro h
  let w : Word := 0x002000E7
  let s : Core := { (default : Core) with
    idEx := IdEx.capture 0 w (decoder w) (immgen w) 0 0 }
  have hx : s.Executing 0 w := ⟨0, 0, rfl⟩
  have hcomp := h (Params.ofWords []) s default 0 w (by decide) hx rfl rfl (.jalr 1 0 2) (by decide)
  have hredirect := hcomp.redirect
  revert hredirect
  decide

end Rv32i

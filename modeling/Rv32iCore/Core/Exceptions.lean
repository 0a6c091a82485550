import Rv32iCore.Core.Privilege

/-!
# Which words trap, and with which cause

`decoder` tells instructions apart by opcode, and within SYSTEM by `funct3` and `funct12`;
`csr` adds the addresses it does not know.  `exceptionCause` is that rule on the word alone.
`validEncoding` is the stricter table of RV32I, Zicsr and `mret`, reserved fields included.

    exception_classification     the words that trap, and mcause
    exceptionCause_of_valid      no valid encoding traps as illegal
-/

namespace Rv32i

open Sync

/-! ## The rule of the core -/

/-- The opcodes with an arm of their own in `decoder`. -/
def knownOpcodes : List (BitVec 7) :=
  [0b0110111, 0b0010111, 0b1101111, 0b1100011, 0b0100011, 0b0110011, 0b1100111, 0b0000011,
    0b0010011, 0b0001111, 0b1110011]

def opSystem : BitVec 7 := 0b1110011

/-- A CSR address outside the implemented and the read-zero lists. -/
def csrUnknown (csrAddr : BitVec 12) : Bool := !csrImplemented csrAddr && !csrIgnored csrAddr

/-- The cause of the trap that `instr` raises, if it raises one. -/
def exceptionCause (privM : Bool) (instr : Word) : Option Word :=
  let opcode := instr.extractLsb 6 0
  let funct3 := instr.extractLsb 14 12
  let funct12 := instr.extractLsb 31 20
  if opcode ∉ knownOpcodes then some 2
  else if opcode ≠ opSystem then none
  else if funct3 = 0b000#3 then
    if funct12 = 0x000#12 ∨ funct12 = 0x001#12 then some (if privM then 11 else 8)
    else if funct12 = 0x302#12 then none
    else some 2
  else if funct3 = 0b100#3 then some 2
  else if csrUnknown funct12 then some 2
  else none

/-! ## Valid encodings -/

/-- The RV32I, Zicsr and `mret` encodings, MISC-MEM unconstrained. -/
def validEncoding (instr : Word) : Bool :=
  let opcode := instr.extractLsb 6 0
  let funct3 := instr.extractLsb 14 12
  let funct7 := instr.extractLsb 31 25
  if opcode = 0b1100011#7 then funct3 != 0b010#3 && funct3 != 0b011#3        -- BRANCH
  else if opcode = 0b0100011#7 then
    funct3 == 0b000#3 || funct3 == 0b001#3 || funct3 == 0b010#3              -- STORE
  else if opcode = 0b0110011#7 then                                          -- OP
    funct7 == 0#7 || (funct7 == 0b0100000#7 && (funct3 == 0b000#3 || funct3 == 0b101#3))
  else if opcode = 0b1100111#7 then funct3 == 0b000#3                        -- JALR
  else if opcode = 0b0000011#7 then
    funct3 != 0b011#3 && funct3 != 0b110#3 && funct3 != 0b111#3              -- LOAD
  else if opcode = 0b0010011#7 then                                          -- OP-IMM
    if funct3 = 0b001#3 then funct7 == 0#7
    else if funct3 = 0b101#3 then funct7 == 0#7 || funct7 == 0b0100000#7
    else true
  else if opcode = opSystem then
    if funct3 = 0b000#3 then instr == 0x00000073#32 || instr == 0x00100073#32 || instr == 0x30200073#32
    else funct3 != 0b100#3
  else opcode ∈ knownOpcodes

/-- The architectural cause: a breakpoint has its own, and every reserved encoding is illegal. -/
def architecturalCause (privM : Bool) (instr : Word) : Option Word :=
  let funct3 := instr.extractLsb 14 12
  if instr = 0x00000073#32 then some (if privM then 11 else 8)
  else if instr = 0x00100073#32 then some 3
  else if !validEncoding instr then some 2
  else if instr.extractLsb 6 0 = opSystem ∧ funct3 ≠ 0b000#3 ∧ csrUnknown (instr.extractLsb 31 20) then
    some 2
  else none

/-! ## The decoder follows the rule -/

/-- With `funct3 ≠ 0`, the CSR operation in its low bits is missing exactly for 100. -/
theorem funct3_op_eq_zero {f : BitVec 3} (h : f ≠ 0#3) : f.extractLsb 1 0 = 0#2 ↔ f = 4#3 := by
  revert f
  decide

/-- A CSR instruction reads or writes its CSR. -/
theorem decodeSystem_csr {instr : Word} (h : instr.extractLsb 14 12 ≠ 0b000#3) :
    ((decodeSystem instr).csrRe || (decodeSystem instr).csrWe) = true := by
  fun_cases decodeSystem instr <;> simp_all +zetaDelta [decoderDefaults]
  tauto

/-- The flags of a SYSTEM word and the CSR check make up its exception. -/
theorem decodeSystem_exception (privM : Bool) (instr v : Word) (h : instr.extractLsb 6 0 = opSystem) :
    exceptionCause privM instr =
      if ((decodeSystem instr).illegal || CsrAccess.csrIllegal
          { csrAddr := instr.extractLsb 31 20, csrWdata := v, csrOp := (decodeSystem instr).csrOp
            csrRe := (decodeSystem instr).csrRe, csrWe := (decodeSystem instr).csrWe } ||
          (decodeSystem instr).isEcall) then
        some (if (decodeSystem instr).isEcall then (if privM then 11 else 8) else 2)
      else none := by
  have hk : opSystem ∈ knownOpcodes := by decide
  unfold exceptionCause
  simp only [h, hk, not_true_eq_false, if_false, ne_eq]
  by_cases hf : instr.extractLsb 14 12 = 0b000#3
  · rw [if_pos hf]
    fun_cases decodeSystem instr <;> simp_all +zetaDelta [decoderDefaults, CsrAccess.csrIllegal]
  · rw [if_neg hf, CsrAccess.csrIllegal, decodeSystem_csr hf]
    fun_cases decodeSystem instr
    all_goals try contradiction
    by_cases h4 : instr.extractLsb 14 12 = 0b100#3
    · simp +zetaDelta [decoderDefaults, h4]
    · have hop : (instr.extractLsb 14 12).extractLsb 1 0 ≠ 0#2 :=
        fun e => h4 ((funct3_op_eq_zero hf).1 e)
      simp +zetaDelta [decoderDefaults, h4, hop, csrUnknown]

/-- A known opcode other than SYSTEM raises nothing. -/
theorem exceptionCause_known {privM : Bool} {instr : Word} {opcode : BitVec 7}
    (h : instr.extractLsb 6 0 = opcode) (hk : opcode ∈ knownOpcodes) (hs : opcode ≠ opSystem) :
    exceptionCause privM instr = none := by
  unfold exceptionCause
  rw [h, if_neg (not_not.2 hk), if_pos hs]

/-- So do those of any word. -/
theorem decoder_exception (privM : Bool) (instr v : Word) :
    exceptionCause privM instr =
      if ((decoder instr).illegal || CsrAccess.csrIllegal
          { csrAddr := instr.extractLsb 31 20, csrWdata := v, csrOp := (decoder instr).csrOp
            csrRe := (decoder instr).csrRe, csrWe := (decoder instr).csrWe } ||
          (decoder instr).isEcall) then
        some (if (decoder instr).isEcall then (if privM then 11 else 8) else 2)
      else none := by
  have hidle : ∀ csrOp, CsrAccess.csrIllegal ⟨instr.extractLsb 31 20, v, csrOp, false, false⟩ = false :=
    fun _ => (CsrAccess.idle rfl rfl).1
  fun_cases decoder instr
  case case11 h => exact decodeSystem_exception privM instr v h
  case case12 =>
    have hk : instr.extractLsb 6 0 ∉ knownOpcodes := by
      simp_all +zetaDelta [knownOpcodes]
    unfold exceptionCause
    rw [if_pos hk]
    rfl
  all_goals
    rename_i h
    rw [exceptionCause_known h (by decide) (by decide)]
    change none = if (false || CsrAccess.csrIllegal ⟨_, v, _, false, false⟩ || false) then _ else _
    rw [hidle]
    rfl

/-! ## Valid encodings do not trap -/

theorem validEncoding_opcode {instr : Word} (h : validEncoding instr = true) :
    instr.extractLsb 6 0 ∈ knownOpcodes := by
  by_contra hk
  have hne : ∀ opcode ∈ knownOpcodes, instr.extractLsb 6 0 ≠ opcode := by
    rintro opcode hmem rfl
    exact hk hmem
  unfold validEncoding at h
  simp only [hne 0b1100011#7 (by decide), hne 0b0100011#7 (by decide), hne 0b0110011#7 (by decide),
    hne 0b1100111#7 (by decide), hne 0b0000011#7 (by decide), hne 0b0010011#7 (by decide),
    hne opSystem (by decide), if_false, decide_eq_true_eq] at h
  exact hk h

theorem validEncoding_system {instr : Word} (h : validEncoding instr = true)
    (hs : instr.extractLsb 6 0 = opSystem) :
    (instr.extractLsb 14 12 = 0b000#3 ∧
      (instr = 0x00000073#32 ∨ instr = 0x00100073#32 ∨ instr = 0x30200073#32)) ∨
    (instr.extractLsb 14 12 ≠ 0b000#3 ∧ instr.extractLsb 14 12 ≠ 0b100#3) := by
  unfold validEncoding at h
  simp only [hs, show opSystem ≠ 0b1100011#7 by decide, show opSystem ≠ 0b0100011#7 by decide,
    show opSystem ≠ 0b0110011#7 by decide, show opSystem ≠ 0b1100111#7 by decide,
    show opSystem ≠ 0b0000011#7 by decide, show opSystem ≠ 0b0010011#7 by decide, if_false,
    if_true] at h
  split_ifs at h with hf
  · simp only [Bool.or_eq_true, beq_iff_eq, or_assoc] at h
    exact .inl ⟨hf, h⟩
  · exact .inr ⟨hf, by simpa using h⟩

/-- A word without an architectural exception does not trap. -/
theorem exceptionCause_eq_none {privM : Bool} {instr : Word}
    (h : architecturalCause privM instr = none) : exceptionCause privM instr = none := by
  unfold architecturalCause at h
  by_cases hecall : instr = 0x00000073#32
  · simp [hecall] at h
  by_cases hebreak : instr = 0x00100073#32
  · simp [hebreak] at h
  simp only [hecall, hebreak, if_false] at h
  cases hv : validEncoding instr with
  | false => simp [hv] at h
  | true =>
    have hk := validEncoding_opcode hv
    by_cases hs : instr.extractLsb 6 0 = opSystem
    · unfold exceptionCause
      simp only [hk, not_true_eq_false, if_false]
      rcases validEncoding_system hv hs with ⟨hf, hw⟩ | ⟨hf, hf'⟩
      · obtain rfl : instr = 0x30200073#32 := by tauto
        cases privM <;> rfl
      · have hc : csrUnknown (instr.extractLsb 31 20) = false := by
          by_contra hc
          simp [hv, hs, hf, hc] at h
        simp [hs, hf, hf', hc]
    · exact exceptionCause_known rfl hk hs

/-! ## The core -/

/-- **Exception classification.**  With `instr` captured in EX, from any register, CSR and
privilege state: it traps exactly when `exceptionCause` says so, with that `mcause`, its own
PC in `mepc` and control at `mtvec`, and nothing else but what trap entry does to the CSRs; nothing
without an architectural exception traps. -/
theorem exception_classification (s : Core) (i : CoreIn) (pc instr rs1Data rs2Data : Word)
    (h : s.idEx = IdEx.capture pc instr (decoder instr) (immgen instr) rs1Data rs2Data) :
    s.syncTrap = (exceptionCause s.csr.privM instr).isSome ∧
    (∀ cause, exceptionCause s.csr.privM instr = some cause → i.busStall = false →
      (s.nextCsr i true).mcause = cause ∧ (s.nextCsr i true).mepc = pc ∧
      s.nextCsr i true = s.csr.trapEntry pc cause ∧
      s.pcRedirect i = true ∧ s.pcTarget i = s.csr.mtvec) ∧
    (architecturalCause s.csr.privM instr = none → s.syncTrap = false) := by
  have hcause := decoder_exception s.csr.privM instr s.csrWdata
  have hsync : s.syncTrap = ((decoder instr).illegal || CsrAccess.csrIllegal
      { csrAddr := instr.extractLsb 31 20, csrWdata := s.csrWdata, csrOp := (decoder instr).csrOp
        csrRe := (decoder instr).csrRe, csrWe := (decoder instr).csrWe } ||
      (decoder instr).isEcall) := by
    rw [Core.syncTrap, Core.csrIllegal, Core.csrAccess, h]
    rfl
  rw [← hsync] at hcause
  have hsome : s.syncTrap = (exceptionCause s.csr.privM instr).isSome := by
    rw [hcause]
    cases s.syncTrap <;> rfl
  refine ⟨hsome, fun cause hc hs => ?_, fun hn => ?_⟩
  · have ht : s.syncTrap = true := by rw [hsome, hc]; rfl
    have hti : s.takeInterrupt i = false := by simp [Core.takeInterrupt, ht]
    have hcs : s.trapCause i = cause := by
      rw [hcause, if_pos ht, Option.some_inj] at hc
      rw [Core.trapCause, hti, ← hc, h]
      rfl
    have htrap : s.trap i = true := by rw [Core.trap, ht]; rfl
    have hentry : s.nextCsr i true = s.csr.trapEntry pc cause := by
      rw [Core.nextCsr_trap (by simp [Core.entersTrap, htrap, hs]), hcs, h]
      rfl
    refine ⟨?_, ?_, hentry, by simp [Core.pcRedirect, htrap], by simp [Core.pcTarget, htrap]⟩
    · rw [hentry, Csr.trapEntry_eq]
    · rw [hentry, Csr.trapEntry_eq]
  · rw [hsome, exceptionCause_eq_none hn]
    rfl

/-- `core` with `instr` in EX at address 0, everything else zero. -/
def inEx (instr : Word) : Core :=
  { (default : Core) with idEx := .capture 0 instr (decoder instr) (immgen instr) 0 0 }

/-- `ebreak` takes the path of `ecall`. -/
theorem exception_classification_ebreak :
    ((inEx 0x00100073).nextCsr default true).mcause = 8 ∧
      ((inEx 0x00100073).nextCsr default true).mepc = 0 :=
  have h := (exception_classification (inEx 0x00100073) default 0 0x00100073 0 0 rfl).2.1 8
    (by decide) rfl
  ⟨h.1, h.2.1⟩

/-- The classification is not the architectural one: `mul x3, x1, x2` runs as an `add`. -/
theorem exception_classification_not_architectural :
    ¬ ∀ (s : Core) (i : CoreIn) (pc instr rs1Data rs2Data : Word),
      s.idEx = IdEx.capture pc instr (decoder instr) (immgen instr) rs1Data rs2Data →
      s.syncTrap = (architecturalCause s.csr.privM instr).isSome ∧
      ∀ cause, architecturalCause s.csr.privM instr = some cause → i.busStall = false →
        (s.nextCsr i true).mcause = cause := by
  intro h
  have hmul := (h (inEx 0x022081B3) default 0 0x022081B3 0 0 rfl).1
  revert hmul
  decide

end Rv32i

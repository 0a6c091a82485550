import Mathlib.Tactic.SplitIfs

/-!
# The combinational units: `decoder`, `immgen`, `alu`, `branch_cmp`

Each definition is one module of `rtl/core`, case by case in the source's order.  A
Verilog slice `x[h:l]` is `x.extractLsb h l`, a concatenation is `++`, a replication is
`BitVec.replicate`.
-/

namespace Rv32i

/-- A 32-bit bus. -/
abbrev Word := BitVec 32

/-! ## `rv32i_defs.vh`: ALU operation select, `{instr[30], funct3}` -/

def aluAdd : BitVec 4 := 0b0000
def aluSll : BitVec 4 := 0b0001
def aluSlt : BitVec 4 := 0b0010
def aluSltu : BitVec 4 := 0b0011
def aluXor : BitVec 4 := 0b0100
def aluSrl : BitVec 4 := 0b0101
def aluOr : BitVec 4 := 0b0110
def aluAnd : BitVec 4 := 0b0111
def aluSub : BitVec 4 := 0b1000
def aluSra : BitVec 4 := 0b1101

/-! ## `alu` and `branch_cmp` -/

def alu (a b : Word) (aluOp : BitVec 4) : Word :=
  let shamt := b.extractLsb 4 0
  if aluOp = aluAdd then a + b
  else if aluOp = aluSub then a - b
  else if aluOp = aluAnd then a &&& b
  else if aluOp = aluOr then a ||| b
  else if aluOp = aluXor then a ^^^ b
  else if aluOp = aluSll then a <<< shamt
  else if aluOp = aluSrl then a >>> shamt
  else if aluOp = aluSra then a.sshiftRight shamt.toNat
  else if aluOp = aluSlt then (if a.slt b then 1 else 0)
  else if aluOp = aluSltu then (if a < b then 1 else 0)
  else 0

def branchCmp (a b : Word) (funct3 : BitVec 3) : Bool :=
  if funct3 = 0b000#3 then a == b
  else if funct3 = 0b001#3 then a != b
  else if funct3 = 0b100#3 then a.slt b
  else if funct3 = 0b101#3 then !a.slt b
  else if funct3 = 0b110#3 then a.ult b
  else if funct3 = 0b111#3 then !a.ult b
  else false

/-! ## `decoder` -/

/-- The decoder's outputs. -/
structure Decoded where
  rs1Addr : BitVec 5
  rs2Addr : BitVec 5
  rdAddr : BitVec 5
  funct3 : BitVec 3
  aluOp : BitVec 4
  /-- 0 = rs2, 1 = immediate -/
  aluSrc : Bool
  aluAPc : Bool
  aluAZero : Bool
  regWe : Bool
  memWe : Bool
  memRe : Bool
  /-- 0 = ALU, 1 = mem, 2 = PC+4, 3 = CSR -/
  wbSel : BitVec 2
  isBranch : Bool
  isJal : Bool
  isJalr : Bool
  illegal : Bool
  /-- 00 none, 01 rw, 10 rs, 11 rc -/
  csrOp : BitVec 2
  csrRe : Bool
  csrWe : Bool
  csrUseImm : Bool
  isMret : Bool
  isEcall : Bool

/-- The register fields, read from fixed positions, and the defaults of the `always` block. -/
def decoderDefaults (instr : Word) : Decoded where
  rs1Addr := instr.extractLsb 19 15
  rs2Addr := instr.extractLsb 24 20
  rdAddr := instr.extractLsb 11 7
  funct3 := instr.extractLsb 14 12
  aluOp := aluAdd
  aluSrc := true
  aluAPc := false
  aluAZero := false
  regWe := false
  memWe := false
  memRe := false
  wbSel := 0
  isBranch := false
  isJal := false
  isJalr := false
  illegal := false
  csrOp := 0
  csrRe := false
  csrWe := false
  csrUseImm := false
  isMret := false
  isEcall := false

/-- The SYSTEM arm, `instr[6:0] = 1110011`. -/
def decodeSystem (instr : Word) : Decoded :=
  let d := decoderDefaults instr
  if d.funct3 = 0b000#3 then
    if instr.extractLsb 31 20 = 0x000#12 then { d with isEcall := true }
    else if instr.extractLsb 31 20 = 0x001#12 then { d with isEcall := true }  -- ebreak, same trap path
    else if instr.extractLsb 31 20 = 0x302#12 then { d with isMret := true }
    else { d with illegal := true }
  else
    let op := d.funct3.extractLsb 1 0
    { d with
      regWe := true
      wbSel := 3
      csrUseImm := d.funct3.getLsbD 2
      csrOp := if op = 0b00#2 then 0 else op
      illegal := op == 0b00#2
      csrRe := !(op == 0b01#2 && d.rdAddr == 0#5)
      csrWe := !(op != 0b01#2 && instr.extractLsb 19 15 == 0#5) }

def decoder (instr : Word) : Decoded :=
  let d := decoderDefaults instr
  let opcode := instr.extractLsb 6 0
  if opcode = 0b0110111#7 then { d with regWe := true, aluAZero := true }                  -- LUI
  else if opcode = 0b0010111#7 then { d with regWe := true, aluAPc := true }               -- AUIPC
  else if opcode = 0b1101111#7 then { d with regWe := true, wbSel := 2, isJal := true }    -- JAL
  else if opcode = 0b1100011#7 then { d with isBranch := true }                            -- BRANCH
  else if opcode = 0b0100011#7 then { d with memWe := true }                               -- STORE
  else if opcode = 0b0110011#7 then                                                        -- OP
    { d with regWe := true, aluSrc := false, aluOp := instr.extractLsb 30 30 ++ d.funct3 }
  else if opcode = 0b1100111#7 then { d with regWe := true, wbSel := 2, isJalr := true }   -- JALR
  else if opcode = 0b0000011#7 then { d with regWe := true, memRe := true, wbSel := 1 }    -- LOAD
  else if opcode = 0b0010011#7 then                                                        -- OP-IMM
    -- bit 30 is an opcode bit for the right shifts only, else an immediate bit
    { d with
      regWe := true
      aluOp := (if d.funct3 = 0b101#3 then instr.extractLsb 30 30 else 0#1) ++ d.funct3 }
  else if opcode = 0b0001111#7 then d                                                      -- MISC-MEM
  else if opcode = 0b1110011#7 then decodeSystem instr                                     -- SYSTEM
  else { d with illegal := true }

/-! ## `immgen` -/

def immgen (instr : Word) : Word :=
  let opcode := instr.extractLsb 6 0
  let sign := instr.extractLsb 31 31
  if opcode = 0b0110111#7 ∨ opcode = 0b0010111#7 then instr.extractLsb 31 12 ++ 0#12       -- U
  else if opcode = 0b1101111#7 then                                                        -- J
    sign.replicate 11 ++ sign ++ instr.extractLsb 19 12 ++ instr.extractLsb 20 20 ++
      instr.extractLsb 30 21 ++ 0#1
  else if opcode = 0b1100011#7 then                                                        -- B
    sign.replicate 19 ++ sign ++ instr.extractLsb 7 7 ++ instr.extractLsb 30 25 ++
      instr.extractLsb 11 8 ++ 0#1
  else if opcode = 0b0100011#7 then                                                        -- S
    sign.replicate 20 ++ instr.extractLsb 31 25 ++ instr.extractLsb 11 7
  else if opcode = 0b1100111#7 ∨ opcode = 0b0000011#7 ∨ opcode = 0b0010011#7 ∨
      opcode = 0b0001111#7 ∨ opcode = 0b1110011#7 then                                     -- I
    sign.replicate 20 ++ instr.extractLsb 31 20
  else 0

/-! ## Facts of the decoder that the pipeline relies on -/

/-- `addi x0, x0, 0`, what `if_id_valid = 0` puts in front of the decoder. -/
def nop : Word := 0x00000013

/-- A memory read is the only source of a `wb_sel` of 1. -/
theorem decoder_wbSel_eq_one (instr : Word) :
    (decoder instr).wbSel = 1#2 ↔ (decoder instr).memRe = true := by
  fun_cases decoder instr
  case case11 => fun_cases decodeSystem instr <;> simp +zetaDelta [decoderDefaults]
  all_goals simp +zetaDelta [decoderDefaults]

/-- The source register numbers are read from fixed positions, whatever the opcode. -/
theorem decoder_rsAddr (instr : Word) :
    (decoder instr).rs1Addr = instr.extractLsb 19 15 ∧
      (decoder instr).rs2Addr = instr.extractLsb 24 20 := by
  fun_cases decoder instr
  case case11 => fun_cases decodeSystem instr <;> exact ⟨rfl, rfl⟩
  all_goals exact ⟨rfl, rfl⟩

end Rv32i

import Mathlib.Data.BitVec

/-!
# RV32I and Zicsr, instruction by instruction

What the RISC-V user-level ISA says of one instruction: its word (`encode`, by the tables of the
base formats) and its effect (`execute`), as a function of the `pc`, of the values of the two
source registers and of the CSRs.  An immediate is what the programmer writes; the formats say
where its bits go.

A CSR instruction reads a value and leaves one; what the CSR makes of it is the CSR's matter.
`execute` goes to the target of a jump whatever it is; `executeChecked` is the ISA's effect, where a
target that is not a multiple of 4 raises an exception.
-/

namespace Isa

abbrev Word : Type := BitVec 32

abbrev Reg : Type := BitVec 5

/-! ## Instructions -/

/-- The register-register operations. -/
inductive Op where
  | add | sub | sll | slt | sltu | xor | srl | sra | or | and
deriving DecidableEq

/-- Those with an immediate operand. -/
inductive ImmOp where
  | add | slt | sltu | xor | or | and
deriving DecidableEq

/-- Those with an immediate shift amount. -/
inductive ShiftOp where
  | sll | srl | sra
deriving DecidableEq

inductive BranchOp where
  | eq | ne | lt | ge | ltu | geu
deriving DecidableEq

inductive LoadOp where
  | lb | lh | lw | lbu | lhu
deriving DecidableEq

inductive StoreOp where
  | sb | sh | sw
deriving DecidableEq

inductive CsrOp where
  | rw | rs | rc
deriving DecidableEq

/-- The operand of a CSR instruction: a register, or five bits of immediate. -/
inductive CsrSrc where
  | reg (rs1 : Reg)
  | imm (uimm : BitVec 5)
deriving DecidableEq

/-- An instruction.  An offset is in units of two bytes, a `lui` or `auipc` immediate in units of
4096. -/
inductive Instr where
  | lui (rd : Reg) (imm : BitVec 20)
  | auipc (rd : Reg) (imm : BitVec 20)
  | jal (rd : Reg) (offset : BitVec 20)
  | jalr (rd rs1 : Reg) (imm : BitVec 12)
  | branch (op : BranchOp) (rs1 rs2 : Reg) (offset : BitVec 12)
  | load (op : LoadOp) (rd rs1 : Reg) (imm : BitVec 12)
  | store (op : StoreOp) (rs1 rs2 : Reg) (imm : BitVec 12)
  | opImm (op : ImmOp) (rd rs1 : Reg) (imm : BitVec 12)
  | shiftImm (op : ShiftOp) (rd rs1 : Reg) (shamt : BitVec 5)
  | op (op : Op) (rd rs1 rs2 : Reg)
  | fence (rd rs1 : Reg) (imm : BitVec 12)
  | ecall
  | ebreak
  | csr (op : CsrOp) (rd : Reg) (src : CsrSrc) (csr : BitVec 12)
deriving DecidableEq

/-! ## Immediates -/

/-- The value of an I or S immediate. -/
def immI (imm : BitVec 12) : Word := imm.signExtend 32

/-- The value of a B immediate. -/
def immB (offset : BitVec 12) : Word := (offset ++ 0#1).signExtend 32

/-- The value of a U immediate. -/
def immU (imm : BitVec 20) : Word := imm ++ 0#12

/-- The value of a J immediate. -/
def immJ (offset : BitVec 20) : Word := (offset ++ 0#1).signExtend 32

/-- The immediate operand. -/
def Instr.imm : Instr → Option Word
  | .lui _ imm | .auipc _ imm => some (immU imm)
  | .jal _ offset => some (immJ offset)
  | .branch _ _ _ offset => some (immB offset)
  | .jalr _ _ imm | .load _ _ _ imm | .store _ _ _ imm | .opImm _ _ _ imm => some (immI imm)
  | _ => none

/-! ## Encoding -/

section Formats

variable (funct7 : BitVec 7) (funct3 : BitVec 3) (opcode : BitVec 7) (rd rs1 rs2 : Reg)

def rType : Word := funct7 ++ rs2 ++ rs1 ++ funct3 ++ rd ++ opcode

def iType (imm : BitVec 12) : Word := imm ++ rs1 ++ funct3 ++ rd ++ opcode

/-- `imm[11:5]`, `imm[4:0]` -/
def sType (imm : BitVec 12) : Word :=
  imm.extractLsb 11 5 ++ rs2 ++ rs1 ++ funct3 ++ imm.extractLsb 4 0 ++ opcode

/-- `imm[12|10:5]`, `imm[4:1|11]` -/
def bType (imm : BitVec 13) : Word :=
  imm.extractLsb 12 12 ++ imm.extractLsb 10 5 ++ rs2 ++ rs1 ++ funct3 ++ imm.extractLsb 4 1 ++
    imm.extractLsb 11 11 ++ opcode

/-- `imm[31:12]` -/
def uType (imm : BitVec 20) : Word := imm ++ rd ++ opcode

/-- `imm[20|10:1|11|19:12]` -/
def jType (imm : BitVec 21) : Word :=
  imm.extractLsb 20 20 ++ imm.extractLsb 10 1 ++ imm.extractLsb 11 11 ++ imm.extractLsb 19 12 ++
    rd ++ opcode

end Formats

def Op.funct3 : Op → BitVec 3
  | .add | .sub => 0b000
  | .sll => 0b001
  | .slt => 0b010
  | .sltu => 0b011
  | .xor => 0b100
  | .srl | .sra => 0b101
  | .or => 0b110
  | .and => 0b111

def Op.funct7 : Op → BitVec 7
  | .sub | .sra => 0b0100000
  | _ => 0b0000000

/-- The operation that an immediate form performs. -/
def ImmOp.op : ImmOp → Op
  | .add => .add
  | .slt => .slt
  | .sltu => .sltu
  | .xor => .xor
  | .or => .or
  | .and => .and

def ShiftOp.op : ShiftOp → Op
  | .sll => .sll
  | .srl => .srl
  | .sra => .sra

def BranchOp.funct3 : BranchOp → BitVec 3
  | .eq => 0b000
  | .ne => 0b001
  | .lt => 0b100
  | .ge => 0b101
  | .ltu => 0b110
  | .geu => 0b111

def LoadOp.funct3 : LoadOp → BitVec 3
  | .lb => 0b000
  | .lh => 0b001
  | .lw => 0b010
  | .lbu => 0b100
  | .lhu => 0b101

def StoreOp.funct3 : StoreOp → BitVec 3
  | .sb => 0b000
  | .sh => 0b001
  | .sw => 0b010

def CsrOp.funct3 (op : CsrOp) : CsrSrc → BitVec 3
  | .reg _ => match op with | .rw => 0b001 | .rs => 0b010 | .rc => 0b011
  | .imm _ => match op with | .rw => 0b101 | .rs => 0b110 | .rc => 0b111

/-- The five bits where `rs1` stands. -/
def CsrSrc.field : CsrSrc → BitVec 5
  | .reg rs1 => rs1
  | .imm uimm => uimm

/-- The address of `mtvec`. -/
def mtvec : BitVec 12 := 0x305

def encode : Instr → Word
  | .lui rd imm => uType 0b0110111 rd imm
  | .auipc rd imm => uType 0b0010111 rd imm
  | .jal rd offset => jType 0b1101111 rd (offset ++ 0#1)
  | .jalr rd rs1 imm => iType 0b000 0b1100111 rd rs1 imm
  | .branch op rs1 rs2 offset => bType op.funct3 0b1100011 rs1 rs2 (offset ++ 0#1)
  | .load op rd rs1 imm => iType op.funct3 0b0000011 rd rs1 imm
  | .store op rs1 rs2 imm => sType op.funct3 0b0100011 rs1 rs2 imm
  | .opImm op rd rs1 imm => iType op.op.funct3 0b0010011 rd rs1 imm
  | .shiftImm op rd rs1 shamt => rType op.op.funct7 op.op.funct3 0b0010011 rd rs1 shamt
  | .op op rd rs1 rs2 => rType op.funct7 op.funct3 0b0110011 rd rs1 rs2
  | .fence rd rs1 imm => iType 0b000 0b0001111 rd rs1 imm
  | .ecall => 0x00000073
  | .ebreak => 0x00100073
  | .csr op rd src csr => iType (op.funct3 src) 0b1110011 rd src.field csr

/-! ### Fields -/

section Fields

variable (funct7 : BitVec 7) (funct3 : BitVec 3) (opcode : BitVec 7) (rd rs1 rs2 : Reg)

theorem rType_extract (start len : Nat) :
    (rType funct7 funct3 opcode rd rs1 rs2).extractLsb' start len =
      (funct7 ++ rs2 ++ rs1 ++ funct3 ++ rd ++ opcode).extractLsb' start len := rfl

theorem rType_fields :
    let w := rType funct7 funct3 opcode rd rs1 rs2
    w.extractLsb 6 0 = opcode ∧ w.extractLsb 11 7 = rd ∧ w.extractLsb 14 12 = funct3 ∧
      w.extractLsb 30 30 = funct7.extractLsb 5 5 ∧ w.extractLsb 31 20 = funct7 ++ rs2 := by
  intro w
  have h : w.extractLsb' 0 7 = opcode ∧ w.extractLsb' 7 5 = rd ∧ w.extractLsb' 12 3 = funct3 ∧
      w.extractLsb' 30 1 = funct7.extractLsb' 5 1 ∧ w.extractLsb' 20 12 = funct7 ++ rs2 := by
    simp (disch := decide) only [w, rType_extract, BitVec.extractLsb'_append_eq_of_le,
      BitVec.extractLsb'_append_eq_of_add_le, Nat.reduceSub, BitVec.extractLsb'_eq_self, and_self]
  exact h

theorem iType_extract (imm : BitVec 12) (start len : Nat) :
    (iType funct3 opcode rd rs1 imm).extractLsb' start len =
      (imm ++ rs1 ++ funct3 ++ rd ++ opcode).extractLsb' start len := rfl

theorem iType_fields (imm : BitVec 12) :
    let w := iType funct3 opcode rd rs1 imm
    w.extractLsb 6 0 = opcode ∧ w.extractLsb 11 7 = rd ∧ w.extractLsb 14 12 = funct3 ∧
      w.extractLsb 19 15 = rs1 ∧ w.extractLsb 31 20 = imm := by
  intro w
  have h : w.extractLsb' 0 7 = opcode ∧ w.extractLsb' 7 5 = rd ∧ w.extractLsb' 12 3 = funct3 ∧
      w.extractLsb' 15 5 = rs1 ∧ w.extractLsb' 20 12 = imm := by
    simp (disch := decide) only [w, iType_extract, BitVec.extractLsb'_append_eq_of_le,
      BitVec.extractLsb'_append_eq_of_add_le, Nat.reduceSub, BitVec.extractLsb'_eq_self, and_self]
  exact h

theorem sType_extract (imm : BitVec 12) (start len : Nat) :
    (sType funct3 opcode rs1 rs2 imm).extractLsb' start len =
      (imm.extractLsb' 5 7 ++ rs2 ++ rs1 ++ funct3 ++ imm.extractLsb' 0 5 ++ opcode).extractLsb'
        start len := rfl

theorem sType_fields (imm : BitVec 12) :
    let w := sType funct3 opcode rs1 rs2 imm
    w.extractLsb 6 0 = opcode ∧ w.extractLsb 14 12 = funct3 ∧
      w.extractLsb 31 25 ++ w.extractLsb 11 7 = imm := by
  intro w
  have h : w.extractLsb' 0 7 = opcode ∧ w.extractLsb' 12 3 = funct3 ∧
      w.extractLsb' 25 7 ++ w.extractLsb' 7 5 = imm.extractLsb' 5 7 ++ imm.extractLsb' 0 5 := by
    simp (disch := decide) only [w, sType_extract, BitVec.extractLsb'_append_eq_of_le,
      BitVec.extractLsb'_append_eq_of_add_le, Nat.reduceSub, BitVec.extractLsb'_eq_self, and_self]
  simp (disch := decide) only [BitVec.extractLsb'_append_extractLsb'_eq_extractLsb'] at h
  exact ⟨h.1, h.2.1, h.2.2.trans BitVec.extractLsb'_eq_self⟩

theorem bType_extract (imm : BitVec 13) (start len : Nat) :
    (bType funct3 opcode rs1 rs2 imm).extractLsb' start len =
      (imm.extractLsb' 12 1 ++ imm.extractLsb' 5 6 ++ rs2 ++ rs1 ++ funct3 ++ imm.extractLsb' 1 4 ++
        imm.extractLsb' 11 1 ++ opcode).extractLsb' start len := rfl

theorem bType_fields (imm : BitVec 13) :
    let w := bType funct3 opcode rs1 rs2 imm
    w.extractLsb 6 0 = opcode ∧ w.extractLsb 14 12 = funct3 ∧
      w.extractLsb 31 31 ++ w.extractLsb 7 7 ++ w.extractLsb 30 25 ++ w.extractLsb 11 8 =
        imm.extractLsb 12 1 := by
  intro w
  have h : w.extractLsb' 0 7 = opcode ∧ w.extractLsb' 12 3 = funct3 ∧
      w.extractLsb' 31 1 ++ w.extractLsb' 7 1 ++ w.extractLsb' 25 6 ++ w.extractLsb' 8 4 =
        imm.extractLsb' 12 1 ++ imm.extractLsb' 11 1 ++ imm.extractLsb' 5 6 ++
          imm.extractLsb' 1 4 := by
    simp (disch := decide) only [w, bType_extract, BitVec.extractLsb'_append_eq_of_le,
      BitVec.extractLsb'_append_eq_of_add_le, Nat.reduceSub, BitVec.extractLsb'_eq_self, and_self]
  simp (disch := decide) only [BitVec.extractLsb'_append_extractLsb'_eq_extractLsb'] at h
  exact h

theorem uType_fields (imm : BitVec 20) :
    let w := uType opcode rd imm
    w.extractLsb 6 0 = opcode ∧ w.extractLsb 11 7 = rd ∧ w.extractLsb 31 12 = imm := by
  intro w
  have hw : ∀ start len, w.extractLsb' start len = (imm ++ rd ++ opcode).extractLsb' start len :=
    fun _ _ => rfl
  have h : w.extractLsb' 0 7 = opcode ∧ w.extractLsb' 7 5 = rd ∧ w.extractLsb' 12 20 = imm := by
    simp (disch := decide) only [hw, BitVec.extractLsb'_append_eq_of_le,
      BitVec.extractLsb'_append_eq_of_add_le, Nat.reduceSub, BitVec.extractLsb'_eq_self, and_self]
  exact h

theorem jType_extract (imm : BitVec 21) (start len : Nat) :
    (jType opcode rd imm).extractLsb' start len =
      (imm.extractLsb' 20 1 ++ imm.extractLsb' 1 10 ++ imm.extractLsb' 11 1 ++ imm.extractLsb' 12 8 ++
        rd ++ opcode).extractLsb' start len := rfl

theorem jType_fields (imm : BitVec 21) :
    let w := jType opcode rd imm
    w.extractLsb 6 0 = opcode ∧ w.extractLsb 11 7 = rd ∧
      w.extractLsb 31 31 ++ w.extractLsb 19 12 ++ w.extractLsb 20 20 ++ w.extractLsb 30 21 =
        imm.extractLsb 20 1 := by
  intro w
  have h : w.extractLsb' 0 7 = opcode ∧ w.extractLsb' 7 5 = rd ∧
      w.extractLsb' 31 1 ++ w.extractLsb' 12 8 ++ w.extractLsb' 20 1 ++ w.extractLsb' 21 10 =
        imm.extractLsb' 20 1 ++ imm.extractLsb' 12 8 ++ imm.extractLsb' 11 1 ++
          imm.extractLsb' 1 10 := by
    simp (disch := decide) only [w, jType_extract, BitVec.extractLsb'_append_eq_of_le,
      BitVec.extractLsb'_append_eq_of_add_le, Nat.reduceSub, BitVec.extractLsb'_eq_self, and_self]
  simp (disch := decide) only [BitVec.extractLsb'_append_extractLsb'_eq_extractLsb'] at h
  exact h

end Fields

/-! ### A word is what its fields make of it -/

section Eta

variable (w : Word)

theorem rType_eta :
    rType (w.extractLsb 31 25) (w.extractLsb 14 12) (w.extractLsb 6 0) (w.extractLsb 11 7)
      (w.extractLsb 19 15) (w.extractLsb 24 20) = w := by
  have h : w.extractLsb' 25 7 ++ w.extractLsb' 20 5 ++ w.extractLsb' 15 5 ++ w.extractLsb' 12 3 ++
      w.extractLsb' 7 5 ++ w.extractLsb' 0 7 = w.extractLsb' 0 32 := by
    simp (disch := decide) only [BitVec.extractLsb'_append_extractLsb'_eq_extractLsb']
  exact h.trans BitVec.extractLsb'_eq_self

theorem iType_eta :
    iType (w.extractLsb 14 12) (w.extractLsb 6 0) (w.extractLsb 11 7)
      (w.extractLsb 19 15) (w.extractLsb 31 20) = w := by
  have h : w.extractLsb' 20 12 ++ w.extractLsb' 15 5 ++ w.extractLsb' 12 3 ++
      w.extractLsb' 7 5 ++ w.extractLsb' 0 7 = w.extractLsb' 0 32 := by
    simp (disch := decide) only [BitVec.extractLsb'_append_extractLsb'_eq_extractLsb']
  exact h.trans BitVec.extractLsb'_eq_self

theorem sType_eta :
    sType (w.extractLsb 14 12) (w.extractLsb 6 0) (w.extractLsb 19 15) (w.extractLsb 24 20)
      (w.extractLsb 31 25 ++ w.extractLsb 11 7) = w := by
  have h : (w.extractLsb' 25 7 ++ w.extractLsb' 7 5).extractLsb' 5 7 ++ w.extractLsb' 20 5 ++
      w.extractLsb' 15 5 ++ w.extractLsb' 12 3 ++
      (w.extractLsb' 25 7 ++ w.extractLsb' 7 5).extractLsb' 0 5 ++ w.extractLsb' 0 7 =
        w.extractLsb' 0 32 := by
    simp (disch := decide) only [BitVec.extractLsb'_append_eq_of_le,
      BitVec.extractLsb'_append_eq_of_add_le, Nat.reduceSub, BitVec.extractLsb'_eq_self,
      BitVec.extractLsb'_append_extractLsb'_eq_extractLsb']
  exact h.trans BitVec.extractLsb'_eq_self

/-- Instruction bits 31, 7, 30:25, 11:8. -/
theorem bType_eta :
    bType (w.extractLsb 14 12) (w.extractLsb 6 0) (w.extractLsb 19 15) (w.extractLsb 24 20)
      (w.extractLsb 31 31 ++ w.extractLsb 7 7 ++ w.extractLsb 30 25 ++ w.extractLsb 11 8 ++ 0#1) =
        w := by
  let v : BitVec 13 :=
    w.extractLsb' 31 1 ++ w.extractLsb' 7 1 ++ w.extractLsb' 25 6 ++ w.extractLsb' 8 4 ++ 0#1
  have hv : ∀ lo n, v.extractLsb' lo n =
      (w.extractLsb' 31 1 ++ w.extractLsb' 7 1 ++ w.extractLsb' 25 6 ++ w.extractLsb' 8 4 ++
        0#1).extractLsb' lo n := fun _ _ => rfl
  have hf : v.extractLsb' 12 1 = w.extractLsb' 31 1 ∧ v.extractLsb' 5 6 = w.extractLsb' 25 6 ∧
      v.extractLsb' 1 4 = w.extractLsb' 8 4 ∧ v.extractLsb' 11 1 = w.extractLsb' 7 1 := by
    simp (disch := decide) only [hv, BitVec.extractLsb'_append_eq_of_le,
      BitVec.extractLsb'_append_eq_of_add_le, Nat.reduceSub, BitVec.extractLsb'_eq_self, and_self]
  have h : v.extractLsb' 12 1 ++ v.extractLsb' 5 6 ++ w.extractLsb' 20 5 ++ w.extractLsb' 15 5 ++
      w.extractLsb' 12 3 ++ v.extractLsb' 1 4 ++ v.extractLsb' 11 1 ++ w.extractLsb' 0 7 =
        w.extractLsb' 0 32 := by
    rw [hf.1, hf.2.1, hf.2.2.1, hf.2.2.2]
    simp (disch := decide) only [BitVec.extractLsb'_append_extractLsb'_eq_extractLsb']
  exact h.trans BitVec.extractLsb'_eq_self

theorem uType_eta : uType (w.extractLsb 6 0) (w.extractLsb 11 7) (w.extractLsb 31 12) = w := by
  have h : w.extractLsb' 12 20 ++ w.extractLsb' 7 5 ++ w.extractLsb' 0 7 = w.extractLsb' 0 32 := by
    simp (disch := decide) only [BitVec.extractLsb'_append_extractLsb'_eq_extractLsb']
  exact h.trans BitVec.extractLsb'_eq_self

/-- Instruction bits 31, 19:12, 20, 30:21. -/
theorem jType_eta :
    jType (w.extractLsb 6 0) (w.extractLsb 11 7)
      (w.extractLsb 31 31 ++ w.extractLsb 19 12 ++ w.extractLsb 20 20 ++ w.extractLsb 30 21 ++
        0#1) = w := by
  let v : BitVec 21 :=
    w.extractLsb' 31 1 ++ w.extractLsb' 12 8 ++ w.extractLsb' 20 1 ++ w.extractLsb' 21 10 ++ 0#1
  have hv : ∀ lo n, v.extractLsb' lo n =
      (w.extractLsb' 31 1 ++ w.extractLsb' 12 8 ++ w.extractLsb' 20 1 ++ w.extractLsb' 21 10 ++
        0#1).extractLsb' lo n := fun _ _ => rfl
  have hf : v.extractLsb' 20 1 = w.extractLsb' 31 1 ∧ v.extractLsb' 1 10 = w.extractLsb' 21 10 ∧
      v.extractLsb' 11 1 = w.extractLsb' 20 1 ∧ v.extractLsb' 12 8 = w.extractLsb' 12 8 := by
    simp (disch := decide) only [hv, BitVec.extractLsb'_append_eq_of_le,
      BitVec.extractLsb'_append_eq_of_add_le, Nat.reduceSub, BitVec.extractLsb'_eq_self, and_self]
  have h : v.extractLsb' 20 1 ++ v.extractLsb' 1 10 ++ v.extractLsb' 11 1 ++ v.extractLsb' 12 8 ++
      w.extractLsb' 7 5 ++ w.extractLsb' 0 7 = w.extractLsb' 0 32 := by
    rw [hf.1, hf.2.1, hf.2.2.1, hf.2.2.2]
    simp (disch := decide) only [BitVec.extractLsb'_append_extractLsb'_eq_extractLsb']
  exact h.trans BitVec.extractLsb'_eq_self

end Eta

/-! ## Effects -/

def Op.eval (a b : Word) : Op → Word
  | .add => a + b
  | .sub => a - b
  | .sll => a <<< (b.toNat % 32)
  | .slt => if a.toInt < b.toInt then 1 else 0
  | .sltu => if a.toNat < b.toNat then 1 else 0
  | .xor => a ^^^ b
  | .srl => a >>> (b.toNat % 32)
  | .sra => a.sshiftRight (b.toNat % 32)
  | .or => a ||| b
  | .and => a &&& b

def BranchOp.taken (a b : Word) : BranchOp → Bool
  | .eq => a = b
  | .ne => a ≠ b
  | .lt => a.toInt < b.toInt
  | .ge => b.toInt ≤ a.toInt
  | .ltu => a.toNat < b.toNat
  | .geu => b.toNat ≤ a.toNat

/-- Bytes accessed. -/
def LoadOp.size : LoadOp → Nat
  | .lb | .lbu => 1
  | .lh | .lhu => 2
  | .lw => 4

/-- The value loaded, from the bytes at the address. -/
def LoadOp.value (bytes : Word → BitVec 8) (a : Word) : LoadOp → Word
  | .lb => (bytes a).signExtend 32
  | .lh => (bytes (a + 1) ++ bytes a).signExtend 32
  | .lw => bytes (a + 3) ++ bytes (a + 2) ++ bytes (a + 1) ++ bytes a
  | .lbu => (bytes a).zeroExtend 32
  | .lhu => (bytes (a + 1) ++ bytes a).zeroExtend 32

def StoreOp.size : StoreOp → Nat
  | .sb => 1
  | .sh => 2
  | .sw => 4

/-- What an instruction does with memory: a load gets a value, a store leaves the low bytes of
its data. -/
inductive Access where
  | load (op : LoadOp) (addr : Word)
  | store (size : Nat) (addr data : Word)

/-- What a destination register gets. -/
inductive RdValue where
  | value (v : Word)
  | loaded
deriving DecidableEq

/-- The value, once the load has its own. -/
def RdValue.get (loaded : Word) : RdValue → Word
  | .value v => v
  | .loaded => loaded

structure Effect where
  /-- the register written; x0 never is -/
  rd : Option (Reg × RdValue)
  access : Option Access
  /-- where control goes if not to the next instruction -/
  redirect : Option Word
  /-- the instruction traps -/
  traps : Bool
  /-- the CSR written, and the value for it -/
  csr : Option (BitVec 12 × Word)

/-- An instruction that goes on to the next and does nothing. -/
def Effect.nothing : Effect := ⟨none, none, none, false, none⟩

def writeRd (rd : Reg) (v : RdValue) : Option (Reg × RdValue) :=
  if rd = 0#5 then none else some (rd, v)

def CsrSrc.value (rs1 : Word) : CsrSrc → Word
  | .reg _ => rs1
  | .imm uimm => uimm.zeroExtend 32

/-- The value that a CSR instruction leaves. -/
def CsrOp.new (old v : Word) : CsrOp → Word
  | .rw => v
  | .rs => old ||| v
  | .rc => old &&& ~~~v

/-- A set or clear with x0 or a zero immediate writes nothing. -/
def CsrOp.writes (src : CsrSrc) : CsrOp → Bool
  | .rw => true
  | .rs | .rc => src.field != 0#5

/-- The effect, given the `pc`, the source registers and the CSRs; the target of a jump is not
checked. -/
def execute (pc rs1 rs2 : Word) (csrs : BitVec 12 → Word) : Instr → Effect
  | .lui rd imm => { Effect.nothing with rd := writeRd rd (.value (immU imm)) }
  | .auipc rd imm => { Effect.nothing with rd := writeRd rd (.value (pc + immU imm)) }
  | .jal rd offset =>
    { Effect.nothing with rd := writeRd rd (.value (pc + 4)), redirect := some (pc + immJ offset) }
  | .jalr rd _ imm =>
    { Effect.nothing with
      rd := writeRd rd (.value (pc + 4)), redirect := some ((rs1 + immI imm) &&& ~~~1) }
  | .branch op _ _ offset =>
    { Effect.nothing with redirect := if op.taken rs1 rs2 then some (pc + immB offset) else none }
  | .load op rd _ imm =>
    { Effect.nothing with rd := writeRd rd .loaded, access := some (.load op (rs1 + immI imm)) }
  | .store op _ _ imm =>
    { Effect.nothing with access := some (.store op.size (rs1 + immI imm) rs2) }
  | .opImm op rd _ imm =>
    { Effect.nothing with rd := writeRd rd (.value (op.op.eval rs1 (immI imm))) }
  | .shiftImm op rd _ shamt =>
    { Effect.nothing with rd := writeRd rd (.value (op.op.eval rs1 (shamt.zeroExtend 32))) }
  | .op op rd _ _ => { Effect.nothing with rd := writeRd rd (.value (op.eval rs1 rs2)) }
  | .fence _ _ _ => Effect.nothing
  | .ecall | .ebreak => { Effect.nothing with redirect := some (csrs mtvec), traps := true }
  | .csr op rd src csr =>
    { Effect.nothing with
      rd := writeRd rd (.value (csrs csr))
      csr := if op.writes src then some (csr, op.new (csrs csr) (src.value rs1)) else none }

/-- A jump or a taken branch to where no instruction can start. -/
def Effect.misaligned (e : Effect) : Bool :=
  !e.traps && e.redirect.any fun target => target.extractLsb 1 0 != 0#2

/-- The effect of the ISA: the exception of a misaligned target (IALIGN is 32) is raised on the jump
or branch, which leaves its destination register alone. -/
def executeChecked (pc rs1 rs2 : Word) (csrs : BitVec 12 → Word) (i : Instr) : Effect :=
  let e := execute pc rs1 rs2 csrs i
  if e.misaligned then { Effect.nothing with redirect := some (csrs mtvec), traps := true } else e

theorem executeChecked_of_aligned {pc rs1 rs2 : Word} {csrs : BitVec 12 → Word} {i : Instr}
    (h : (execute pc rs1 rs2 csrs i).misaligned = false) :
    executeChecked pc rs1 rs2 csrs i = execute pc rs1 rs2 csrs i :=
  if_neg (by rw [h]; exact Bool.false_ne_true)

/-- A misaligned target traps there and not in `execute`. -/
theorem traps_of_misaligned {pc rs1 rs2 : Word} {csrs : BitVec 12 → Word} {i : Instr}
    (h : (execute pc rs1 rs2 csrs i).misaligned = true) :
    (execute pc rs1 rs2 csrs i).traps = false ∧ (executeChecked pc rs1 rs2 csrs i).traps = true := by
  constructor
  · rw [Effect.misaligned, Bool.and_eq_true, Bool.not_eq_true'] at h
    exact h.1
  · rw [executeChecked, if_pos h]

end Isa

import Rv32iCore.Spec.Isa

/-!
# Reading an instruction word

`decode` is the other direction of `encode`: the opcode chooses the format and the table, and the
first entry with the function codes of the word is the operation.  A word that `encode` gives to no
instruction has no reading.

    decode_eq_some_iff     the two directions
-/

namespace Isa

/-! ## The tables -/

def Op.all : List Op := [.add, .sub, .sll, .slt, .sltu, .xor, .srl, .sra, .or, .and]

def ImmOp.all : List ImmOp := [.add, .slt, .sltu, .xor, .or, .and]

def ShiftOp.all : List ShiftOp := [.sll, .srl, .sra]

def BranchOp.all : List BranchOp := [.eq, .ne, .lt, .ge, .ltu, .geu]

def LoadOp.all : List LoadOp := [.lb, .lh, .lw, .lbu, .lhu]

def StoreOp.all : List StoreOp := [.sb, .sh, .sw]

def CsrOp.all : List CsrOp := [.rw, .rs, .rc]

/-- The operand of a CSR instruction, from the top bit of `funct3`. -/
def CsrSrc.ofField (funct3 : BitVec 3) (field : BitVec 5) : CsrSrc :=
  if funct3.getLsbD 2 then .imm field else .reg field

/-- The OP-IMM words: a shift has codes of its own. -/
def decodeOpImm (w : Word) : Option Instr :=
  let rd := w.extractLsb 11 7
  let rs1 := w.extractLsb 19 15
  match ImmOp.all.find? fun op => op.op.funct3 == w.extractLsb 14 12 with
  | some op => some (.opImm op rd rs1 (w.extractLsb 31 20))
  | none =>
    (ShiftOp.all.find? fun op =>
        op.op.funct3 == w.extractLsb 14 12 && op.op.funct7 == w.extractLsb 31 25).map fun op =>
      .shiftImm op rd rs1 (w.extractLsb 24 20)

/-- The SYSTEM words of the user-level ISA. -/
def decodeSystem (w : Word) : Option Instr :=
  if w = 0x00000073#32 then some .ecall
  else if w = 0x00100073#32 then some .ebreak
  else
    let src := CsrSrc.ofField (w.extractLsb 14 12) (w.extractLsb 19 15)
    (CsrOp.all.find? fun op => op.funct3 src == w.extractLsb 14 12).map fun op =>
      .csr op (w.extractLsb 11 7) src (w.extractLsb 31 20)

/-- The opcodes, and how to read their words. -/
def formats : List (BitVec 7 × (Word → Option Instr)) :=
  [(0b0110111, fun w => some (.lui (w.extractLsb 11 7) (w.extractLsb 31 12))),
    (0b0010111, fun w => some (.auipc (w.extractLsb 11 7) (w.extractLsb 31 12))),
    (0b1101111, fun w => some (.jal (w.extractLsb 11 7)
      (w.extractLsb 31 31 ++ w.extractLsb 19 12 ++ w.extractLsb 20 20 ++ w.extractLsb 30 21))),
    (0b1100111, fun w =>
      if w.extractLsb 14 12 = 0b000#3 then
        some (.jalr (w.extractLsb 11 7) (w.extractLsb 19 15) (w.extractLsb 31 20))
      else none),
    (0b1100011, fun w =>
      (BranchOp.all.find? fun op => op.funct3 == w.extractLsb 14 12).map fun op =>
        .branch op (w.extractLsb 19 15) (w.extractLsb 24 20)
          (w.extractLsb 31 31 ++ w.extractLsb 7 7 ++ w.extractLsb 30 25 ++ w.extractLsb 11 8)),
    (0b0000011, fun w =>
      (LoadOp.all.find? fun op => op.funct3 == w.extractLsb 14 12).map fun op =>
        .load op (w.extractLsb 11 7) (w.extractLsb 19 15) (w.extractLsb 31 20)),
    (0b0100011, fun w =>
      (StoreOp.all.find? fun op => op.funct3 == w.extractLsb 14 12).map fun op =>
        .store op (w.extractLsb 19 15) (w.extractLsb 24 20)
          (w.extractLsb 31 25 ++ w.extractLsb 11 7)),
    (0b0010011, decodeOpImm),
    (0b0110011, fun w =>
      (Op.all.find? fun op =>
          op.funct3 == w.extractLsb 14 12 && op.funct7 == w.extractLsb 31 25).map fun op =>
        .op op (w.extractLsb 11 7) (w.extractLsb 19 15) (w.extractLsb 24 20)),
    (0b0001111, fun w =>
      if w.extractLsb 14 12 = 0b000#3 then
        some (.fence (w.extractLsb 11 7) (w.extractLsb 19 15) (w.extractLsb 31 20))
      else none),
    (0b1110011, decodeSystem)]

/-- The instruction of a word. -/
def decode (w : Word) : Option Instr :=
  (formats.find? fun format => format.1 == w.extractLsb 6 0).bind fun format => format.2 w

/-! ## What is read is what was written -/

section Fields

variable (funct7 : BitVec 7) (funct3 : BitVec 3) (opcode : BitVec 7) (rd rs1 rs2 : Reg)

/-- The fields of an R word that stand where another format has its immediate. -/
theorem rType_regs :
    let w := rType funct7 funct3 opcode rd rs1 rs2
    w.extractLsb 19 15 = rs1 ∧ w.extractLsb 24 20 = rs2 ∧ w.extractLsb 31 25 = funct7 := by
  intro w
  have h : w.extractLsb' 15 5 = rs1 ∧ w.extractLsb' 20 5 = rs2 ∧ w.extractLsb' 25 7 = funct7 := by
    simp (disch := decide) only [w, rType_extract, BitVec.extractLsb'_append_eq_of_le,
      BitVec.extractLsb'_append_eq_of_add_le, Nat.reduceSub, BitVec.extractLsb'_eq_self, and_self]
  exact h

theorem sType_regs (imm : BitVec 12) :
    let w := sType funct3 opcode rs1 rs2 imm
    w.extractLsb 19 15 = rs1 ∧ w.extractLsb 24 20 = rs2 := by
  intro w
  have h : w.extractLsb' 15 5 = rs1 ∧ w.extractLsb' 20 5 = rs2 := by
    simp (disch := decide) only [w, sType_extract, BitVec.extractLsb'_append_eq_of_le,
      BitVec.extractLsb'_append_eq_of_add_le, Nat.reduceSub, BitVec.extractLsb'_eq_self, and_self]
  exact h

theorem bType_regs (imm : BitVec 13) :
    let w := bType funct3 opcode rs1 rs2 imm
    w.extractLsb 19 15 = rs1 ∧ w.extractLsb 24 20 = rs2 := by
  intro w
  have h : w.extractLsb' 15 5 = rs1 ∧ w.extractLsb' 20 5 = rs2 := by
    simp (disch := decide) only [w, bType_extract, BitVec.extractLsb'_append_eq_of_le,
      BitVec.extractLsb'_append_eq_of_add_le, Nat.reduceSub, BitVec.extractLsb'_eq_self, and_self]
  exact h

/-- An offset without its low zero. -/
theorem drop_zero {n : Nat} (x : BitVec n) : (x ++ 0#1).extractLsb' 1 n = x := by
  rw [BitVec.extractLsb'_append_eq_of_le (Nat.le_refl 1), Nat.sub_self, BitVec.extractLsb'_eq_self]

end Fields

theorem CsrSrc.ofField_funct3 (op : CsrOp) (src : CsrSrc) :
    CsrSrc.ofField (op.funct3 src) src.field = src := by
  cases op <;> cases src <;> simp [ofField, field, CsrOp.funct3]

theorem CsrOp.funct3_ne_zero (op : CsrOp) (src : CsrSrc) : op.funct3 src ≠ 0b000#3 := by
  cases op <;> cases src <;> simp [CsrOp.funct3]

/-- The entry of an operation is found by its codes. -/
theorem Op.find (op : Op) :
    (Op.all.find? fun o => o.funct3 == op.funct3 && o.funct7 == op.funct7) = some op := by
  cases op <;> rfl

theorem ImmOp.find (op : ImmOp) :
    (ImmOp.all.find? fun o => o.op.funct3 == op.op.funct3) = some op := by
  cases op <;> rfl

/-- A shift is none of the others. -/
theorem ShiftOp.find (op : ShiftOp) :
    (ImmOp.all.find? fun o => o.op.funct3 == op.op.funct3) = none ∧
      (ShiftOp.all.find? fun o => o.op.funct3 == op.op.funct3 && o.op.funct7 == op.op.funct7) =
        some op := by
  cases op <;> exact ⟨rfl, rfl⟩

theorem BranchOp.find (op : BranchOp) :
    (BranchOp.all.find? fun o => o.funct3 == op.funct3) = some op := by
  cases op <;> rfl

theorem LoadOp.find (op : LoadOp) :
    (LoadOp.all.find? fun o => o.funct3 == op.funct3) = some op := by
  cases op <;> rfl

theorem StoreOp.find (op : StoreOp) :
    (StoreOp.all.find? fun o => o.funct3 == op.funct3) = some op := by
  cases op <;> rfl

theorem CsrOp.find (op : CsrOp) (src : CsrSrc) :
    (CsrOp.all.find? fun o => o.funct3 src == op.funct3 src) = some op := by
  cases op <;> cases src <;> rfl

theorem decode_encode (i : Instr) : decode (encode i) = some i := by
  generalize hw : encode i = w
  cases i with
  | lui rd imm =>
    obtain ⟨hop, hrd, himm⟩ := uType_fields 0b0110111#7 rd imm
    rw [show uType 0b0110111#7 rd imm = w from hw] at hop hrd himm
    simp [decode, formats, hop, hrd, himm]
  | auipc rd imm =>
    obtain ⟨hop, hrd, himm⟩ := uType_fields 0b0010111#7 rd imm
    rw [show uType 0b0010111#7 rd imm = w from hw] at hop hrd himm
    simp [decode, formats, hop, hrd, himm]
  | jal rd offset =>
    obtain ⟨hop, hrd, himm⟩ := jType_fields 0b1101111#7 rd (offset ++ 0#1)
    rw [show jType 0b1101111#7 rd (offset ++ 0#1) = w from hw] at hop hrd himm
    simp [decode, formats, hop, hrd, himm.trans (drop_zero offset)]
  | jalr rd rs1 imm =>
    obtain ⟨hop, hrd, hf, hrs1, himm⟩ := iType_fields 0b000#3 0b1100111#7 rd rs1 imm
    rw [show iType 0b000#3 0b1100111#7 rd rs1 imm = w from hw] at hop hrd hf hrs1 himm
    simp [decode, formats, hop, hrd, hf, hrs1, himm]
  | branch op rs1 rs2 offset =>
    obtain ⟨hop, hf, himm⟩ := bType_fields op.funct3 0b1100011#7 rs1 rs2 (offset ++ 0#1)
    obtain ⟨hrs1, hrs2⟩ := bType_regs op.funct3 0b1100011#7 rs1 rs2 (offset ++ 0#1)
    rw [show bType op.funct3 0b1100011#7 rs1 rs2 (offset ++ 0#1) = w from hw]
      at hop hf himm hrs1 hrs2
    simp [decode, formats, hop, hf, hrs1, hrs2, himm.trans (drop_zero offset), op.find]
  | load op rd rs1 imm =>
    obtain ⟨hop, hrd, hf, hrs1, himm⟩ := iType_fields op.funct3 0b0000011#7 rd rs1 imm
    rw [show iType op.funct3 0b0000011#7 rd rs1 imm = w from hw] at hop hrd hf hrs1 himm
    simp [decode, formats, hop, hrd, hf, hrs1, himm, op.find]
  | store op rs1 rs2 imm =>
    obtain ⟨hop, hf, himm⟩ := sType_fields op.funct3 0b0100011#7 rs1 rs2 imm
    obtain ⟨hrs1, hrs2⟩ := sType_regs op.funct3 0b0100011#7 rs1 rs2 imm
    rw [show sType op.funct3 0b0100011#7 rs1 rs2 imm = w from hw] at hop hf himm hrs1 hrs2
    simp [decode, formats, hop, hf, hrs1, hrs2, himm, op.find]
  | opImm op rd rs1 imm =>
    obtain ⟨hop, hrd, hf, hrs1, himm⟩ := iType_fields op.op.funct3 0b0010011#7 rd rs1 imm
    rw [show iType op.op.funct3 0b0010011#7 rd rs1 imm = w from hw] at hop hrd hf hrs1 himm
    simp [decode, formats, decodeOpImm, hop, hrd, hf, hrs1, himm, op.find]
  | shiftImm op rd rs1 shamt =>
    obtain ⟨hop, hrd, hf, -, -⟩ := rType_fields op.op.funct7 op.op.funct3 0b0010011#7 rd rs1 shamt
    obtain ⟨hrs1, hrs2, hf7⟩ := rType_regs op.op.funct7 op.op.funct3 0b0010011#7 rd rs1 shamt
    rw [show rType op.op.funct7 op.op.funct3 0b0010011#7 rd rs1 shamt = w from hw]
      at hop hrd hf hrs1 hrs2 hf7
    simp [decode, formats, decodeOpImm, hop, hrd, hf, hrs1, hrs2, hf7, op.find.1, op.find.2]
  | op op rd rs1 rs2 =>
    obtain ⟨hop, hrd, hf, -, -⟩ := rType_fields op.funct7 op.funct3 0b0110011#7 rd rs1 rs2
    obtain ⟨hrs1, hrs2, hf7⟩ := rType_regs op.funct7 op.funct3 0b0110011#7 rd rs1 rs2
    rw [show rType op.funct7 op.funct3 0b0110011#7 rd rs1 rs2 = w from hw]
      at hop hrd hf hrs1 hrs2 hf7
    simp [decode, formats, hop, hrd, hf, hrs1, hrs2, hf7, op.find]
  | fence rd rs1 imm =>
    obtain ⟨hop, hrd, hf, hrs1, himm⟩ := iType_fields 0b000#3 0b0001111#7 rd rs1 imm
    rw [show iType 0b000#3 0b0001111#7 rd rs1 imm = w from hw] at hop hrd hf hrs1 himm
    simp [decode, formats, hop, hrd, hf, hrs1, himm]
  | ecall =>
    subst hw
    rfl
  | ebreak =>
    subst hw
    rfl
  | csr op rd src csr =>
    obtain ⟨hop, hrd, hf, hsrc, hcsr⟩ :=
      iType_fields (op.funct3 src) 0b1110011#7 rd src.field csr
    rw [show iType (op.funct3 src) 0b1110011#7 rd src.field csr = w from hw]
      at hop hrd hf hsrc hcsr
    have hne : w ≠ 0x00000073#32 ∧ w ≠ 0x00100073#32 :=
      ⟨fun h => op.funct3_ne_zero src (by rw [← hf, h]; rfl),
        fun h => op.funct3_ne_zero src (by rw [← hf, h]; rfl)⟩
    simp [decode, formats, decodeSystem, hop, hrd, hf, hsrc, hcsr, hne, CsrSrc.ofField_funct3, op.find src]

/-- An entry that is found has the codes. -/
theorem find_map {α β : Type} {l : List α} {p : α → Bool} {f : α → β} {b : β}
    (h : (l.find? p).map f = some b) : ∃ a, p a = true ∧ f a = b := by
  obtain ⟨a, ha, hb⟩ := Option.map_eq_some_iff.1 h
  exact ⟨a, List.find?_some ha, hb⟩

theorem encode_decodeOpImm {w : Word} {i : Instr} (hop : w.extractLsb 6 0 = 0b0010011#7)
    (h : decodeOpImm w = some i) : encode i = w := by
  unfold decodeOpImm at h
  cases hfind : ImmOp.all.find? fun op => op.op.funct3 == w.extractLsb 14 12 with
  | some op =>
    rw [hfind] at h
    obtain rfl := Option.some.inj h
    have hf := List.find?_some hfind
    rw [beq_iff_eq] at hf
    have hw := iType_eta w
    rw [← hf, hop] at hw
    exact hw
  | none =>
    rw [hfind] at h
    obtain ⟨op, hcodes, rfl⟩ := find_map h
    rw [Bool.and_eq_true, beq_iff_eq, beq_iff_eq] at hcodes
    have hw := rType_eta w
    rw [← hcodes.1, ← hcodes.2, hop] at hw
    exact hw

theorem encode_decodeSystem {w : Word} {i : Instr} (hop : w.extractLsb 6 0 = 0b1110011#7)
    (h : decodeSystem w = some i) : encode i = w := by
  unfold decodeSystem at h
  by_cases hecall : w = 0x00000073#32
  · rw [if_pos hecall] at h
    rw [← Option.some.inj h, hecall]
    rfl
  rw [if_neg hecall] at h
  by_cases hebreak : w = 0x00100073#32
  · rw [if_pos hebreak] at h
    rw [← Option.some.inj h, hebreak]
    rfl
  rw [if_neg hebreak] at h
  have hsrc : (CsrSrc.ofField (w.extractLsb 14 12) (w.extractLsb 19 15)).field =
      w.extractLsb 19 15 := by
    unfold CsrSrc.ofField
    split_ifs <;> rfl
  dsimp only at h
  generalize CsrSrc.ofField (w.extractLsb 14 12) (w.extractLsb 19 15) = src at h hsrc
  obtain ⟨op, hf, rfl⟩ := find_map h
  have hw := iType_eta w
  rw [← beq_iff_eq.1 hf, hop, ← hsrc] at hw
  exact hw

/-- What an entry of `formats` reads is what the word encodes. -/
theorem encode_formats : ∀ format ∈ formats, ∀ w i,
    w.extractLsb 6 0 = format.1 → format.2 w = some i → encode i = w := by
  simp only [formats, List.forall_mem_cons]
  refine ⟨?_, ?_, ?_, ?_, ?_, ?_, ?_, fun _ _ => encode_decodeOpImm, ?_, ?_,
    fun _ _ => encode_decodeSystem, nofun⟩
  · rintro w i hop ⟨⟩
    have hw := uType_eta w
    rw [hop] at hw
    exact hw
  · rintro w i hop ⟨⟩
    have hw := uType_eta w
    rw [hop] at hw
    exact hw
  · rintro w i hop ⟨⟩
    have hw := jType_eta w
    rw [hop] at hw
    exact hw
  · intro w i hop h
    split_ifs at h with hf
    obtain rfl := Option.some.inj h
    have hw := iType_eta w
    rw [hf, hop] at hw
    exact hw
  · intro w i hop h
    obtain ⟨op, hf, rfl⟩ := find_map h
    have hw := bType_eta w
    rw [← beq_iff_eq.1 hf, hop] at hw
    exact hw
  · intro w i hop h
    obtain ⟨op, hf, rfl⟩ := find_map h
    have hw := iType_eta w
    rw [← beq_iff_eq.1 hf, hop] at hw
    exact hw
  · intro w i hop h
    obtain ⟨op, hf, rfl⟩ := find_map h
    have hw := sType_eta w
    rw [← beq_iff_eq.1 hf, hop] at hw
    exact hw
  · intro w i hop h
    obtain ⟨op, hcodes, rfl⟩ := find_map h
    rw [Bool.and_eq_true, beq_iff_eq, beq_iff_eq] at hcodes
    have hw := rType_eta w
    rw [← hcodes.1, ← hcodes.2, hop] at hw
    exact hw
  · intro w i hop h
    split_ifs at h with hf
    obtain rfl := Option.some.inj h
    have hw := iType_eta w
    rw [hf, hop] at hw
    exact hw

theorem encode_decode {w : Word} {i : Instr} (h : decode w = some i) : encode i = w := by
  obtain ⟨format, hfind, hread⟩ := Option.bind_eq_some_iff.1 h
  have hop := List.find?_some hfind
  rw [beq_iff_eq] at hop
  exact encode_formats format (List.mem_of_find?_eq_some hfind) w i hop.symm hread

theorem decode_eq_some_iff {w : Word} {i : Instr} : decode w = some i ↔ encode i = w := by
  constructor
  · exact encode_decode
  · rintro rfl
    exact decode_encode i

end Isa

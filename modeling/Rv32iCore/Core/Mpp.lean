import Rv32iCore.Lib.Sync
import Rv32iCore.Core.Csr

/-!
# `mstatus.MPP` and the modes

The hart has two modes, U (00) and M (11).  Trap entry and `mret` only write these two into
MPP; an instruction write stores bits 12:11 of its value as they are.  So in a run from reset
MPP names a mode in every state exactly when no committed `mstatus` write leaves bit 12
different from bit 11, and `mret`, which looks at bit 1 of MPP only, then enters the mode that
a read reports.
-/

namespace Rv32i

open Sync

/-- One cycle of the `csr` ports. -/
structure CsrIn where
  rstN : Bool
  busStall : Bool
  timerIrq : Bool
  access : CsrAccess
  trap : Bool
  trapPc : Word
  trapCause : Word
  isMret : Bool

/-- The mode that a value of MPP names; `true` is M. -/
def modeOfMpp (mpp : BitVec 2) : Option Bool :=
  if mpp = 0b11#2 then some true else if mpp = 0b00#2 then some false else none

namespace Csr

/-- One clock edge, reset included. -/
def cycle (c : Csr) (i : CsrIn) : Csr :=
  c.step i.rstN i.busStall i.timerIrq i.access i.trap i.trapPc i.trapCause i.isMret

/-- MPP names a mode of the hart. -/
def MppLegal (c : Csr) : Prop := c.mstatusMpp = 0b00#2 ∨ c.mstatusMpp = 0b11#2

/-- An `mret` that commits enters the mode that a read of MPP reports. -/
def MretReported (c : Csr) (i : CsrIn) : Prop :=
  i.rstN = true → i.busStall = false → i.trap = false → i.isMret = true →
    modeOfMpp ((c.csrRdata i.timerIrq csrMstatus).extractLsb 12 11) = some (c.cycle i).privM

end Csr

namespace CsrIn

/-- The cycle commits an instruction write to `mstatus`. -/
def writesMstatus (i : CsrIn) : Bool :=
  i.rstN && !i.busStall && !i.trap && !i.isMret && i.access.doWrite && i.access.csrAddr == csrMstatus

/-- What an `mstatus` write must do for MPP to name a mode: the operand's bits 12 and 11 agree,
unless every bit is set already (set) or clear already (clear). -/
def KeepsMpp (c : Csr) (i : CsrIn) : Prop :=
  i.writesMstatus = true →
    i.access.csrOp = 0b00#2 ∨
    (i.access.csrOp = 0b10#2 ∧ c.mstatusMpp = 0b11#2) ∨
    (i.access.csrOp = 0b11#2 ∧ c.mstatusMpp = 0b00#2) ∨
    i.access.csrWdata.getLsbD 12 = i.access.csrWdata.getLsbD 11

instance (c : Csr) (i : CsrIn) : Decidable (i.KeepsMpp c) :=
  inferInstanceAs (Decidable (_ → _))

end CsrIn

instance (c : Csr) : Decidable c.MppLegal := inferInstanceAs (Decidable (_ ∨ _))

namespace Csr

/-! ## One cycle -/

theorem mstatusRdata_mpp (c : Csr) : c.mstatusRdata.extractLsb 12 11 = c.mstatusMpp := by
  have key : ∀ (mpp : BitVec 2) (mpie mie : Bool),
      (0#19 ++ mpp ++ 0#3 ++ BitVec.ofBool mpie ++ 0#3 ++ BitVec.ofBool mie ++ 0#3).extractLsb 12 11
        = mpp := by
    decide
  exact key _ _ _

/-- MPP after an instruction write, from MPP and the operand's bits 12:11. -/
def mppAfterWrite (op mpp w : BitVec 2) : BitVec 2 :=
  if op = 0b01#2 then w
  else if op = 0b10#2 then mpp ||| w
  else if op = 0b11#2 then mpp &&& ~~~w
  else mpp

theorem write_mpp (c : Csr) (a : CsrAccess) :
    (c.write csrMstatus (a.csrNew c.mstatusRdata)).mstatusMpp =
      mppAfterWrite a.csrOp c.mstatusMpp (a.csrWdata.extractLsb 12 11) := by
  have hw : ∀ v, (c.write csrMstatus v).mstatusMpp = v.extractLsb 12 11 := fun _ => rfl
  rw [hw, CsrAccess.csrNew, ← c.mstatusRdata_mpp, mppAfterWrite]
  split_ifs
  · rfl
  · apply BitVec.eq_of_getLsbD_eq
    intro k hk
    obtain rfl | rfl : k = 0 ∨ k = 1 := by omega
    all_goals simp
  · apply BitVec.eq_of_getLsbD_eq
    intro k hk
    obtain rfl | rfl : k = 0 ∨ k = 1 := by omega
    all_goals simp
  · rfl

theorem mppAfterWrite_legal_iff (op mpp w : BitVec 2) (h : mpp = 0b00#2 ∨ mpp = 0b11#2) :
    (mppAfterWrite op mpp w = 0b00#2 ∨ mppAfterWrite op mpp w = 0b11#2) ↔
      op = 0b00#2 ∨ (op = 0b10#2 ∧ mpp = 0b11#2) ∨ (op = 0b11#2 ∧ mpp = 0b00#2) ∨
        w.getLsbD 1 = w.getLsbD 0 := by
  revert op mpp w
  decide

/-- **One cycle.**  Only an `mstatus` write can leave an MPP that names no mode. -/
theorem mppLegal_cycle_iff {c : Csr} (h : c.MppLegal) (i : CsrIn) :
    (c.cycle i).MppLegal ↔ i.KeepsMpp c := by
  have hsame : (c.cycle i).mstatusMpp = c.mstatusMpp → i.writesMstatus = false →
      ((c.cycle i).MppLegal ↔ i.KeepsMpp c) := by
    intro hmpp hwr
    rw [MppLegal, hmpp, CsrIn.KeepsMpp, hwr]
    exact ⟨fun _ => nofun, fun _ => h⟩
  have hset : (c.cycle i).MppLegal → i.writesMstatus = false →
      ((c.cycle i).MppLegal ↔ i.KeepsMpp c) := by
    intro hmpp hwr
    rw [CsrIn.KeepsMpp, hwr]
    exact ⟨fun _ => nofun, fun _ => hmpp⟩
  obtain ⟨rstN, busStall, irq, a, trap, trapPc, trapCause, isMret⟩ := i
  cases rstN with
  | false => exact hset (.inl rfl) rfl
  | true =>
  cases busStall with
  | true => exact hsame rfl rfl
  | false =>
  cases trap with
  | true =>
    refine hset ?_ rfl
    show (BitVec.ofBool c.privM).replicate 2 = 0b00#2 ∨ (BitVec.ofBool c.privM).replicate 2 = 0b11#2
    cases c.privM <;> decide
  | false =>
  cases isMret with
  | true => exact hset (.inl rfl) rfl
  | false =>
    have hcycle : c.cycle ⟨true, false, irq, a, false, trapPc, trapCause, false⟩ =
        if a.doWrite then c.write a.csrAddr (a.csrNew (c.csrRdata irq a.csrAddr)) else c := rfl
    cases hw : a.doWrite with
    | false => exact hsame (by rw [hcycle, hw]; rfl) (by simp [CsrIn.writesMstatus, hw])
    | true =>
      by_cases haddr : a.csrAddr = csrMstatus
      · have hmpp : (c.cycle ⟨true, false, irq, a, false, trapPc, trapCause, false⟩).mstatusMpp =
            (c.write csrMstatus (a.csrNew c.mstatusRdata)).mstatusMpp := by
          rw [hcycle, hw, haddr]
          rfl
        have hwr : (CsrIn.mk true false irq a false trapPc trapCause false).writesMstatus = true := by
          simp [CsrIn.writesMstatus, hw, haddr]
        rw [MppLegal, hmpp, write_mpp, mppAfterWrite_legal_iff _ _ _ h, CsrIn.KeepsMpp, hwr]
        simp
      · have hne : (a.csrAddr == csrMstatus) = false := by simpa using haddr
        exact hsame (by rw [hcycle, hw]; exact (c.write_mstatus_of_ne _ haddr).2.2)
          (by simp [CsrIn.writesMstatus, hne])

/-- With a mode in MPP, its upper bit is the mode. -/
theorem MppLegal.mretReported {c : Csr} (h : c.MppLegal) (i : CsrIn) : c.MretReported i := by
  obtain ⟨rstN, busStall, irq, a, trap, trapPc, trapCause, isMret⟩ := i
  intro h1 h2 h3 h4
  simp only at h1 h2 h3 h4
  subst h1 h2 h3 h4
  show modeOfMpp (c.mstatusRdata.extractLsb 12 11) = some (c.mstatusMpp.getLsbD 1)
  rw [mstatusRdata_mpp]
  rcases h with h | h <;> rw [h] <;> rfl

/-! ## Runs -/

/-- **MPP names a mode** in every state of a run from reset, and every `mret` enters the mode
that a read of MPP reports, exactly when every `mstatus` write of the run keeps it so. -/
theorem mpp_legal_iff (is : List CsrIn) :
    ((∀ n, (run cycle reset (is.take n)).MppLegal) ∧ Always cycle MretReported reset is) ↔
      Always cycle (fun c i => i.KeepsMpp c) reset is := by
  have h0 : reset.MppLegal := .inl rfl
  have hstates : (∀ n, (run cycle reset (is.take n)).MppLegal) ↔
      Always cycle (fun c i => i.KeepsMpp c) reset is :=
    inv_take_iff_always MppLegal (fun _ i hc => mppLegal_cycle_iff hc i) h0
  constructor
  · intro h
    exact hstates.1 h.1
  · intro h
    have hinv := inv_always MppLegal (fun _ i hc hk => (mppLegal_cycle_iff hc i).2 hk) h0 h
    exact ⟨hstates.2 h, hinv.mono fun _ i hc => hc.1.mretReported i⟩

/-- `csrrw x0, mstatus, x1` with 0x800 in x1. -/
def writeMpp01 : CsrIn where
  rstN := true
  busStall := false
  timerIrq := false
  access := { csrAddr := csrMstatus, csrWdata := 0x800, csrOp := 0b01, csrRe := false, csrWe := true }
  trap := false
  trapPc := 0
  trapCause := 0
  isMret := false

/-- The write is committed: MPP reads 01, which is no mode, and an `mret` enters U. -/
theorem mpp_legal_write_01 :
    ¬ ∀ is : List CsrIn, (run cycle reset is).MppLegal ∧ Always cycle MretReported reset is := by
  intro h
  exact absurd (h [writeMpp01]).1 (by decide)

end Csr

end Rv32i

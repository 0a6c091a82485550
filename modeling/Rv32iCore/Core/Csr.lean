import Rv32iCore.Core.Units

/-!
# `csr`: the machine-mode CSR file

The registers of `rtl/core/csr.v`, its combinational read and write values, and its clocked
update, with the source's priority: reset, `bus_stall`, trap entry, `mret`, instruction write.
-/

namespace Rv32i

def csrMstatus : BitVec 12 := 0x300
def csrMie : BitVec 12 := 0x304
def csrMtvec : BitVec 12 := 0x305
def csrMscratch : BitVec 12 := 0x340
def csrMepc : BitVec 12 := 0x341
def csrMcause : BitVec 12 := 0x342
def csrMip : BitVec 12 := 0x344
def csrMhartid : BitVec 12 := 0xF14

/-- The registers of the `csr` module. -/
structure Csr where
  mstatusMie : Bool
  mstatusMpie : Bool
  mstatusMpp : BitVec 2
  mieMtie : Bool
  /-- 1 = M-mode, 0 = U-mode -/
  privM : Bool
  mtvec : Word
  mscratch : Word
  mepc : Word
  mcause : Word
deriving Inhabited, DecidableEq

/-- The instruction side of the `csr` ports. -/
structure CsrAccess where
  csrAddr : BitVec 12
  csrWdata : Word
  /-- 00 = none, 01 = rw, 10 = rs, 11 = rc -/
  csrOp : BitVec 2
  csrRe : Bool
  csrWe : Bool

/-- Recognised but not implemented: writes accepted, read as zero. -/
def csrIgnored (csrAddr : BitVec 12) : Bool :=
  csrAddr == 0x301#12       -- misa
  || csrAddr == 0x302#12    -- medeleg
  || csrAddr == 0x303#12    -- mideleg
  || csrAddr == 0x343#12    -- mtval
  || csrAddr == 0x180#12    -- satp
  || csrAddr == 0x3A0#12    -- pmpcfg0
  || csrAddr == 0x3B0#12    -- pmpaddr0

/-- The addresses with an arm of their own in the read mux. -/
def csrImplemented (csrAddr : BitVec 12) : Bool :=
  csrAddr == csrMstatus || csrAddr == csrMie || csrAddr == csrMtvec || csrAddr == csrMscratch
  || csrAddr == csrMepc || csrAddr == csrMcause || csrAddr == csrMip || csrAddr == csrMhartid

namespace Csr

def mstatusRdata (c : Csr) : Word :=
  0#19 ++ c.mstatusMpp ++ 0#3 ++ BitVec.ofBool c.mstatusMpie ++ 0#3 ++ BitVec.ofBool c.mstatusMie ++ 0#3

def mieRdata (c : Csr) : Word := 0#24 ++ BitVec.ofBool c.mieMtie ++ 0#7

def mipRdata (timerIrq : Bool) : Word := 0#24 ++ BitVec.ofBool timerIrq ++ 0#7

def csrRdata (c : Csr) (timerIrq : Bool) (csrAddr : BitVec 12) : Word :=
  if csrAddr = csrMstatus then c.mstatusRdata
  else if csrAddr = csrMie then c.mieRdata
  else if csrAddr = csrMtvec then c.mtvec
  else if csrAddr = csrMscratch then c.mscratch
  else if csrAddr = csrMepc then c.mepc
  else if csrAddr = csrMcause then c.mcause
  else if csrAddr = csrMip then mipRdata timerIrq
  else 0   -- mhartid, and the default arm

end Csr

namespace CsrAccess

def csrIllegal (a : CsrAccess) : Bool :=
  if csrImplemented a.csrAddr then false else (a.csrRe || a.csrWe) && !csrIgnored a.csrAddr

/-- The write value, from the value read. -/
def csrNew (a : CsrAccess) (csrRdata : Word) : Word :=
  if a.csrOp = 0b01#2 then a.csrWdata
  else if a.csrOp = 0b10#2 then csrRdata ||| a.csrWdata
  else if a.csrOp = 0b11#2 then csrRdata &&& ~~~a.csrWdata
  else csrRdata

/-- `mhartid` is read-only: writes to it are dropped. -/
def doWrite (a : CsrAccess) : Bool := a.csrWe && !a.csrIllegal && a.csrAddr != csrMhartid

end CsrAccess

namespace Csr

def interruptPending (c : Csr) (timerIrq : Bool) : Bool := c.mstatusMie && c.mieMtie && timerIrq

/-- The reset values. -/
def reset : Csr where
  mstatusMie := false
  mstatusMpie := false
  mstatusMpp := 0b00
  mieMtie := false
  privM := true
  mtvec := 0
  mscratch := 0
  mepc := 0
  mcause := 0

/-- Hardware trap entry. -/
def trapEntry (c : Csr) (trapPc trapCause : Word) : Csr :=
  { c with
    mepc := trapPc
    mcause := trapCause
    mstatusMpie := c.mstatusMie
    mstatusMie := false
    mstatusMpp := (BitVec.ofBool c.privM).replicate 2
    privM := true }

/-- `mret` retirement. -/
def mret (c : Csr) : Csr :=
  { c with
    privM := c.mstatusMpp.getLsbD 1
    mstatusMie := c.mstatusMpie
    mstatusMpie := true
    mstatusMpp := 0b00 }

/-- The instruction write: `mip` and the ignored addresses drop it. -/
def write (c : Csr) (csrAddr : BitVec 12) (csrNew : Word) : Csr :=
  if csrAddr = csrMstatus then
    { c with
      mstatusMie := csrNew.getLsbD 3
      mstatusMpie := csrNew.getLsbD 7
      mstatusMpp := csrNew.extractLsb 12 11 }
  else if csrAddr = csrMie then { c with mieMtie := csrNew.getLsbD 7 }
  else if csrAddr = csrMtvec then { c with mtvec := csrNew }
  else if csrAddr = csrMscratch then { c with mscratch := csrNew }
  else if csrAddr = csrMepc then { c with mepc := csrNew }
  else if csrAddr = csrMcause then { c with mcause := csrNew }
  else c

/-- What an unstalled edge does outside reset. -/
def update (c : Csr) (timerIrq : Bool) (a : CsrAccess) (trap : Bool) (trapPc trapCause : Word)
    (isMret : Bool) : Csr :=
  if trap then c.trapEntry trapPc trapCause
  else if isMret then c.mret
  else if a.doWrite then c.write a.csrAddr (a.csrNew (c.csrRdata timerIrq a.csrAddr))
  else c

/-- The clocked block. -/
def step (rstN busStall : Bool) (c : Csr) (timerIrq : Bool) (a : CsrAccess) (trap : Bool)
    (trapPc trapCause : Word) (isMret : Bool) : Csr :=
  if !rstN then reset
  else if busStall then c
  else c.update timerIrq a trap trapPc trapCause isMret

end Csr

/-! ## Lemmas -/

/-- An instruction that touches no CSR raises no CSR fault and writes nothing. -/
theorem CsrAccess.idle {a : CsrAccess} (hr : a.csrRe = false) (hw : a.csrWe = false) :
    a.csrIllegal = false ∧ a.doWrite = false := by
  simp [csrIllegal, doWrite, hr, hw]

namespace Csr

/-- Trap entry: the PC and the cause are saved, `MIE` and the mode are stacked; M-mode, no
interrupts. -/
theorem trapEntry_eq (c : Csr) (trapPc trapCause : Word) :
    c.trapEntry trapPc trapCause =
      { mstatusMie := false
        mstatusMpie := c.mstatusMie
        mstatusMpp := if c.privM then 0b11 else 0b00
        mieMtie := c.mieMtie
        privM := true
        mtvec := c.mtvec
        mscratch := c.mscratch
        mepc := trapPc
        mcause := trapCause } := by
  have hmpp : (BitVec.ofBool c.privM).replicate 2 = if c.privM then 0b11 else 0b00 := by
    cases c.privM <;> rfl
  rw [trapEntry, hmpp]

/-- `mret`: `MIE` and the mode are taken from the stack, which is left with U-mode. -/
theorem mret_eq (c : Csr) :
    c.mret =
      { mstatusMie := c.mstatusMpie
        mstatusMpie := true
        mstatusMpp := 0b00
        mieMtie := c.mieMtie
        privM := c.mstatusMpp.getLsbD 1
        mtvec := c.mtvec
        mscratch := c.mscratch
        mepc := c.mepc
        mcause := c.mcause } := rfl

/-- What one instruction write changes, register by register. -/
theorem write_mstatus_of_ne (c : Csr) {csrAddr : BitVec 12} (v : Word) (h : csrAddr ≠ csrMstatus) :
    (c.write csrAddr v).mstatusMie = c.mstatusMie ∧ (c.write csrAddr v).mstatusMpie = c.mstatusMpie ∧
      (c.write csrAddr v).mstatusMpp = c.mstatusMpp := by
  unfold write
  rw [if_neg h]
  split_ifs <;> simp

theorem write_mepc_of_ne (c : Csr) {csrAddr : BitVec 12} (v : Word) (h : csrAddr ≠ csrMepc) :
    (c.write csrAddr v).mepc = c.mepc := by
  unfold write
  split_ifs <;> simp_all

@[simp] theorem write_privM (c : Csr) (csrAddr : BitVec 12) (v : Word) :
    (c.write csrAddr v).privM = c.privM := by
  unfold write
  split_ifs <;> rfl

end Csr

end Rv32i

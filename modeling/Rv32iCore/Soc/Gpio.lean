import Rv32iCore.Lib.Bytes
import Rv32iCore.Soc.RegDevice

/-!
# `gpio`

The LED register and the switch inputs of `rtl/soc/gpio.v`, behind `axil_reg_if`.
-/

namespace Rv32i

open Bytes

/-- The register of `gpio`. -/
structure Gpio where
  ledReg : Word
deriving DecidableEq, Inhabited

namespace Gpio

/-- The LED register's clock edge. -/
def nextLedReg (g : Gpio) (wr : RegIfWr) : Word :=
  if wr.wrEn && wr.awaddr.getLsbD 2 == false then merge g.ledReg wr.wdata wr.wstrb else g.ledReg

/-- `reg_rd_data`; `sw` are the switches. -/
def rdData (g : Gpio) (sw : BitVec 16) (addr : Word) : Word :=
  if addr.getLsbD 2 = false then g.ledReg else 0#16 ++ sw

end Gpio

/-- `gpio`: a write is acknowledged at once. -/
def gpio : RegDevice Gpio (BitVec 16) where
  wrWait _ _ _ := false
  wrAck _ _ wr := wr.wrEn
  rdData := Gpio.rdData
  next g _ wr _ := ⟨g.nextLedReg wr⟩
  reset := ⟨0⟩
  ack_en _ _ _ h := h
  answers _ _ _ h := by rw [h, Bool.true_or]

end Rv32i

import Rv32iCore.Core.Units

/-!
# AXI4-Lite

What the two sides drive on the five channels in one cycle.  The protection bits and the
response codes, which nobody reads, are left out.
-/

namespace Rv32i

/-- The master's side of the five channels. -/
structure MasterOut where
  awvalid : Bool
  awaddr : Word
  wvalid : Bool
  wdata : Word
  wstrb : BitVec 4
  bready : Bool
  arvalid : Bool
  araddr : Word
  rready : Bool
deriving Inhabited

/-- The slave's side. -/
structure SlaveOut where
  awready : Bool
  wready : Bool
  bvalid : Bool
  arready : Bool
  rvalid : Bool
  rdata : Word
deriving Inhabited

end Rv32i

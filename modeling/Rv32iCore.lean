import Rv32iCore.Core.Exceptions
import Rv32iCore.Core.Alignment
import Rv32iCore.Core.Trace
import Rv32iCore.Core.Stall
import Rv32iCore.Core.Mpp
import Rv32iCore.Core.Progress
import Rv32iCore.Core.IsaCorrect
import Rv32iCore.Core.Forwarding
import Rv32iCore.Core.Memory
import Rv32iCore.Soc.Isa
import Rv32iCore.Soc.CoreBus
import Rv32iCore.Soc.ByteMemory
import Rv32iCore.Soc.AxilMem
import Rv32iCore.Soc.Strobes
import Rv32iCore.Soc.UartRx
import Rv32iCore.Soc.Fabric
import Rv32iCore.Soc.Console
import Rv32iCore.Soc.Latency
import Rv32iCore.Harness.TbSoc
import Rv32iCore.Harness.Image

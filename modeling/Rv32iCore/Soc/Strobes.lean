import Rv32iCore.Soc.AxilMaster
import Rv32iCore.Soc.Gpio
import Rv32iCore.Soc.Timer
import Rv32iCore.Soc.UartAxil

/-!
# Byte strobes at the peripheral registers

A store of less than a word reaches a peripheral as a full word with some strobes clear.
`gpio` writes the strobed bytes of its LED register.  `timer` and `uart_axil` take the whole
word, whatever the strobes: a half of `mtimecmp`, or PRESCALE, keeps its unstrobed bytes only
when the store happens to carry the same ones.
-/

namespace Rv32i

open Sync Bytes

section Honours

variable {δ ε : Type} (D : RegDevice δ ε) {n : Nat} (reg : δ → BitVec (8 * n)) (sel : Word → Bool)
  (s : RegSlave δ) (i : RegIn ε)

/-- The cycle performs a write to the register. -/
def RegDevice.writes : Bool := D.wrAck s.dev i.env s.wr && sel s.wr.awaddr

/-- The register takes the strobed bytes of a write to it, and keeps all the others. -/
def RegDevice.HonoursStrobes : Prop :=
  ∀ k, k < n → byteOf (reg (D.step s i).dev) k =
    if D.writes sel s i && s.wr.wstrb.getLsbD k then byteOf s.wr.wdata k else byteOf (reg s.dev) k

/-- Where a write to the register leaves a byte unstrobed, it carries the old one. -/
def RegDevice.CarriesKept : Prop :=
  D.writes sel s i = true → ∀ k, k < n → s.wr.wstrb.getLsbD k = false →
    byteOf s.wr.wdata k = byteOf (reg s.dev) k

instance : Decidable (D.HonoursStrobes reg sel s i) :=
  inferInstanceAs (Decidable (∀ k, k < n → _))

variable {D reg sel s i}

/-- A register that takes the whole word honours the strobes only by luck. -/
theorem honoursStrobes_whole_iff
    (h : reg (D.step s i).dev =
      if D.writes sel s i then s.wr.wdata.extractLsb' 0 (8 * n) else reg s.dev) :
    D.HonoursStrobes reg sel s i ↔ D.CarriesKept reg sel s i := by
  unfold RegDevice.HonoursStrobes RegDevice.CarriesKept
  rw [h]
  cases hw : D.writes sel s i with
  | false => simp
  | true =>
    have hbyte : ∀ k, k < n → byteOf (s.wr.wdata.extractLsb' 0 (8 * n)) k = byteOf s.wr.wdata k := by
      intro k hk
      have hb := byteOf_extractLsb' s.wr.wdata 0 n k hk
      rwa [Nat.zero_add] at hb
    rw [if_pos rfl]
    constructor
    · intro hkept _ k hk hstrb
      have hk' := hkept k hk
      rwa [hbyte k hk, hstrb, Bool.and_false, if_neg Bool.false_ne_true] at hk'
    · intro hkept k hk
      rw [hbyte k hk]
      cases hstrb : s.wr.wstrb.getLsbD k with
      | false => exact hkept rfl k hk hstrb
      | true => rfl

end Honours

/-! ## The registers -/

/-- Addresses of the LED register, of the halves of `mtimecmp` and of PRESCALE. -/
def Gpio.selLed (addr : Word) : Bool := addr.getLsbD 2 == false

def Timer.selMtimecmpLo (addr : Word) : Bool := addr.extractLsb 3 2 == 0b10#2

def Timer.selMtimecmpHi (addr : Word) : Bool := addr.extractLsb 3 2 == 0b11#2

def Timer.mtimecmpLo (t : Timer) : BitVec (8 * 4) := Timer.lo t.mtimecmp

def Timer.mtimecmpHi (t : Timer) : BitVec (8 * 4) := Timer.hi t.mtimecmp

theorem gpio_honours (s : RegSlave Gpio) (i : RegIn (BitVec 16)) :
    gpio.HonoursStrobes (n := 4) Gpio.ledReg Gpio.selLed s i := by
  intro k hk
  show byteOf (s.dev.nextLedReg s.wr) k = if (s.wr.wrEn && Gpio.selLed s.wr.awaddr) && _ then _ else _
  unfold Gpio.nextLedReg Gpio.selLed
  cases s.wr.wrEn && s.wr.awaddr.getLsbD 2 == false with
  | false => rfl
  | true => exact byteOf_merge _ _ _ hk

theorem mtimecmpLo_honours_iff (s : RegSlave Timer) (i : RegIn Unit) :
    timer.HonoursStrobes Timer.mtimecmpLo Timer.selMtimecmpLo s i ↔
      timer.CarriesKept Timer.mtimecmpLo Timer.selMtimecmpLo s i := by
  apply honoursStrobes_whole_iff
  show Timer.lo (s.dev.nextMtimecmp s.wr) = if s.wr.wrEn && Timer.selMtimecmpLo s.wr.awaddr then _ else _
  unfold Timer.nextMtimecmp Timer.wrMtimecmpLo Timer.wrMtimecmpHi Timer.selMtimecmpLo
  by_cases hlo : (s.wr.wrEn && s.wr.awaddr.extractLsb 3 2 == 0b10#2) = true
  · rw [if_pos hlo, if_pos hlo]
    exact (Timer.lo_append _ _).trans BitVec.extractLsb'_eq_self.symm
  · rw [if_neg hlo, if_neg hlo]
    split_ifs
    · exact Timer.lo_append _ _
    · rfl

theorem mtimecmpHi_honours_iff (s : RegSlave Timer) (i : RegIn Unit) :
    timer.HonoursStrobes Timer.mtimecmpHi Timer.selMtimecmpHi s i ↔
      timer.CarriesKept Timer.mtimecmpHi Timer.selMtimecmpHi s i := by
  apply honoursStrobes_whole_iff
  show Timer.hi (s.dev.nextMtimecmp s.wr) = if s.wr.wrEn && Timer.selMtimecmpHi s.wr.awaddr then _ else _
  unfold Timer.nextMtimecmp Timer.wrMtimecmpLo Timer.wrMtimecmpHi Timer.selMtimecmpHi
  by_cases hlo : (s.wr.wrEn && s.wr.awaddr.extractLsb 3 2 == 0b10#2) = true
  · have hhi : ¬ (s.wr.wrEn && s.wr.awaddr.extractLsb 3 2 == 0b11#2) = true := by
      simp only [Bool.and_eq_true, beq_iff_eq] at hlo ⊢
      rw [hlo.2]
      exact fun h => absurd h.2 (by decide)
    rw [if_pos hlo, if_neg hhi]
    exact Timer.hi_append _ _
  · rw [if_neg hlo]
    split_ifs
    · exact (Timer.hi_append _ _).trans BitVec.extractLsb'_eq_self.symm
    · rfl

theorem prescale_honours_iff (init : BitVec 16) (s : RegSlave UartAxil) (i : RegIn UartWires) :
    (uartAxil init).HonoursStrobes (n := 2) UartAxil.prescaleReg UartAxil.selPresc s i ↔
      (uartAxil init).CarriesKept (n := 2) UartAxil.prescaleReg UartAxil.selPresc s i := by
  apply honoursStrobes_whole_iff
  show s.dev.nextPrescaleReg s.wr =
    if UartAxil.regWrAck i.env s.wr && UartAxil.selPresc s.wr.awaddr then _ else _
  -- a PRESCALE write does not wait for the transmitter
  have hack : (UartAxil.regWrAck i.env s.wr && UartAxil.selPresc s.wr.awaddr) =
      (s.wr.wrEn && UartAxil.selPresc s.wr.awaddr) := by
    unfold UartAxil.regWrAck UartAxil.selPresc UartAxil.selData
    cases hsel : s.wr.awaddr.extractLsb 3 2 == 0b10#2 with
    | false => rw [Bool.and_false, Bool.and_false]
    | true =>
      rw [beq_iff_eq] at hsel
      rw [hsel]
      simp
  rw [hack]
  rfl

/-! ## When the strobes are honoured -/

/-- **Strobes.**  In every run from reset the writes accepted are performed once each, in order.
`gpio` honours their strobes always; a half of `mtimecmp` and PRESCALE, exactly in the cycles in
which no write to them leaves unstrobed a byte that it would change. -/
theorem strobes_honoured_iff (init : BitVec 16) (g : RegSlave Gpio) (m : RegSlave Timer)
    (u : RegSlave UartAxil) (gs : List (RegIn (BitVec 16))) (ms : List (RegIn Unit))
    (us : List (RegIn UartWires)) :
    (gpio.accepted (gpio.start g) gs =
        outputs gpio.step (fun s i => s.applied i gpio) (gpio.start g) gs ++
          (run gpio.step (gpio.start g) gs).waiting ∧
      Always gpio.step (gpio.HonoursStrobes (n := 4) Gpio.ledReg Gpio.selLed) (gpio.start g) gs) ∧
    (timer.accepted (timer.start m) ms =
        outputs timer.step (fun s i => s.applied i timer) (timer.start m) ms ++
          (run timer.step (timer.start m) ms).waiting ∧
      Always timer.step (fun s i =>
        (timer.HonoursStrobes Timer.mtimecmpLo Timer.selMtimecmpLo s i ↔
          timer.CarriesKept Timer.mtimecmpLo Timer.selMtimecmpLo s i) ∧
        (timer.HonoursStrobes Timer.mtimecmpHi Timer.selMtimecmpHi s i ↔
          timer.CarriesKept Timer.mtimecmpHi Timer.selMtimecmpHi s i)) (timer.start m) ms) ∧
    ((uartAxil init).accepted ((uartAxil init).start u) us =
        outputs (uartAxil init).step (fun s i => s.applied i (uartAxil init))
          ((uartAxil init).start u) us ++
          (run (uartAxil init).step ((uartAxil init).start u) us).waiting ∧
      Always (uartAxil init).step (fun s i =>
        (uartAxil init).HonoursStrobes (n := 2) UartAxil.prescaleReg UartAxil.selPresc s i ↔
          (uartAxil init).CarriesKept (n := 2) UartAxil.prescaleReg UartAxil.selPresc s i)
        ((uartAxil init).start u) us) := by
  refine ⟨⟨gpio.writes_applied g gs, ?_⟩, ⟨timer.writes_applied m ms, ?_⟩,
    ⟨(uartAxil init).writes_applied u us, ?_⟩⟩
  · exact fun c _ => gpio_honours c.1 c.2
  · exact fun c _ => ⟨mtimecmpLo_honours_iff c.1 c.2, mtimecmpHi_honours_iff c.1 c.2⟩
  · exact fun c _ => prescale_honours_iff init c.1 c.2

/-- `sb` of 5 to 0x10002008, the low byte of `mtimecmp`, as `axil_master` presents it. -/
def storeByteMtimecmp : RegIn Unit :=
  let m : MemReq := { addr := 0x10002008, wdata := 5, funct3 := 0b000, re := false, we := true }
  ⟨{ (default : MasterOut) with
      awvalid := true, awaddr := m.busAddr false
      wvalid := true, wdata := m.busWdata false, wstrb := m.busWstrb false }, ()⟩

/-- The other three bytes of the half are cleared. -/
theorem strobes_ignored_by_timer :
    ¬ ∀ is, Always timer.step (timer.HonoursStrobes Timer.mtimecmpLo Timer.selMtimecmpLo)
      (timer.start default) is := by
  intro h
  exact absurd (h [storeByteMtimecmp, default]) (by decide +kernel)

end Rv32i

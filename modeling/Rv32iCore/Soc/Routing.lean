import Rv32iCore.Soc.ByteMemory
import Rv32iCore.Soc.Fabric
import Rv32iCore.Spec.MemMachine

/-!
# What the bus of `soc` carries

`Fabric.Stage` says that an access comes to its end; here is what it does on the way.  Each of its
words goes to the slave of its window and to no other, once (`served`), and what the master is
given for it is the slave's answer, or zero where there is no slave (`results`).

`Transit` is `Stage` with the data: the words done and their results, the word under way, and what
`axil_mem` holds.

    Transit.step        one cycle of an access, with what it serves
-/

namespace Rv32i

open Sync Bytes

/-! ## `axil_mem` with its memory -/

/-- `axil_mem` with the write and the read in progress, and the memory as the requests answered so
far have left it. -/
def AxilMem.Holds (s : AxilMem) (qw : WrReq) (qr : RdReq) (mem : BitVec 14 → Word) : Prop :=
  ∃ t : MemTracked, MemInv t ∧ t.dut = s ∧ t.wr = qw ∧ t.rd = qr ∧ t.answered = mem

namespace AxilMem

variable {s : AxilMem} {qw : WrReq} {qr : RdReq} {mem : BitVec 14 → Word} {i : MasterOut} {a : Word}
  {d : Word × BitVec 4}

theorem reset_holds (s : AxilMem) : s.reset.Holds .idle none s.dmem.mem :=
  ⟨.reset s, .reset s, rfl, rfl, rfl, rfl⟩

theorem Holds.step (h : s.Holds qw qr mem) (hw : (qw.answer (s.wr.bFire i)).Free i)
    (hr : RdReq.Free (RdReq.answer qr (s.rd.rFire i)) i)
    (happart : (qw.answer (s.wr.bFire i) = .idle ∧ i.awvalid = false ∧ i.wvalid = false) ∨
      (RdReq.answer qr (s.rd.rFire i) = none ∧ i.arvalid = false)) :
    (s.step i).Holds
      ((qw.answer (s.wr.bFire i)).accept i (i.awvalid && s.wr.awready) (i.wvalid && s.wr.wready))
      (RdReq.accept (RdReq.answer qr (s.rd.rFire i)) i (i.arvalid && s.rd.arready))
      (if s.wr.bFire i then run WordMachine.step mem qw.complete else mem) := by
  obtain ⟨t, hinv, rfl, rfl, rfl, rfl⟩ := h
  exact ⟨t.step i, hinv.step ⟨hw, hr, happart⟩, rfl, rfl, rfl, t.step_answered⟩

/-- Nothing asked for, nothing done. -/
theorem Holds.step_idle (h : s.Holds .idle none mem) (haw : i.awvalid = false)
    (hw : i.wvalid = false) (har : i.arvalid = false) : (s.step i).Holds .idle none mem := by
  have hstep := h.step (i := i) (by simp [WrReq.Free, haw, hw]) (by simp [RdReq.Free, har])
    (.inr ⟨by simp, har⟩)
  rw [haw, hw, har, WrReq.answer_idle, RdReq.answer_none] at hstep
  have hmem : (if s.wr.bFire i then run WordMachine.step mem WrReq.idle.complete else mem) = mem := by
    cases s.wr.bFire i <;> rfl
  rw [hmem] at hstep
  exact hstep

theorem Holds.step_accept (h : s.Holds .idle none mem)
    (happart : (i.awvalid = false ∧ i.wvalid = false) ∨ i.arvalid = false) :
    (s.step i).Holds (WrReq.idle.accept i i.awvalid i.wvalid) (RdReq.accept none i i.arvalid) mem := by
  have hinv := h
  obtain ⟨t, hi, rfl, hwr, hrd, rfl⟩ := hinv
  obtain ⟨-, hb, haw, hw⟩ := WrInv.of_idle (hwr ▸ hi.wr)
  obtain ⟨-, hr, har⟩ := RdInv.of_none (hrd ▸ hi.rd)
  have hstep := h.step (i := i) (by rw [WrReq.answer_idle]; exact ⟨fun _ => rfl, fun _ => rfl⟩)
    (by rw [RdReq.answer_none]; exact fun _ => rfl)
    (happart.imp (fun h => ⟨by simp, h.1, h.2⟩) fun h => ⟨by simp, h⟩)
  have hmem : (if t.dut.wr.bFire i then run WordMachine.step t.answered WrReq.idle.complete
      else t.answered) = t.answered := by
    cases t.dut.wr.bFire i <;> rfl
  rw [hmem, WrReq.answer_idle, RdReq.answer_none] at hstep
  simpa [haw, hw, har] using hstep

/-- The write is made when its B is taken. -/
theorem Holds.step_write (h : s.Holds ⟨some a, some d⟩ none mem) (haw : i.awvalid = false)
    (hw : i.wvalid = false) (har : i.arvalid = false) (hready : i.bready = true) :
    (s.step i).Holds (if s.wr.bvalid then .idle else ⟨some a, some d⟩) none
      (if s.wr.bvalid then writeWord mem (Dmem.wordIdx a) d.1 d.2 else mem) := by
  have hfree : ∀ q : WrReq, q.Free i := fun q => by simp [WrReq.Free, haw, hw]
  have hstep := h.step (i := i) (hfree _) (by simp [RdReq.Free, har]) (.inr ⟨by simp, har⟩)
  rw [haw, hw, har, RdReq.answer_none, RegIfWr.bFire, hready, Bool.and_true] at hstep
  exact hstep

theorem Holds.step_read (h : s.Holds .idle (some a) mem) (haw : i.awvalid = false)
    (hw : i.wvalid = false) (har : i.arvalid = false) (hready : i.rready = true) :
    (s.step i).Holds .idle (if s.rd.rvalid then none else some a) mem := by
  have hstep := h.step (i := i) (by simp [WrReq.Free, haw, hw]) (by simp [RdReq.Free, har])
    (.inl ⟨by simp, haw, hw⟩)
  rw [haw, hw, har, WrReq.answer_idle, RegIfRd.rFire, hready, Bool.and_true] at hstep
  have hmem : (if s.wr.bFire i then run WordMachine.step mem WrReq.idle.complete else mem) = mem := by
    cases s.wr.bFire i <;> rfl
  rw [hmem] at hstep
  exact hstep

/-- R has the word. -/
theorem Holds.rdata (h : s.Holds qw (some a) mem) (hr : s.rd.rvalid = true) :
    s.rd.rdata = mem (Dmem.wordIdx a) := by
  obtain ⟨t, hinv, rfl, -, hrd, rfl⟩ := h
  have hnone := hinv.of_rd (by simp [hrd])
  rw [hinv.rdata hr a hrd, hinv.mem, hnone.2.2]
  rfl

/-- Without a write in progress the array is the memory. -/
theorem Holds.mem_eq (h : s.Holds .idle qr mem) : s.dmem.mem = mem := by
  obtain ⟨t, hinv, rfl, hwr, -, rfl⟩ := h
  obtain ⟨-, hb, -⟩ := WrInv.of_idle (hwr ▸ hinv.wr)
  rw [hinv.mem, hb]
  rfl

end AxilMem

/-! ## The slaves, with the memory of `axil_mem` -/

namespace Slaves

variable {s : Slaves} {bus : Fin 4 → MasterOut} {e : SlavesIn} {mem : BitVec 14 → Word} {k : Fin 4}
  {a : Word} {d : Word × BitVec 4}

/-- No slave has a request. -/
structure IdleWith (s : Slaves) (mem : BitVec 14 → Word) : Prop where
  idle : s.Idle
  dmem : s.uDmem.Holds .idle none mem

/-- Slave `k` has a write; if it is `axil_mem`, `mem` is the memory before it. -/
structure WritingWith (s : Slaves) (k : Fin 4) (a : Word) (d : Word × BitVec 4)
    (mem : BitVec 14 → Word) : Prop where
  writing : s.Writing k a d
  dmem : s.uDmem.Holds (if k = dmemPort then ⟨some a, some d⟩ else .idle) none mem

structure ReadingWith (s : Slaves) (k : Fin 4) (a : Word) (mem : BitVec 14 → Word) : Prop where
  reading : s.Reading k a
  dmem : s.uDmem.Holds .idle (if k = dmemPort then some a else none) mem

/-- The memory after a write to slave `k`. -/
def written (mem : BitVec 14 → Word) (k : Fin 4) (a : Word) (d : Word × BitVec 4) :
    BitVec 14 → Word :=
  if k = dmemPort then writeWord mem (Dmem.wordIdx a) d.1 d.2 else mem

theorem reset_idleWith (s : Slaves) : s.reset.IdleWith s.uDmem.dmem.mem :=
  ⟨s.reset_idle, s.uDmem.reset_holds⟩

theorem IdleWith.step (h : s.IdleWith mem) (hbus : NoRequest bus) : (s.step bus e).IdleWith mem :=
  ⟨h.idle.step bus e hbus, h.dmem.step_idle (hbus dmemPort).1 (hbus dmemPort).2.1
    (hbus dmemPort).2.2⟩

open Interconnect in
theorem IdleWith.step_write (h : s.IdleWith mem)
    (hbus : ∀ j, (bus j).awvalid = onePort k j ∧ (bus j).wvalid = onePort k j ∧
      (bus j).arvalid = false) :
    (s.step bus e).WritingWith k (bus k).awaddr ((bus k).wdata, (bus k).wstrb) mem := by
  refine ⟨(h.idle.step_write bus e hbus).1, ?_⟩
  obtain ⟨haw, hw, har⟩ := hbus dmemPort
  have hstep := h.dmem.step_accept (.inr har)
  rw [haw, hw, har] at hstep
  by_cases hk : k = dmemPort
  · subst hk
    rw [onePort_self] at hstep
    rw [if_pos rfl]
    exact hstep
  · rw [onePort_of_ne (Ne.symm hk)] at hstep
    rw [if_neg hk]
    exact hstep

open Interconnect in
theorem IdleWith.step_read (h : s.IdleWith mem)
    (hbus : ∀ j, (bus j).awvalid = false ∧ (bus j).wvalid = false ∧
      (bus j).arvalid = onePort k j) :
    (s.step bus e).ReadingWith k (bus k).araddr mem := by
  refine ⟨h.idle.step_read bus e hbus, ?_⟩
  obtain ⟨haw, hw, har⟩ := hbus dmemPort
  have hstep := h.dmem.step_accept (.inl ⟨haw, hw⟩)
  rw [haw, hw, har] at hstep
  by_cases hk : k = dmemPort
  · subst hk
    rw [onePort_self] at hstep
    rw [if_pos rfl]
    exact hstep
  · rw [onePort_of_ne (Ne.symm hk)] at hstep
    rw [if_neg hk]
    exact hstep

/-- With its B taken the write is done. -/
theorem WritingWith.step (h : s.WritingWith k a d mem) (hbus : NoRequest bus)
    (hready : (bus k).bready = true) :
    ((s.wr k).bvalid = true ∧ (s.step bus e).IdleWith (written mem k a d)) ∨
      (s.wr k).bvalid = false ∧ (s.step bus e).WritingWith k a d mem := by
  obtain ⟨haw, hw, har⟩ := hbus dmemPort
  have hserve := h.writing.step bus e hbus hready
  by_cases hk : k = dmemPort
  · subst hk
    have hdmem := h.dmem
    rw [if_pos rfl] at hdmem
    have hstep := hdmem.step_write haw hw har hready
    rcases hserve with ⟨hb, hidle⟩ | ⟨hb, hwriting, -⟩
    · have hb' : s.uDmem.wr.bvalid = true := hb
      rw [hb', if_pos rfl, if_pos rfl] at hstep
      exact .inl ⟨hb, hidle, by rw [written, if_pos rfl]; exact hstep⟩
    · have hb' : s.uDmem.wr.bvalid = false := hb
      rw [hb', if_neg Bool.false_ne_true, if_neg Bool.false_ne_true] at hstep
      exact .inr ⟨hb, hwriting, by rw [if_pos rfl]; exact hstep⟩
  · have hdmem := h.dmem
    rw [if_neg hk] at hdmem
    have hstep := hdmem.step_idle haw hw har
    rcases hserve with ⟨hb, hidle⟩ | ⟨hb, hwriting, -⟩
    · exact .inl ⟨hb, hidle, by rw [written, if_neg hk]; exact hstep⟩
    · exact .inr ⟨hb, hwriting, by rw [if_neg hk]; exact hstep⟩

theorem ReadingWith.step (h : s.ReadingWith k a mem) (hbus : NoRequest bus)
    (hready : (bus k).rready = true) :
    ((s.rd k).rvalid = true ∧ (s.step bus e).IdleWith mem) ∨
      (s.rd k).rvalid = false ∧ (s.step bus e).ReadingWith k a mem := by
  obtain ⟨haw, hw, har⟩ := hbus dmemPort
  have hserve := h.reading.step bus e hbus hready
  by_cases hk : k = dmemPort
  · subst hk
    have hdmem := h.dmem
    rw [if_pos rfl] at hdmem
    have hstep := hdmem.step_read haw hw har hready
    rcases hserve with ⟨hr, hidle⟩ | ⟨hr, hreading, -⟩
    · have hr' : s.uDmem.rd.rvalid = true := hr
      rw [hr', if_pos rfl] at hstep
      exact .inl ⟨hr, hidle, hstep⟩
    · have hr' : s.uDmem.rd.rvalid = false := hr
      rw [hr', if_neg Bool.false_ne_true] at hstep
      exact .inr ⟨hr, hreading, by rw [if_pos rfl]; exact hstep⟩
  · have hdmem := h.dmem
    rw [if_neg hk] at hdmem
    have hstep := hdmem.step_idle haw hw har
    rcases hserve with ⟨hr, hidle⟩ | ⟨hr, hreading, -⟩
    · exact .inl ⟨hr, hidle, hstep⟩
    · exact .inr ⟨hr, hreading, by rw [if_neg hk]; exact hstep⟩

/-- What `axil_mem` answers is its word. -/
theorem ReadingWith.rdata (h : s.ReadingWith dmemPort a mem)
    (hr : (s.out dmemPort).rvalid = true) : (s.out dmemPort).rdata = mem (Dmem.wordIdx a) := by
  have hdmem := h.dmem
  rw [if_pos rfl] at hdmem
  exact hdmem.rdata hr

end Slaves

/-! ## The window of `axil_mem` -/

theorem shiftRight_eq_iff (a b : Word) (n : Nat) :
    a >>> n = b >>> n ↔ a.toNat / 2 ^ n = b.toNat / 2 ^ n := by
  rw [← BitVec.toNat_inj, BitVec.toNat_ushiftRight, BitVec.toNat_ushiftRight,
    Nat.shiftRight_eq_div_pow, Nat.shiftRight_eq_div_pow]

/-- The window is that of the address's upper half. -/
theorem icDecode_dmem (a : Word) : icDecode a = some dmemPort ↔ a.toNat / 2 ^ 16 = 0x8000 := by
  have h0 : a >>> 16 = 0x80000000#32 >>> 16 ↔ a.toNat / 2 ^ 16 = 0x8000 := shiftRight_eq_iff ..
  have h1 : a >>> 12 = 0x10000000#32 >>> 12 ↔ a.toNat / 2 ^ 12 = 0x10000 := shiftRight_eq_iff ..
  have h2 : a >>> 12 = 0x10001000#32 >>> 12 ↔ a.toNat / 2 ^ 12 = 0x10001 := shiftRight_eq_iff ..
  have h3 : a >>> 12 = 0x10002000#32 >>> 12 ↔ a.toNat / 2 ^ 12 = 0x10002 := shiftRight_eq_iff ..
  have hfold : icDecode a = if a.toNat / 2 ^ 12 = 0x10002 then some timerPort
      else if a.toNat / 2 ^ 12 = 0x10001 then some uartPort
      else if a.toNat / 2 ^ 12 = 0x10000 then some gpioPort
      else if a.toNat / 2 ^ 16 = 0x8000 then some dmemPort else none := by
    simp only [← h0, ← h1, ← h2, ← h3]
    rfl
  rw [hfold]
  split_ifs with ht hu hg hd
  · exact ⟨fun h => absurd h (by decide), fun h => by omega⟩
  · exact ⟨fun h => absurd h (by decide), fun h => by omega⟩
  · exact ⟨fun h => absurd h (by decide), fun h => by omega⟩
  · exact ⟨fun _ => hd, fun _ => rfl⟩
  · exact ⟨fun h => absurd h (by decide), fun h => absurd h hd⟩

/-- Addresses in one word are in one window. -/
theorem icDecode_congr {a x : Word} (h : wordIdx x = wordIdx a) : icDecode x = icDecode a := by
  have hnat : x.toNat / 4 = a.toNat / 4 := by
    rw [← toNat_wordIdx, ← toNat_wordIdx, h]
  have hshift : ∀ n, 2 ≤ n → x >>> n = a >>> n := by
    intro n hn
    rw [shiftRight_eq_iff, ← Nat.sub_add_cancel hn, Nat.add_comm, Nat.pow_add,
      ← Nat.div_div_eq_div_mul, ← Nat.div_div_eq_div_mul, show 2 ^ 2 = 4 from rfl, hnat]
  have h16 : ∀ k, x >>> icAddrWidth k = a >>> icAddrWidth k := by
    intro k
    refine hshift _ ?_
    unfold icAddrWidth
    split <;> omega
  unfold icDecode
  simp only [h16]

theorem wordIdx_append (w : BitVec 30) : wordIdx (w ++ 0#2) = w := by
  rw [← BitVec.toNat_inj, toNat_wordIdx, BitVec.toNat_append, show (0#2).toNat = 0 from rfl,
    Nat.or_zero, Nat.shiftLeft_eq, Nat.mul_div_cancel _ (by decide)]

theorem toNat_dmem_wordIdx (a : Word) : (Dmem.wordIdx a).toNat = a.toNat / 4 % 2 ^ 14 := by
  rw [Dmem.wordIdx, BitVec.extractLsb_toNat, Nat.shiftRight_eq_div_pow]

theorem dmem_wordIdx_eq (a : Word) : Dmem.wordIdx a = (wordIdx a).extractLsb' 0 14 := by
  rw [← BitVec.toNat_inj, toNat_dmem_wordIdx, BitVec.extractLsb'_toNat, toNat_wordIdx,
    Nat.shiftRight_zero]

/-- In the window, `dmem`'s index tells the words apart. -/
theorem dmem_wordIdx_inj {a x : Word} (ha : icDecode a = some dmemPort)
    (hx : icDecode x = some dmemPort) :
    Dmem.wordIdx x = Dmem.wordIdx a ↔ wordIdx x = wordIdx a := by
  rw [icDecode_dmem] at ha hx
  rw [← BitVec.toNat_inj, ← BitVec.toNat_inj, toNat_dmem_wordIdx, toNat_dmem_wordIdx, toNat_wordIdx,
    toNat_wordIdx]
  omega

/-- `d` is `mem` in the window. -/
def Agree (d : BitVec 14 → Word) (mem : BitVec 30 → Word) : Prop :=
  ∀ a : Word, icDecode a = some dmemPort → d (Dmem.wordIdx a) = mem (wordIdx a)

/-- A word is written to both, or is not in the window. -/
theorem Agree.written {d : BitVec 14 → Word} {mem : BitVec 30 → Word} (h : Agree d mem) (a data : Word)
    (strb : BitVec 4) {k : Fin 4} (hk : icDecode a = some k) :
    Agree (Slaves.written d k a (data, strb)) (writeWord mem (wordIdx a) data strb) := by
  intro x hx
  have hx' := h x hx
  unfold Slaves.written writeWord
  by_cases hdmem : k = dmemPort
  · subst hdmem
    rw [if_pos rfl, Function.update_apply, Function.update_apply, hx', h a hk]
    simp only [dmem_wordIdx_inj hk hx]
  · have hne : wordIdx x ≠ wordIdx a := by
      intro he
      have := (icDecode_congr he).symm.trans hx
      rw [hk] at this
      exact hdmem (Option.some.inj this)
    rw [if_neg hdmem, Function.update_of_ne hne]
    exact hx'

theorem Agree.dropped {d : BitVec 14 → Word} {mem : BitVec 30 → Word} (h : Agree d mem) (a data : Word)
    (strb : BitVec 4) (hk : icDecode a = none) : Agree d (writeWord mem (wordIdx a) data strb) := by
  intro x hx
  have hne : wordIdx x ≠ wordIdx a := by
    intro he
    have := (icDecode_congr he).symm.trans hx
    rw [hk] at this
    cases this
  rw [writeWord, Function.update_of_ne hne]
  exact h x hx

/-! ## Loads -/

section Load

variable {s : AxilMaster} {m : MemReq} {o : SlaveOut} {mem : BitVec 30 → Word}

theorem MemReq.not_crosses_of_size_zero (hz : m.size = 0) : m.crosses = false := by
  have hlane := byteLane_lt m.addr
  have hfit : ¬ 4 < byteLane m.addr + m.size := by omega
  rw [← m.crosses_iff] at hfit
  simpa using hfit

/-- A reserved load reads to the end of its word. -/
theorem shifted_of_size_zero (hz : m.size = 0) (hr : o.rdata = mem (wordIdx m.addr)) :
    s.shifted m o = m.value (byteAt mem) := by
  have hlane := byteLane_lt m.addr
  have hbyte : ∀ k < 4, byteOf (byteAt mem (m.addr + 3) ++ byteAt mem (m.addr + 2) ++
      byteAt mem (m.addr + 1) ++ byteAt mem m.addr) k = byteAt mem (m.addr + BitVec.ofNat 32 k) := by
    intro k hk
    interval_cases k <;> simp [byteOf_append_byte]
  rw [MemReq.value, if_pos hz]
  refine eq_of_byteOf_eq (n := 4) fun k hk => ?_
  have hshifted : byteOf (s.shifted m o) k = byteOf (s.combined m o) (k + byteLane m.addr) := by
    show byteOf ((s.combined m o >>> m.shift).extractLsb' (8 * 0) (8 * 4)) k = _
    rw [byteOf_extractLsb' _ _ _ _ hk, BitVec.ushiftRight_eq', m.toNat_shift, byteOf_ushiftRight,
      m.byteLane_addr, Nat.zero_add]
  refine Eq.trans ?_ (byteOf_shiftLeft_ushiftRight (n := 4) _ (byteLane m.addr) k).symm
  rw [hshifted, AxilMaster.combined, MemReq.not_crosses_of_size_zero hz, if_neg Bool.false_ne_true,
    byteOf_append (n := 4), hr]
  by_cases hin : k + byteLane m.addr < 4
  · rw [if_pos hin, if_pos hin, hbyte k hk, byteAt_add mem m.addr k hk, if_pos (by omega),
      Nat.add_comm]
  · rw [if_neg hin, if_neg hin, byteOf, BitVec.extractLsb'_zero]
    rfl

/-- **Load**, whatever `funct3` is. -/
theorem memRdata_value (hre : m.re = true) (hwe : m.we = false)
    (hlo : m.crosses = true → s.wordLoReg = mem (wordIdx m.addr))
    (hr : o.rdata = mem (wordIdx (m.busAddr m.crosses))) :
    s.memRdata m o = m.value (byteAt mem) := by
  have hfunct3 : ∀ f : BitVec 3,
      ((if f.extractLsb 1 0 = 0b00#2 then 1 else if f.extractLsb 1 0 = 0b01#2 then 2
        else if f.extractLsb 1 0 = 0b10#2 then 4 else 0) = 0 ∧ (f = 0b011#3 ∨ f = 0b111#3)) ∨
      f = 0b110#3 ∨ f ∈ [0b000#3, 0b001#3, 0b010#3, 0b100#3, 0b101#3] := by
    decide
  rcases hfunct3 m.funct3 with ⟨hz, hf⟩ | hf | hf
  · have hz : m.size = 0 := hz
    rw [MemReq.not_crosses_of_size_zero hz, m.wordIdx_busAddr, if_neg Bool.false_ne_true] at hr
    have hval : s.shifted m o = m.value (byteAt mem) := shifted_of_size_zero hz hr
    rw [← hval, AxilMaster.memRdata]
    rcases hf with hf | hf <;> simp [hf]
  · -- 110 reads a word
    have hs : m.size = 4 := by simp [MemReq.size, hf]
    have hb := fun d hd => shifted_byte (s := s) hlo hr d hd
    have h0 : byteOf (s.shifted m o) 0 = byteAt mem m.addr := by simpa using hb 0 (by omega)
    have h1 : byteOf (s.shifted m o) 1 = byteAt mem (m.addr + 1) := hb 1 (by omega)
    have h2 : byteOf (s.shifted m o) 2 = byteAt mem (m.addr + 2) := hb 2 (by omega)
    have h3 : byteOf (s.shifted m o) 3 = byteAt mem (m.addr + 3) := hb 3 (by omega)
    rw [MemReq.value, if_neg (by omega)]
    unfold AxilMaster.memRdata loadValue
    simp only [hf, BitVec.reduceEq, ↓reduceIte]
    rw [← h0, ← h1, ← h2, ← h3]
    exact word_bytes _
  · have hs : m.size ≠ 0 := by
      simp only [List.mem_cons, List.not_mem_nil, or_false] at hf
      rcases hf with hf | hf | hf | hf | hf <;> simp [MemReq.size, hf]
    rw [MemReq.value, if_neg hs]
    refine memRdata_eq hre ⟨fun _ => ⟨hwe, hf⟩, fun h => ?_⟩ hlo hr
    rw [hwe] at h
    cases h

end Load

/-! ## Words -/

/-- A word that a slave has taken or given. -/
inductive ServedWord where
  | write (k : Fin 4) (addr data : Word) (strb : BitVec 4)
  | read (k : Fin 4) (addr data : Word)
deriving DecidableEq

/-- What the master gets for it: the data read, nothing (zero) for a write. -/
def ServedWord.result : ServedWord → Word
  | .write _ _ _ _ => 0
  | .read _ _ data => data

namespace MemReq

variable (m : MemReq)

/-- A word of the access as the slave of its window serves it, if it has one. -/
def servedWord (phase2 : Bool) (result : Word) : List ServedWord :=
  match icDecode (m.busAddr phase2) with
  | some k =>
    if m.we then [.write k (m.busAddr phase2) (m.busWdata phase2) (m.busWstrb phase2)]
    else [.read k (m.busAddr phase2) result]
  | none => []

/-- The words done so far, as they are served. -/
def served (results : List Word) : List ServedWord :=
  ([false, true].zip results).flatMap fun w => m.servedWord w.1 w.2

/-- What `mem` is for the words of the window, the results are; and zero outside every window. -/
def Sound (mem : BitVec 30 → Word) (results : List Word) : Prop :=
  ∀ w ∈ [false, true].zip results, (icDecode (m.busAddr w.1) = none → w.2 = 0) ∧
    (m.we = false → icDecode (m.busAddr w.1) = some dmemPort →
      w.2 = mem (wordIdx (m.busAddr w.1)))

/-- What a load is given outside the window, word by word. -/
def wordsOutside (results : List Word) : BitVec 30 → Word := fun w =>
  if w = wordIdx (m.busAddr false) then results.getD 0 0
  else if m.crosses = true ∧ w = wordIdx (m.busAddr true) then results.getD 1 0
  else 0

/-- The words that a load sees: those of the memory in its window. -/
def wordsSeen (mem : BitVec 30 → Word) (results : List Word) : BitVec 30 → Word := fun w =>
  if icDecode (w ++ 0#2) = some dmemPort then mem w else m.wordsOutside results w

variable {m} {mem : BitVec 30 → Word} {results : List Word} {phase2 : Bool} {r : Word}

theorem zip_append (h : results.length = phase2.toNat) :
    [false, true].zip (results ++ [r]) = [false, true].zip results ++ [(phase2, r)] := by
  cases phase2 with
  | false =>
    obtain rfl := List.length_eq_zero_iff.1 h
    rfl
  | true =>
    obtain ⟨x, rfl⟩ := List.length_eq_one_iff.1 h
    rfl

theorem served_append (h : results.length = phase2.toNat) :
    m.served (results ++ [r]) = m.served results ++ m.servedWord phase2 r := by
  rw [served, zip_append h, List.flatMap_append]
  simp [served]

theorem Sound.append (h : m.Sound mem results) (hlen : results.length = phase2.toNat)
    (hnone : icDecode (m.busAddr phase2) = none → r = 0)
    (hread : m.we = false → icDecode (m.busAddr phase2) = some dmemPort →
      r = mem (wordIdx (m.busAddr phase2))) : m.Sound mem (results ++ [r]) := by
  intro w hw
  rw [zip_append hlen, List.mem_append, List.mem_singleton] at hw
  rcases hw with hw | rfl
  · exact h w hw
  · exact ⟨hnone, hread⟩

variable (m) in
theorem wordIdx_busAddr_ne :
    wordIdx (m.busAddr true) ≠ wordIdx (m.busAddr false) := by
  rw [m.wordIdx_busAddr, m.wordIdx_busAddr, if_pos rfl, if_neg Bool.false_ne_true]
  intro h
  have := congrArg BitVec.toNat h
  have hlt := (wordIdx m.addr).isLt
  rw [BitVec.toNat_add, show (1 : BitVec 30).toNat = 1 from rfl] at this
  omega

theorem wordsOutside_lo : m.wordsOutside results (wordIdx (m.busAddr false)) = results.getD 0 0 :=
  if_pos rfl

theorem wordsOutside_hi (hc : m.crosses = true) :
    m.wordsOutside results (wordIdx (m.busAddr true)) = results.getD 1 0 :=
  (if_neg m.wordIdx_busAddr_ne).trans (if_pos ⟨hc, rfl⟩)

/-- A result is what is seen of its word. -/
theorem Sound.wordsSeen (h : m.Sound mem results) (hwe : m.we = false)
    (hget : results[phase2.toNat]? = some r) (hc : phase2 = true → m.crosses = true) :
    m.wordsSeen mem results (wordIdx (m.busAddr phase2)) = r := by
  have hmem : (phase2, r) ∈ [false, true].zip results := by
    cases phase2 with
    | false =>
      match results, hget with
      | x :: xs, hget =>
        obtain rfl : x = r := by simpa using hget
        exact List.mem_cons_self ..
    | true =>
      match results, hget with
      | x :: y :: xs, hget =>
        obtain rfl : y = r := by simpa using hget
        exact List.mem_cons_of_mem _ (List.mem_cons_self ..)
  have hword : icDecode (wordIdx (m.busAddr phase2) ++ 0#2) = icDecode (m.busAddr phase2) :=
    icDecode_congr (wordIdx_append _)
  have houtside : m.wordsOutside results (wordIdx (m.busAddr phase2)) = r := by
    cases phase2 with
    | false =>
      rw [wordsOutside_lo, List.getD_eq_getElem?_getD, show results[0]? = some r from hget]
      rfl
    | true =>
      rw [wordsOutside_hi (hc rfl), List.getD_eq_getElem?_getD, show results[1]? = some r from hget]
      rfl
  rw [MemReq.wordsSeen, hword]
  by_cases hw : icDecode (m.busAddr phase2) = some dmemPort
  · rw [if_pos hw]
    exact ((h _ hmem).2 hwe hw).symm
  · rw [if_neg hw]
    exact houtside

end MemReq

/-- In the decode state a word without a window is done: the error response has no data. -/
def Interconnect.dropped (s : Interconnect) : List Word :=
  if s.state = .decode ∧ icDecode s.path.axilAddr = none then [0] else []

namespace Fabric

open Interconnect

variable (s : Fabric)

/-- The words served in this cycle: a slave takes AW (and W with it), or its R is taken. -/
def served : List ServedWord :=
  [dmemPort, gpioPort, uartPort, timerPort].flatMap fun k =>
    (if (s.ic.mOut k).awvalid && (s.slaves.out k).awready then
      [.write k (s.ic.mOut k).awaddr (s.ic.mOut k).wdata (s.ic.mOut k).wstrb] else []) ++
    (if (s.slaves.out k).rvalid && (s.ic.mOut k).rready then
      [.read k (s.ic.mOut k).araddr (s.slaves.out k).rdata] else [])

/-- The results of the words done in this cycle. -/
def results : List Word := s.served.map ServedWord.result ++ s.ic.dropped

variable {s}

theorem served_none (haw : s.ic.mAwvalid = noPort) (hr : s.ic.mRready = noPort) :
    s.served = [] := by
  simp [served, mOut, haw, hr, noPort]

/-- Only one port is spoken to. -/
theorem flatMap_ports {β : Type} {f : Fin 4 → List β} {k : Fin 4} (h : ∀ j, j ≠ k → f j = []) :
    [dmemPort, gpioPort, uartPort, timerPort].flatMap f = f k := by
  match k with
  | 0 => simp [h gpioPort (by decide), h uartPort (by decide), h timerPort (by decide)]
  | 1 => simp [h dmemPort (by decide), h uartPort (by decide), h timerPort (by decide)]
  | 2 => simp [h dmemPort (by decide), h gpioPort (by decide), h timerPort (by decide)]
  | 3 => simp [h dmemPort (by decide), h gpioPort (by decide), h uartPort (by decide)]

theorem served_write {k : Fin 4} (haw : s.ic.mAwvalid = onePort k) (hr : s.ic.mRready = noPort)
    (hready : (s.slaves.out k).awready = true) :
    s.served = [.write k s.ic.path.axilAddr s.ic.path.axilData s.ic.path.axilWstrb] := by
  rw [served, flatMap_ports (k := k) fun j hj => by simp [mOut, haw, hr, noPort, onePort_of_ne hj]]
  simp [mOut, haw, hr, hready, noPort]

theorem served_read {k : Fin 4} (haw : s.ic.mAwvalid = noPort) (hr : s.ic.mRready = onePort k) :
    s.served = if (s.slaves.out k).rvalid then
      [.read k s.ic.path.axilAddr (s.slaves.out k).rdata] else [] := by
  rw [served, flatMap_ports (k := k) fun j hj => by simp [mOut, haw, hr, noPort, onePort_of_ne hj]]
  simp [mOut, haw, hr, noPort]

/-! ## One access, stage by stage, with its data -/

/-- The results of the words before the current one. -/
def got (read phase2 : Bool) (wordLoReg : Word) : List Word :=
  if phase2 then [if read then wordLoReg else 0] else []

theorem got_length (read phase2 : Bool) (wordLoReg : Word) :
    (got read phase2 wordLoReg).length = phase2.toNat := by
  cases phase2 <;> rfl

/-- The current word is still to be done; `mem` is the memory before the access, `d` that of
`axil_mem`. -/
structure Before (m : MemReq) (mem : BitVec 30 → Word) (read phase2 : Bool) (wordLoReg : Word)
    (d : BitVec 14 → Word) : Prop where
  part : Part m read phase2
  sound : m.Sound mem (got read phase2 wordLoReg)
  agree : Agree d (if read then mem else m.stored mem phase2)

/-- The current word is done, with the result `r`. -/
structure After (m : MemReq) (mem : BitVec 30 → Word) (read phase2 : Bool) (wordLoReg : Word)
    (d : BitVec 14 → Word) (r : Word) : Prop where
  part : Part m read phase2
  sound : m.Sound mem (got read phase2 wordLoReg ++ [r])
  agree : Agree d (if read then mem else m.storedNext mem phase2)

/-- Where an access is, and the results so far. -/
inductive Transit (m : MemReq) (mem : BitVec 30 → Word) : List Word → Fabric → Prop
  | idle {s d} (h : Idle s) (hs : s.slaves.IdleWith d) (ha : Agree d mem) : Transit m mem [] s
  | requested {read phase2 wordLoReg path arb slaves d} (hb : Before m mem read phase2 wordLoReg d)
    (hg : arb.grantValid = false) (hs : slaves.IdleWith d) :
    Transit m mem (got read phase2 wordLoReg)
      ⟨.asking read phase2 wordLoReg, quiet .idle path arb, slaves⟩
  | granted {read phase2 wordLoReg path arb slaves d} (hb : Before m mem read phase2 wordLoReg d)
    (hg : arb.Granted read) (hs : slaves.IdleWith d) :
    Transit m mem (got read phase2 wordLoReg)
      ⟨.asking read phase2 wordLoReg, quiet .idle path arb, slaves⟩
  | decoding {read phase2 wordLoReg path arb slaves d} (hb : Before m mem read phase2 wordLoReg d)
    (hg : arb.Granted read) (hs : slaves.IdleWith d) (ha : path.axilAddr = m.busAddr phase2)
    (hv : path.axilAddrValid = true) :
    Transit m mem (got read phase2 wordLoReg)
      ⟨.asking read phase2 wordLoReg, decoding path arb read, slaves⟩
  | data {phase2 wordLoReg path arb slaves d} (hb : Before m mem false phase2 wordLoReg d)
    (hg : arb.Granted false) (hs : slaves.IdleWith d) (ha : path.axilAddr = m.busAddr phase2)
    (hv : path.axilAddrValid = true) (hd : icDecode path.axilAddr = some path.mSelect) :
    Transit m mem (got false phase2 wordLoReg)
      ⟨.asked false phase2 wordLoReg, takingData path arb, slaves⟩
  | drop {phase2 wordLoReg path arb slaves d} (hb : After m mem false phase2 wordLoReg d 0)
    (hg : arb.Granted false) (hs : slaves.IdleWith d) :
    Transit m mem (got false phase2 wordLoReg ++ [0])
      ⟨.asked false phase2 wordLoReg, dropping path arb, slaves⟩
  | writeSent {phase2 wordLoReg path arb slaves d} (hb : Before m mem false phase2 wordLoReg d)
    (hg : arb.Granted false) (hs : slaves.IdleWith d) (ha : path.axilAddr = m.busAddr phase2)
    (hd : icDecode path.axilAddr = some path.mSelect) (hw : path.axilData = m.busWdata phase2)
    (hst : path.axilWstrb = m.busWstrb phase2) :
    Transit m mem (got false phase2 wordLoReg)
      ⟨.awaiting false phase2 wordLoReg, sendingWrite path arb, slaves⟩
  | writing {phase2 wordLoReg path arb slaves d} (hb : Before m mem false phase2 wordLoReg d)
    (hg : arb.Granted false)
    (hs : slaves.WritingWith path.mSelect (m.busAddr phase2)
      (m.busWdata phase2, m.busWstrb phase2) d)
    (ha : path.axilAddr = m.busAddr phase2)
    (hd : icDecode (m.busAddr phase2) = some path.mSelect) :
    Transit m mem (got false phase2 wordLoReg ++ [0])
      ⟨.awaiting false phase2 wordLoReg, awaitingB path arb, slaves⟩
  | readSelected {phase2 wordLoReg path arb slaves d} (hb : Before m mem true phase2 wordLoReg d)
    (hg : arb.Granted true) (hs : slaves.IdleWith d) (ha : path.axilAddr = m.busAddr phase2)
    (hv : path.axilAddrValid = true) (hd : icDecode path.axilAddr = some path.mSelect) :
    Transit m mem (got true phase2 wordLoReg)
      ⟨.awaiting true phase2 wordLoReg, awaitingR path arb, slaves⟩
  | readSent {phase2 wordLoReg path arb slaves d} (hb : Before m mem true phase2 wordLoReg d)
    (hg : arb.Granted true) (hs : slaves.IdleWith d) (ha : path.axilAddr = m.busAddr phase2)
    (hv : path.axilAddrValid = false) (hd : icDecode path.axilAddr = some path.mSelect) :
    Transit m mem (got true phase2 wordLoReg)
      ⟨.awaiting true phase2 wordLoReg, sendingRead path arb, slaves⟩
  | reading {phase2 wordLoReg path arb slaves d} (hb : Before m mem true phase2 wordLoReg d)
    (hg : arb.Granted true) (hs : slaves.ReadingWith path.mSelect (m.busAddr phase2) d)
    (ha : path.axilAddr = m.busAddr phase2) (hv : path.axilAddrValid = false)
    (hd : icDecode path.axilAddr = some path.mSelect) :
    Transit m mem (got true phase2 wordLoReg)
      ⟨.awaiting true phase2 wordLoReg, awaitingR path arb, slaves⟩
  | answered {read phase2 wordLoReg path arb slaves d r} (hb : After m mem read phase2 wordLoReg d r)
    (hg : arb.Granted read) (hs : slaves.IdleWith d) (hr : r = if read then path.axilData else 0) :
    Transit m mem (got read phase2 wordLoReg ++ [r])
      ⟨.awaiting read phase2 wordLoReg, answering path arb read, slaves⟩

/-! ### One cycle -/

/-- A cycle in which the access goes on: the words done in it are served in it. -/
structure Next (m : MemReq) (mem : BitVec 30 → Word) (rs : List Word) (s : Fabric) (e : SlavesIn) :
    Prop where
  next : Transit m mem (rs ++ s.results) (s.step m e)
  served : m.served (rs ++ s.results) = m.served rs ++ s.served

section Stages

variable {m : MemReq} {mem : BitVec 30 → Word} {rs : List Word} {e : SlavesIn} {read phase2 : Bool}
  {wordLoReg r : Word} {path : IcPath} {arb : Arbiter} {slaves : Slaves} {d : BitVec 14 → Word}

/-- Nothing is done. -/
theorem Next.quiet (hs : s.served = []) (hd : s.ic.dropped = [])
    (h : Transit m mem rs (s.step m e)) : Next m mem rs s e := by
  have hresults : s.results = [] := by rw [results, hs, hd]; rfl
  exact ⟨by rw [hresults, List.append_nil]; exact h, by rw [hresults, hs]; simp⟩

/-- The current word is done. -/
theorem Next.word (hlen : rs.length = phase2.toNat) (hresults : s.results = [r])
    (hs : s.served = m.servedWord phase2 r) (h : Transit m mem (rs ++ [r]) (s.step m e)) :
    Next m mem rs s e :=
  ⟨by rw [hresults]; exact h, by rw [hresults, hs, MemReq.served_append hlen]⟩

theorem slaves_idleWith {ic : Interconnect} (hs : slaves.IdleWith d) (haw : ic.mAwvalid = noPort)
    (hw : ic.mWvalid = noPort) (har : ic.mArvalid = noPort) :
    (slaves.step ic.mOut e).IdleWith d :=
  hs.step fun k => ⟨congrFun haw k, congrFun hw k, congrFun har k⟩

theorem Before.after_dropped (hb : Before m mem read phase2 wordLoReg d)
    (hnone : icDecode (m.busAddr phase2) = none) : After m mem read phase2 wordLoReg d 0 where
  part := hb.part
  sound := hb.sound.append (got_length ..) (fun _ => rfl) fun _ hd => by rw [hnone] at hd; cases hd
  agree := by
    have ha := hb.agree
    cases read with
    | true => exact ha
    | false => exact ha.dropped _ _ _ hnone

theorem Before.after_written {k : Fin 4} (hb : Before m mem false phase2 wordLoReg d)
    (hk : icDecode (m.busAddr phase2) = some k) :
    After m mem false phase2 wordLoReg
      (Slaves.written d k (m.busAddr phase2) (m.busWdata phase2, m.busWstrb phase2)) 0 where
  part := hb.part
  sound := hb.sound.append (got_length ..) (fun _ => rfl) fun hwe _ => by
    have := hb.part.read
    simp [hwe] at this
  agree := hb.agree.written _ _ _ hk

theorem Before.after_read {k : Fin 4} (hb : Before m mem true phase2 wordLoReg d)
    (hk : icDecode (m.busAddr phase2) = some k)
    (hr : k = dmemPort → r = d (Dmem.wordIdx (m.busAddr phase2))) :
    After m mem true phase2 wordLoReg d r where
  part := hb.part
  sound := hb.sound.append (got_length ..) (fun hnone => by rw [hk] at hnone; cases hnone)
    fun _ hd => by
      rw [hk] at hd
      rw [hr (Option.some.inj hd)]
      exact hb.agree _ (hk.trans hd)
  agree := hb.agree

theorem transit_begin (h : Idle s) (hs : s.slaves.IdleWith d) (ha : Agree d mem)
    (hm : m.presented = true) : Next m mem [] s e := by
  obtain ⟨master, ic, slaves⟩ := s
  obtain ⟨⟨awDone, wDone, phase2, wordLoReg, rfl⟩, ⟨path, arb, rfl, hg⟩, -⟩ := h
  refine .quiet (served_none rfl rfl) rfl ?_
  rw [step_of (AxilMaster.step_begin hm) (step_idle hg), request_none rfl rfl]
  have hb : Before m mem (!m.we) false wordLoReg d :=
    ⟨⟨rfl, nofun⟩, fun w hw => by simp [got] at hw, by cases m.we <;> exact ha⟩
  exact .requested hb (Arbiter.step_idle hg) (slaves_idleWith hs rfl rfl rfl)

theorem transit_requested (hb : Before m mem read phase2 wordLoReg d) (hg : arb.grantValid = false)
    (hs : slaves.IdleWith d) :
    Next m mem (got read phase2 wordLoReg)
      ⟨.asking read phase2 wordLoReg, Interconnect.quiet .idle path arb, slaves⟩ e := by
  have hmaster : (AxilMaster.asking read phase2 wordLoReg).step m
      (Interconnect.quiet .idle path arb).sOut = .asking read phase2 wordLoReg :=
    AxilMaster.step_asking rfl rfl rfl rfl
  have hreq : request ((AxilMaster.asking read phase2 wordLoReg).out m) =
      if read then 0b10 else 0b01 := by
    cases read <;> simp [request, AxilMaster.out, AxilMaster.asking]
  refine .quiet (served_none rfl rfl) rfl ?_
  rw [step_of hmaster (step_idle hg), hreq]
  exact .granted hb (Arbiter.step_request hg read) (slaves_idleWith hs rfl rfl rfl)

theorem transit_granted (hb : Before m mem read phase2 wordLoReg d) (hg : arb.Granted read)
    (hs : slaves.IdleWith d) :
    Next m mem (got read phase2 wordLoReg)
      ⟨.asking read phase2 wordLoReg, Interconnect.quiet .idle path arb, slaves⟩ e := by
  have hmaster : (AxilMaster.asking read phase2 wordLoReg).step m
      (Interconnect.quiet .idle path arb).sOut = .asking read phase2 wordLoReg :=
    AxilMaster.step_asking rfl rfl rfl rfl
  refine .quiet (served_none rfl rfl) rfl ?_
  rw [step_of hmaster (step_grant hg)]
  exact .decoding hb hg (slaves_idleWith hs rfl rfl rfl) (by cases read <;> rfl) rfl

theorem transit_decoding (hb : Before m mem read phase2 wordLoReg d) (hg : arb.Granted read)
    (hs : slaves.IdleWith d) (ha : path.axilAddr = m.busAddr phase2)
    (hv : path.axilAddrValid = true) :
    Next m mem (got read phase2 wordLoReg)
      ⟨.asking read phase2 wordLoReg, decoding path arb read, slaves⟩ e := by
  have hmaster : (AxilMaster.asking read phase2 wordLoReg).step m (decoding path arb read).sOut =
      .asked read phase2 wordLoReg := AxilMaster.step_accepted rfl rfl rfl rfl
  have hslaves : (slaves.step (decoding path arb read).mOut e).IdleWith d :=
    slaves_idleWith hs rfl rfl rfl
  have hserved : Fabric.served ⟨.asking read phase2 wordLoReg, decoding path arb read, slaves⟩ = [] :=
    served_none rfl rfl
  cases hd : icDecode path.axilAddr with
  | none =>
    rw [ha] at hd
    have hdropped : (decoding path arb read).dropped = [0] := if_pos ⟨rfl, by rw [← hd, ← ha]; rfl⟩
    have hafter := hb.after_dropped hd
    refine .word (r := 0) (got_length ..) ?_ ?_ ?_
    · rw [results, hserved]
      exact hdropped
    · rw [hserved, MemReq.servedWord, hd]
    · rw [step_of hmaster (step_decode hg), ha, hd]
      cases read with
      | true => exact .answered hafter hg hslaves rfl
      | false => exact .drop hafter hg hslaves
  | some k =>
    refine .quiet hserved (if_neg fun h => ?_) ?_
    · have hnone : icDecode path.axilAddr = none := h.2
      rw [hd] at hnone
      cases hnone
    · rw [step_of hmaster (step_decode hg), hd]
      cases read with
      | true => exact .readSelected hb hg hslaves ha hv hd
      | false => exact .data hb hg hslaves ha hv hd

theorem transit_data (hb : Before m mem false phase2 wordLoReg d) (hg : arb.Granted false)
    (hs : slaves.IdleWith d) (ha : path.axilAddr = m.busAddr phase2) (hv : path.axilAddrValid = true)
    (hd : icDecode path.axilAddr = some path.mSelect) :
    Next m mem (got false phase2 wordLoReg)
      ⟨.asked false phase2 wordLoReg, takingData path arb, slaves⟩ e := by
  have hmaster : (AxilMaster.asked false phase2 wordLoReg).step m (takingData path arb).sOut =
      .awaiting false phase2 wordLoReg := AxilMaster.step_data rfl
  refine .quiet (served_none rfl rfl) rfl ?_
  rw [step_of hmaster (step_write hg hv rfl)]
  exact .writeSent hb hg (slaves_idleWith hs rfl rfl rfl) ha hd rfl rfl

theorem transit_drop (hb : After m mem false phase2 wordLoReg d 0) (hg : arb.Granted false)
    (hs : slaves.IdleWith d) :
    Next m mem (got false phase2 wordLoReg ++ [0])
      ⟨.asked false phase2 wordLoReg, dropping path arb, slaves⟩ e := by
  have hmaster : (AxilMaster.asked false phase2 wordLoReg).step m (dropping path arb).sOut =
      .awaiting false phase2 wordLoReg := AxilMaster.step_data rfl
  refine .quiet (served_none rfl rfl) rfl ?_
  rw [step_of hmaster (step_writeDrop hg rfl)]
  exact .answered hb hg (slaves_idleWith hs rfl rfl rfl) rfl

theorem transit_writeSent (hb : Before m mem false phase2 wordLoReg d) (hg : arb.Granted false)
    (hs : slaves.IdleWith d) (ha : path.axilAddr = m.busAddr phase2)
    (hd : icDecode path.axilAddr = some path.mSelect) (hw : path.axilData = m.busWdata phase2)
    (hst : path.axilWstrb = m.busWstrb phase2) :
    Next m mem (got false phase2 wordLoReg)
      ⟨.awaiting false phase2 wordLoReg, sendingWrite path arb, slaves⟩ e := by
  have hmaster : (AxilMaster.awaiting false phase2 wordLoReg).step m (sendingWrite path arb).sOut =
      .awaiting false phase2 wordLoReg := AxilMaster.step_awaiting rfl rfl
  obtain ⟨haw, hw', -, hb', -⟩ := hs.idle.out path.mSelect
  have hserved : Fabric.served ⟨.awaiting false phase2 wordLoReg, sendingWrite path arb, slaves⟩ =
      [.write path.mSelect path.axilAddr path.axilData path.axilWstrb] := served_write rfl rfl haw
  have hwe : m.we = true := by simpa using hb.part.read.symm
  have hwriting : (slaves.step (sendingWrite path arb).mOut e).WritingWith path.mSelect
      path.axilAddr (path.axilData, path.axilWstrb) d :=
    hs.step_write fun _ => ⟨rfl, rfl, rfl⟩
  refine .word (r := 0) (got_length ..) ?_ ?_ ?_
  · rw [results, hserved]
    rfl
  · rw [hserved, MemReq.servedWord, ← ha, hd, hwe, hw, hst]
    rfl
  · rw [step_of hmaster (step_writeSend hg haw hw' hb')]
    refine .writing hb hg ?_ ha (ha ▸ hd)
    rw [← ha, ← hw, ← hst]
    exact hwriting

theorem transit_writing (hb : Before m mem false phase2 wordLoReg d) (hg : arb.Granted false)
    (hs : slaves.WritingWith path.mSelect (m.busAddr phase2)
      (m.busWdata phase2, m.busWstrb phase2) d)
    (ha : path.axilAddr = m.busAddr phase2)
    (hd : icDecode (m.busAddr phase2) = some path.mSelect) :
    Next m mem (got false phase2 wordLoReg ++ [0])
      ⟨.awaiting false phase2 wordLoReg, awaitingB path arb, slaves⟩ e := by
  have hmaster : (AxilMaster.awaiting false phase2 wordLoReg).step m (awaitingB path arb).sOut =
      .awaiting false phase2 wordLoReg := AxilMaster.step_awaiting rfl rfl
  have hbv : (slaves.out path.mSelect).bvalid = (slaves.wr path.mSelect).bvalid := by
    rw [Slaves.out_eq]
  have hbus : Slaves.NoRequest (awaitingB path arb).mOut := fun _ => ⟨rfl, rfl, rfl⟩
  have hready : ((awaitingB path arb).mOut path.mSelect).bready = true := onePort_self _
  have hstep : ((slaves.wr path.mSelect).bvalid = true ∧
        (slaves.step (awaitingB path arb).mOut e).IdleWith (Slaves.written d path.mSelect _ _)) ∨ _ :=
    hs.step hbus hready
  refine .quiet (served_none rfl rfl) rfl ?_
  rw [step_of hmaster (step_writeWait hg), hbv]
  rcases hstep with ⟨hbt, hidle⟩ | ⟨hbf, hwriting⟩
  · rw [hbt]
    exact .answered (hb.after_written hd) hg hidle rfl
  · rw [hbf]
    exact .writing hb hg hwriting ha hd

theorem transit_readSelected (hb : Before m mem true phase2 wordLoReg d) (hg : arb.Granted true)
    (hs : slaves.IdleWith d) (ha : path.axilAddr = m.busAddr phase2) (hv : path.axilAddrValid = true)
    (hd : icDecode path.axilAddr = some path.mSelect) :
    Next m mem (got true phase2 wordLoReg)
      ⟨.awaiting true phase2 wordLoReg, awaitingR path arb, slaves⟩ e := by
  have hmaster : (AxilMaster.awaiting true phase2 wordLoReg).step m (awaitingR path arb).sOut =
      .awaiting true phase2 wordLoReg := AxilMaster.step_awaiting rfl rfl
  obtain ⟨-, -, -, -, hr⟩ := hs.idle.out path.mSelect
  have hserved : Fabric.served ⟨.awaiting true phase2 wordLoReg, awaitingR path arb, slaves⟩ = [] := by
    rw [served_read (k := path.mSelect) rfl rfl]
    exact if_neg (by simp [hr])
  refine .quiet hserved rfl ?_
  rw [step_of hmaster (step_read hg hv hr)]
  exact .readSent hb hg (slaves_idleWith hs rfl rfl rfl) ha rfl hd

theorem transit_readSent (hb : Before m mem true phase2 wordLoReg d) (hg : arb.Granted true)
    (hs : slaves.IdleWith d) (ha : path.axilAddr = m.busAddr phase2)
    (hv : path.axilAddrValid = false) (hd : icDecode path.axilAddr = some path.mSelect) :
    Next m mem (got true phase2 wordLoReg)
      ⟨.awaiting true phase2 wordLoReg, sendingRead path arb, slaves⟩ e := by
  have hmaster : (AxilMaster.awaiting true phase2 wordLoReg).step m (sendingRead path arb).sOut =
      .awaiting true phase2 wordLoReg := AxilMaster.step_awaiting rfl rfl
  obtain ⟨-, -, har, -, hr⟩ := hs.idle.out path.mSelect
  have hserved :
      Fabric.served ⟨.awaiting true phase2 wordLoReg, sendingRead path arb, slaves⟩ = [] := by
    rw [served_read (k := path.mSelect) rfl rfl]
    exact if_neg (by simp [hr])
  have hreading : (slaves.step (sendingRead path arb).mOut e).ReadingWith path.mSelect
      path.axilAddr d :=
    hs.step_read fun _ => ⟨rfl, rfl, rfl⟩
  refine .quiet hserved rfl ?_
  rw [step_of hmaster (step_readSend hg hv har hr)]
  refine .reading hb hg ?_ ha hv hd
  rw [← ha]
  exact hreading

theorem transit_reading (hb : Before m mem true phase2 wordLoReg d) (hg : arb.Granted true)
    (hs : slaves.ReadingWith path.mSelect (m.busAddr phase2) d)
    (ha : path.axilAddr = m.busAddr phase2) (hv : path.axilAddrValid = false)
    (hd : icDecode path.axilAddr = some path.mSelect) :
    Next m mem (got true phase2 wordLoReg)
      ⟨.awaiting true phase2 wordLoReg, awaitingR path arb, slaves⟩ e := by
  have hmaster : (AxilMaster.awaiting true phase2 wordLoReg).step m (awaitingR path arb).sOut =
      .awaiting true phase2 wordLoReg := AxilMaster.step_awaiting rfl rfl
  have hrv : (slaves.out path.mSelect).rvalid = (slaves.rd path.mSelect).rvalid := by
    rw [Slaves.out_eq]
  have hserved : Fabric.served ⟨.awaiting true phase2 wordLoReg, awaitingR path arb, slaves⟩ =
      if (slaves.out path.mSelect).rvalid then
        [.read path.mSelect path.axilAddr (slaves.out path.mSelect).rdata] else [] :=
    served_read rfl rfl
  have hwe : m.we = false := by simpa using hb.part.read.symm
  have hd' : icDecode (m.busAddr phase2) = some path.mSelect := ha ▸ hd
  have hbus : Slaves.NoRequest (awaitingR path arb).mOut := fun _ => ⟨rfl, rfl, rfl⟩
  have hready : ((awaitingR path arb).mOut path.mSelect).rready = true := onePort_self _
  have hstep : ((slaves.rd path.mSelect).rvalid = true ∧
        (slaves.step (awaitingR path arb).mOut e).IdleWith d) ∨ _ :=
    hs.step hbus hready
  rcases hstep with ⟨hr, hidle⟩ | ⟨hr, hreading⟩
  · rw [← hrv] at hr
    rw [hr, if_pos rfl] at hserved
    have hdata : path.mSelect = dmemPort →
        (slaves.out path.mSelect).rdata = d (Dmem.wordIdx (m.busAddr phase2)) := by
      intro hk
      rw [hk] at hs hr ⊢
      exact hs.rdata hr
    refine .word (r := (slaves.out path.mSelect).rdata) (got_length ..) ?_ ?_ ?_
    · rw [results, hserved]
      rfl
    · rw [hserved, MemReq.servedWord, hd', hwe, ha]
      rfl
    · rw [step_of hmaster (step_readWait hg hv), hr]
      exact .answered (hb.after_read hd' hdata) hg hidle rfl
  · rw [← hrv] at hr
    rw [hr, if_neg Bool.false_ne_true] at hserved
    refine .quiet hserved rfl ?_
    rw [step_of hmaster (step_readWait hg hv), hr]
    exact .reading hb hg hreading ha hv hd

/-- The last word is answered: what the access has done, and that the bus is idle again. -/
structure Complete (m : MemReq) (mem : BitVec 30 → Word) (rs : List Word) (s : Fabric)
    (e : SlavesIn) : Prop where
  length : rs.length = if m.crosses then 2 else 1
  sound : m.Sound mem rs
  results : s.results = []
  served : s.served = []
  rdata : m.we = false → m.re = true →
    s.master.memRdata m s.ic.sOut = m.value (byteAt (m.wordsSeen mem rs))
  idle : (s.step m e).Idle
  slaves : ∃ d, (s.step m e).slaves.IdleWith d ∧
    Agree d (if m.we then m.storedNext mem m.crosses else mem)

/-- The answer to the last word ends the access, that to the first begins the second. -/
theorem transit_answered (hm : m.presented = true) (hb : After m mem read phase2 wordLoReg d r)
    (hg : arb.Granted read) (hs : slaves.IdleWith d) (hr : r = if read then path.axilData else 0) :
    let s : Fabric := ⟨.awaiting read phase2 wordLoReg, answering path arb read, slaves⟩
    let rs := got read phase2 wordLoReg ++ [r]
    s.busStall m = false ∧ Complete m mem rs s e ∨ s.busStall m = true ∧ Next m mem rs s e := by
  intro s rs
  have hready : (if read then ((AxilMaster.awaiting read phase2 wordLoReg).out m).rready
      else ((AxilMaster.awaiting read phase2 wordLoReg).out m).bready) = true := by
    cases read <;> rfl
  have hreq : request ((AxilMaster.awaiting read phase2 wordLoReg).out m) = 0 :=
    request_none (by cases read <;> rfl) (by cases read <;> rfl)
  obtain ⟨arb', hg', hic⟩ : ∃ arb', arb'.grantValid = false ∧
      (answering path arb read).step _ slaves.out = Interconnect.quiet .idle path arb' :=
    step_waitIdle hg hready hreq
  have hslaves : (slaves.step (answering path arb read).mOut e).IdleWith d :=
    slaves_idleWith hs rfl rfl rfl
  have hserved : s.served = [] := served_none rfl rfl
  have hresults : s.results = [] := by
    rw [results, hserved]
    rfl
  have hphase : (AxilMaster.awaiting read phase2 wordLoReg).phaseDone
      (answering path arb read).sOut = true := by
    cases read <;> rfl
  have hstall : s.busStall m = !(!m.crosses || phase2) := by
    show (m.presented && !((AxilMaster.awaiting read phase2 wordLoReg).phaseDone _ &&
      (!m.crosses || (AxilMaster.awaiting read phase2 wordLoReg).phase2))) = _
    rw [hm, hphase]
    cases read <;> rfl
  have hread := hb.part.read
  cases hlast : (!m.crosses || phase2) with
  | true =>
    have hmaster : (AxilMaster.awaiting read phase2 wordLoReg).step m
        (answering path arb read).sOut = _ := AxilMaster.step_last rfl rfl hlast
    have hc : phase2 = m.crosses := by
      cases phase2 with
      | true => exact (hb.part.crosses rfl).symm
      | false => simpa using hlast.symm
    refine .inl ⟨by rw [hstall, hlast]; rfl, ?_, hb.sound, hresults, hserved, ?_, ?_, ?_⟩
    · rw [List.length_append, got_length, ← hc]
      cases phase2 <;> rfl
    · intro hwe hre
      obtain rfl : read = true := by rw [hread, hwe]; rfl
      have hlen : (got true phase2 wordLoReg).length = phase2.toNat := got_length ..
      refine memRdata_value hre hwe (fun hc' => ?_) ?_
      · obtain rfl : phase2 = true := hc.trans hc'
        have hget : (got true true wordLoReg ++ [r])[false.toNat]? = some wordLoReg := rfl
        have hlo := hb.sound.wordsSeen hwe hget fun h => by cases h
        rw [m.wordIdx_busAddr, if_neg Bool.false_ne_true] at hlo
        exact hlo.symm
      · have hget : (got true phase2 wordLoReg ++ [r])[phase2.toNat]? = some r := by
          rw [← hlen, List.getElem?_concat_length]
        rw [← hc, hb.sound.wordsSeen hwe hget hb.part.crosses, hr]
        rfl
    · rw [step_of hmaster hic]
      exact ⟨⟨_, _, _, _, rfl⟩, ⟨_, _, rfl, hg'⟩, hslaves.idle⟩
    · rw [step_of hmaster hic]
      refine ⟨d, hslaves, ?_⟩
      have ha := hb.agree
      rw [hread, hc] at ha
      cases hwe : m.we <;> simpa [hwe] using ha
  | false =>
    have hmaster : (AxilMaster.awaiting read phase2 wordLoReg).step m
        (answering path arb read).sOut = _ := AxilMaster.step_next rfl rfl hlast
    obtain ⟨hc, rfl⟩ := MemReq.of_not_last hlast
    refine .inr ⟨by rw [hstall, hlast]; rfl, .quiet hserved rfl ?_⟩
    have hrs : rs = got read true (if read then path.axilData else wordLoReg) := by
      show got read false wordLoReg ++ [r] = _
      rw [hr]
      cases read <;> rfl
    rw [step_of hmaster hic, hrs]
    refine .requested ⟨⟨hread, fun _ => hc⟩, hrs ▸ hb.sound, ?_⟩ hg' hslaves
    have ha := hb.agree
    cases read with
    | true => exact ha
    | false =>
      rw [MemReq.storedNext_false] at ha
      exact ha

end Stages

/-- **One cycle of an access**, with its data. -/
theorem Transit.step {m : MemReq} {mem : BitVec 30 → Word} {rs : List Word} {s : Fabric}
    (hm : m.presented = true) (h : Transit m mem rs s) (e : SlavesIn) :
    s.busStall m = false ∧ Complete m mem rs s e ∨ s.busStall m = true ∧ Next m mem rs s e := by
  cases h with
  | idle h hs ha =>
    obtain ⟨path, arb, hic, -⟩ := h.ic
    have hstall := busStall_of_no_response (s := s) hm (by rw [hic]; rfl) (by rw [hic]; rfl)
    exact .inr ⟨hstall, transit_begin h hs ha hm⟩
  | requested hb hg hs =>
    exact .inr ⟨busStall_of_no_response hm rfl rfl, transit_requested hb hg hs⟩
  | granted hb hg hs => exact .inr ⟨busStall_of_no_response hm rfl rfl, transit_granted hb hg hs⟩
  | decoding hb hg hs ha hv =>
    exact .inr ⟨busStall_of_no_response hm rfl rfl, transit_decoding hb hg hs ha hv⟩
  | data hb hg hs ha hv hd =>
    exact .inr ⟨busStall_of_no_response hm rfl rfl, transit_data hb hg hs ha hv hd⟩
  | drop hb hg hs => exact .inr ⟨busStall_of_no_response hm rfl rfl, transit_drop hb hg hs⟩
  | writeSent hb hg hs ha hd hw hst =>
    exact .inr ⟨busStall_of_no_response hm rfl rfl, transit_writeSent hb hg hs ha hd hw hst⟩
  | writing hb hg hs ha hd =>
    exact .inr ⟨busStall_of_no_response hm rfl rfl, transit_writing hb hg hs ha hd⟩
  | readSelected hb hg hs ha hv hd =>
    exact .inr ⟨busStall_of_no_response hm rfl rfl, transit_readSelected hb hg hs ha hv hd⟩
  | readSent hb hg hs ha hv hd =>
    exact .inr ⟨busStall_of_no_response hm rfl rfl, transit_readSent hb hg hs ha hv hd⟩
  | reading hb hg hs ha hv hd =>
    exact .inr ⟨busStall_of_no_response hm rfl rfl, transit_reading hb hg hs ha hv hd⟩
  | answered hb hg hs hr => exact transit_answered hm hb hg hs hr

end Fabric

end Rv32i

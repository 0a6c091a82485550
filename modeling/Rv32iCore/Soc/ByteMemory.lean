import Rv32iCore.Lib.Sync
import Rv32iCore.Spec.WordMemory
import Rv32iCore.Soc.AxilMaster

/-!
# `axil_master` on a word memory is a byte memory

`BusSystem` is `axil_master` connected to any AXI4-Lite word memory.  Its byte lanes put the
bytes of an access where the memory has them (`MemReq.storeLanes`, `shifted_byte`), its FSM
carries out one access at a time (`MemRel`), and so the MEM stage sees `ByteMachine`.

    axil_master_byte_memory     every load yields its bytes, every store changes just its own
-/

namespace Rv32i

open Sync Bytes

/-! ## Byte lanes -/

namespace MemReq

variable (m : MemReq)

theorem byteLane_addr : byteLane m.addr = m.lane.toNat := by
  rw [lane, BitVec.extractLsb, BitVec.extractLsb'_toNat]
  rfl

theorem toNat_shift : m.shift.toNat = 8 * m.lane.toNat := by
  have h : ∀ l : BitVec 2, (l ++ 0#3).toNat = 8 * l.toNat := by decide
  exact h m.lane

theorem toNat_addrLo : m.addrLo.toNat = m.addr.toNat / 4 * 4 := by
  have := m.addr.isLt
  rw [addrLo, BitVec.extractLsb, BitVec.toNat_append, BitVec.extractLsb'_toNat,
    show (0#2).toNat = 0 from rfl, Nat.or_zero, Nat.shiftLeft_eq, Nat.shiftRight_eq_div_pow]
  omega

/-- The bus addresses are those of the word of `m.addr` and of the next. -/
theorem wordIdx_busAddr (phase2 : Bool) :
    wordIdx (m.busAddr phase2) = if phase2 then wordIdx m.addr + 1 else wordIdx m.addr := by
  have hlo := m.toNat_addrLo
  have := m.addr.isLt
  cases phase2 with
  | false =>
    show wordIdx m.addrLo = wordIdx m.addr
    rw [← BitVec.toNat_inj, toNat_wordIdx, toNat_wordIdx, hlo]
    omega
  | true =>
    show wordIdx (m.addrLo + 4) = wordIdx m.addr + 1
    rw [← BitVec.toNat_inj, toNat_wordIdx, BitVec.toNat_add, BitVec.toNat_add, toNat_wordIdx, hlo,
      show (4 : Word).toNat = 4 from rfl, show (1 : BitVec 30).toNat = 1 from rfl]
    omega

theorem size_le : m.size ≤ 4 := by
  unfold size
  split_ifs <;> decide

/-- An access crosses when its bytes do not fit into the word of its address. -/
theorem crosses_iff : m.crosses = true ↔ 4 < byteLane m.addr + m.size := by
  have h : ∀ l f : BitVec 2, ((f == 0b10#2 && l != 0b00#2) || (f == 0b01#2 && l == 0b11#2)) = true ↔
      4 < l.toNat + (if f = 0b00#2 then 1 else if f = 0b01#2 then 2 else if f = 0b10#2 then 4 else 0) := by
    decide
  rw [byteLane_addr]
  exact h m.lane (m.funct3.extractLsb 1 0)

theorem strb_lanes : (∀ k < 4, (m.busWstrb false).getLsbD k =
      decide (m.lane.toNat ≤ k ∧ k < m.lane.toNat + m.size)) ∧
    (∀ k < 4, (m.busWstrb true).getLsbD k = decide (k + 4 < m.lane.toNat + m.size)) := by
  have h : ∀ l f : BitVec 2, ∀ k < 4,
      let en : BitVec 4 := if f = 0b00#2 then 0b0001 else if f = 0b01#2 then 0b0011
        else if f = 0b10#2 then 0b1111 else 0b0000
      let n := if f = 0b00#2 then 1 else if f = 0b01#2 then 2 else if f = 0b10#2 then 4 else 0
      (((0#4 ++ en) <<< l).extractLsb 3 0).getLsbD k = decide (l.toNat ≤ k ∧ k < l.toNat + n) ∧
      (((0#4 ++ en) <<< l).extractLsb 7 4).getLsbD k = decide (k + 4 < l.toNat + n) := by
    decide
  exact ⟨fun k hk => (h m.lane (m.funct3.extractLsb 1 0) k hk).1,
    fun k hk => (h m.lane (m.funct3.extractLsb 1 0) k hk).2⟩

theorem byteOf_wdataShifted (k : Nat) (hk : k < 8) : byteOf m.wdataShifted k =
    if k < m.lane.toNat then 0 else byteOf (0#32 ++ m.wdata) (k - m.lane.toNat) := by
  rw [wdataShifted, BitVec.shiftLeft_eq', toNat_shift, byteOf_shiftLeft _ _ _ (by omega)]

/-- The strobes and the data that `axil_master` drives are those of a store at `m.addr`. -/
theorem storeLanes : StoreLanes m.addr m.size m.wdata m.busWdata m.busWstrb := by
  have hlane : m.lane.toNat < 4 := m.lane.isLt
  refine ⟨?_, ?_, fun k hk hl => ?_, fun k hk hl => ?_⟩ <;> simp only [byteLane_addr] at *
  · exact m.strb_lanes.1
  · exact m.strb_lanes.2
  · show byteOf (m.wdataShifted.extractLsb' (8 * 0) (8 * 4)) k = _
    rw [byteOf_extractLsb' _ _ _ _ hk, byteOf_wdataShifted _ _ (by omega), if_neg (by omega),
      byteOf_append (n := 4), if_pos (by omega), Nat.zero_add]
  · show byteOf (m.wdataShifted.extractLsb' (8 * 4) (8 * 4)) k = _
    rw [byteOf_extractLsb' _ _ _ _ hk, byteOf_wdataShifted _ _ (by omega), if_neg (by omega),
      byteOf_append (n := 4), if_pos (by omega), Nat.add_comm]

end MemReq

/-! ### Loads -/

section Load

variable {s : AxilMaster} {m : MemReq} {o : SlaveOut} {mem : BitVec 30 → Word}

/-- Shifted down, the words read are the bytes from `m.addr` on. -/
theorem shifted_byte (hlo : m.crosses = true → s.wordLoReg = mem (wordIdx m.addr))
    (hr : o.rdata = mem (wordIdx (m.busAddr m.crosses))) (d : Nat) (hd : d < m.size) :
    byteOf (s.shifted m o) d = byteAt mem (m.addr + BitVec.ofNat 32 d) := by
  have hlane := byteLane_lt m.addr
  have hsize := m.size_le
  have hsh : byteOf (s.shifted m o) d = byteOf (s.combined m o) (d + byteLane m.addr) := by
    show byteOf ((s.combined m o >>> m.shift).extractLsb' (8 * 0) (8 * 4)) d = _
    rw [byteOf_extractLsb' _ _ _ _ (by omega), BitVec.ushiftRight_eq', m.toNat_shift,
      byteOf_ushiftRight, m.byteLane_addr, Nat.zero_add]
  rw [hsh, byteAt_add mem m.addr d (by omega), AxilMaster.combined]
  cases hc : m.crosses with
  | true =>
    rw [hc] at hr
    rw [if_pos rfl, byteOf_append (n := 4), hlo hc, hr, m.wordIdx_busAddr, if_pos rfl,
      Nat.add_comm d]
  | false =>
    have hfit : ¬ 4 < byteLane m.addr + m.size := by rw [← m.crosses_iff, hc]; simp
    rw [hc] at hr
    rw [if_neg (by simp), byteOf_append (n := 4), if_pos (by omega), if_pos (by omega), hr,
      m.wordIdx_busAddr, if_neg (by simp), Nat.add_comm d]

theorem lb_extend (v : Word) :
    (v.extractLsb 7 7).replicate 24 ++ v.extractLsb 7 0 = (byteOf v 0).signExtend 32 := by
  refine eq_signExtend_of_replicate (n := 7) (k := 24) (x := byteOf v 0) (b := v.extractLsb 7 7)
    ?_ fun i => rfl
  rw [getLsbD_byteOf]
  simp

theorem lh_extend (v : Word) : (v.extractLsb 15 15).replicate 16 ++ v.extractLsb 15 0 =
    (byteOf v 1 ++ byteOf v 0).signExtend 32 := by
  rw [← extractLsb'_two_bytes]
  refine eq_signExtend_of_replicate (n := 15) (k := 16) (x := v.extractLsb' 0 16)
    (b := v.extractLsb 15 15) ?_ fun i => rfl
  simp

theorem word_bytes (v : Word) : v = byteOf v 3 ++ byteOf v 2 ++ byteOf v 1 ++ byteOf v 0 := by
  refine eq_of_byteOf_eq (n := 4) fun k hk => ?_
  interval_cases k <;> simp [byteOf_append_byte]

/-- The read data is the load's value. -/
theorem memRdata_eq (hre : m.re = true) (hv : m.Valid)
    (hlo : m.crosses = true → s.wordLoReg = mem (wordIdx m.addr))
    (hr : o.rdata = mem (wordIdx (m.busAddr m.crosses))) :
    s.memRdata m o = loadValue (byteAt mem) m.addr m.funct3 := by
  have hb := fun d hd => shifted_byte hlo hr d hd
  have h0 : 0 < m.size → byteOf (s.shifted m o) 0 = byteAt mem m.addr := by simpa using hb 0
  have h1 : 1 < m.size → byteOf (s.shifted m o) 1 = byteAt mem (m.addr + 1) := hb 1
  have h2 : 2 < m.size → byteOf (s.shifted m o) 2 = byteAt mem (m.addr + 2) := hb 2
  have h3 : 3 < m.size → byteOf (s.shifted m o) 3 = byteAt mem (m.addr + 3) := hb 3
  have hf := (hv.1 hre).2
  simp only [List.mem_cons, List.not_mem_nil, or_false] at hf
  unfold AxilMaster.memRdata loadValue
  rcases hf with hf | hf | hf | hf | hf <;> simp only [hf, BitVec.reduceEq, ↓reduceIte]
  · have hs : m.size = 1 := by simp [MemReq.size, hf]
    rw [lb_extend, h0 (by omega)]
  · have hs : m.size = 2 := by simp [MemReq.size, hf]
    rw [lh_extend, h0 (by omega), h1 (by omega)]
  · have hs : m.size = 4 := by simp [MemReq.size, hf]
    rw [← h0 (by omega), ← h1 (by omega), ← h2 (by omega), ← h3 (by omega)]
    exact word_bytes _
  · have hs : m.size = 1 := by simp [MemReq.size, hf]
    rw [← h0 (by omega)]
    exact zero_append_eq_zeroExtend (byteOf (s.shifted m o) 0)
  · have hs : m.size = 2 := by simp [MemReq.size, hf]
    rw [← h0 (by omega), ← h1 (by omega), ← extractLsb'_two_bytes]
    exact zero_append_eq_zeroExtend ((s.shifted m o).extractLsb' 0 16)

end Load

/-! ## The memory, one request at a time -/

namespace WordMemory

/-- A memory with at most one write under way: what has been accepted of it, or that it has
been carried out and B is owed. -/
def writing (mem : BitVec 30 → Word) (a : BitVec 30) (data : Word) (strb : BitVec 4)
    (aw w done : Bool) : WordMemory :=
  if done then ⟨writeWord mem a data strb, [], [], [], 1, []⟩
  else ⟨mem, if aw then [a] else [], if w then [(data, strb)] else [], [], 0, []⟩

/-- A memory with at most one read under way. -/
def reading (mem : BitVec 30 → Word) (a : BitVec 30) (ar done : Bool) : WordMemory :=
  if done then ⟨mem, [], [], [], 0, [mem a]⟩ else ⟨mem, [], [], if ar then [a] else [], 0, []⟩

variable {mem : BitVec 30 → Word} {a : BitVec 30} {data : Word} {strb : BitVec 4}
  {aw w ar done : Bool} {o : MasterOut} {c : MemoryChoice}

theorem foldl_perform_writing (cs : List Bool) :
    cs.foldl perform (writing mem a data strb aw w done) =
      writing mem a data strb aw w (done || (aw && w && cs.contains true)) := by
  induction cs generalizing done with
  | nil => simp
  | cons b cs ih =>
    have h : perform (writing mem a data strb aw w done) b =
        writing mem a data strb aw w (done || (aw && w && b)) := by
      cases b <;> cases aw <;> cases w <;> cases done <;> rfl
    rw [List.foldl_cons, h, ih]
    congr 1
    cases b <;> cases aw <;> cases w <;> cases done <;> simp

theorem foldl_perform_reading (cs : List Bool) :
    cs.foldl perform (reading mem a ar done) =
      reading mem a ar (done || (ar && cs.contains false)) := by
  induction cs generalizing done with
  | nil => simp
  | cons b cs ih =>
    have h : perform (reading mem a ar done) b = reading mem a ar (done || (ar && !b)) := by
      cases b <;> cases ar <;> cases done <;> rfl
    rw [List.foldl_cons, h, ih]
    congr 1
    cases b <;> cases ar <;> cases done <;> simp

/-- A queue of at most one request, when one more is accepted only into an empty queue. -/
theorem queue_append {β : Type} {x v : Bool} {y z : β} (h : v = true → x = false ∧ z = y) :
    (if x then [y] else []) ++ (if v then [z] else []) = if x || v then [y] else [] := by
  cases v with
  | false => simp
  | true =>
    obtain ⟨rfl, rfl⟩ := h rfl
    rfl

/-- Nothing is offered any more for a request that is carried out. -/
theorem valid_eq_false {p : Prop} {valid : Bool} (h : valid = true → done = false ∧ p)
    (hd : done = true) : valid = false := by
  by_contra hv
  rw [hd] at h
  exact Bool.noConfusion (h (by simpa using hv)).1

variable (mem a data strb aw w done o c) in
/-- A cycle without an AR: what is accepted of the write, whether it is carried out, and B. -/
theorem step_writing (har : o.arvalid = false)
    (haw : o.awvalid = true → done = false ∧ aw = false ∧ wordIdx o.awaddr = a)
    (hw : o.wvalid = true → done = false ∧ w = false ∧ (o.wdata, o.wstrb) = (data, strb)) :
    ∃ done', (done' = true → done = true ∨
        (aw || (o.awvalid && c.awready)) = true ∧ (w || (o.wvalid && c.wready)) = true) ∧
      (writing mem a data strb aw w done).bvalid o c = (c.bvalid && done') ∧
      (writing mem a data strb aw w done).rvalid o c = false ∧
      (writing mem a data strb aw w done).step o c =
        if c.bvalid && done' && o.bready then quiet (writeWord mem a data strb)
        else writing mem a data strb (aw || (o.awvalid && c.awready)) (w || (o.wvalid && c.wready))
          done' := by
  have hacc : (writing mem a data strb aw w done).accept o c =
      writing mem a data strb (aw || (o.awvalid && c.awready)) (w || (o.wvalid && c.wready)) done := by
    cases hd : done with
    | true =>
      have h1 : o.awvalid = false := valid_eq_false haw hd
      have h2 : o.wvalid = false := valid_eq_false hw hd
      simp [accept, writing, har, h1, h2]
    | false =>
      have h1 : o.awvalid && c.awready → aw = false ∧ wordIdx o.awaddr = a :=
        fun h => (haw (Bool.and_eq_true_iff.1 h).1).2
      have h2 : o.wvalid && c.wready → w = false ∧ (o.wdata, o.wstrb) = (data, strb) :=
        fun h => (hw (Bool.and_eq_true_iff.1 h).1).2
      simp only [accept, writing, Bool.false_eq_true, if_false, har, Bool.false_and, List.append_nil]
      rw [queue_append h1, queue_append h2]
  have hperf : c.performs.foldl perform ((writing mem a data strb aw w done).accept o c) = _ :=
    hacc ▸ foldl_perform_writing c.performs
  generalize hdone : (done || _) = done' at hperf
  refine ⟨done', fun h => ?_, ?_, ?_, ?_⟩
  · rw [← hdone] at h
    simp only [Bool.or_eq_true, Bool.and_eq_true] at h ⊢
    tauto
  · rw [bvalid, performed, hperf]
    cases done' <;> simp [writing]
  · rw [rvalid, performed, hperf]
    cases done' <;> simp [writing]
  · rw [step, bvalid, rvalid, performed, hperf]
    cases done' <;> cases c.bvalid <;> cases o.bready <;> simp [writing, quiet]

variable (mem a ar done o c) in
/-- A cycle without AW and W: whether the read is accepted and carried out, and R. -/
theorem step_reading (haw : o.awvalid = false) (hw : o.wvalid = false)
    (har : o.arvalid = true → done = false ∧ ar = false ∧ wordIdx o.araddr = a) :
    ∃ done', (done' = true → done = true ∨ (ar || (o.arvalid && c.arready)) = true) ∧
      (reading mem a ar done).bvalid o c = false ∧
      (reading mem a ar done).rvalid o c = (c.rvalid && done') ∧
      ((c.rvalid && done') = true → (reading mem a ar done).rdata o c = mem a) ∧
      (reading mem a ar done).step o c =
        if c.rvalid && done' && o.rready then quiet mem
        else reading mem a (ar || (o.arvalid && c.arready)) done' := by
  have hacc : (reading mem a ar done).accept o c =
      reading mem a (ar || (o.arvalid && c.arready)) done := by
    cases hd : done with
    | true =>
      have h1 : o.arvalid = false := valid_eq_false har hd
      simp [accept, reading, haw, hw, h1]
    | false =>
      have h1 : o.arvalid && c.arready → ar = false ∧ wordIdx o.araddr = a :=
        fun h => (har (Bool.and_eq_true_iff.1 h).1).2
      simp only [accept, reading, Bool.false_eq_true, if_false, haw, hw, Bool.false_and,
        List.append_nil]
      rw [queue_append h1]
  have hperf : c.performs.foldl perform ((reading mem a ar done).accept o c) = _ :=
    hacc ▸ foldl_perform_reading c.performs
  generalize hdone : (done || _) = done' at hperf
  refine ⟨done', fun h => ?_, ?_, ?_, fun h => ?_, ?_⟩
  · rw [← hdone] at h
    simp only [Bool.or_eq_true, Bool.and_eq_true] at h ⊢
    tauto
  · rw [bvalid, performed, hperf]
    cases done' <;> simp [reading]
  · rw [rvalid, performed, hperf]
    cases done' <;> simp [reading]
  · simp only [Bool.and_eq_true] at h
    obtain ⟨hc, rfl⟩ := h
    rw [rdata, rvalid, performed, hperf]
    simp [reading, hc]
  · rw [step, bvalid, rvalid, performed, hperf]
    cases done' <;> cases c.rvalid <;> cases o.rready <;> simp [reading, quiet]

theorem quiet_eq_writing (mem : BitVec 30 → Word) (a : BitVec 30) (data : Word) (strb : BitVec 4) :
    quiet mem = writing mem a data strb false false false := rfl

end WordMemory

/-! ## The system -/

/-- `axil_master` and the memory behind it. -/
structure BusSystem where
  master : AxilMaster
  slave : WordMemory
  /-- the access of the last cycle, if that was stalled -/
  held : Option MemReq

structure SystemIn where
  mem : MemReq
  choice : MemoryChoice
deriving Inhabited

namespace BusSystem

def reset (mem : BitVec 30 → Word) : BusSystem := ⟨.reset, .quiet mem, none⟩

variable (t : BusSystem) (i : SystemIn)

def slaveOut : SlaveOut where
  awready := i.choice.awready
  wready := i.choice.wready
  bvalid := t.slave.bvalid (t.master.out i.mem) i.choice
  arready := i.choice.arready
  rvalid := t.slave.rvalid (t.master.out i.mem) i.choice
  rdata := t.slave.rdata (t.master.out i.mem) i.choice

def busStall : Bool := t.master.busStall i.mem (t.slaveOut i)

def step : BusSystem where
  master := t.master.step i.mem (t.slaveOut i)
  slave := t.slave.step (t.master.out i.mem) i.choice
  held := if t.busStall i then some i.mem else none

/-- The access that ends in this cycle. -/
def completed : List MemReq := if i.mem.presented && !t.busStall i then [i.mem] else []

/-- What `mem_rdata` gives a load in the cycle its stall falls. -/
def loaded : List Word :=
  if i.mem.re && !t.busStall i then [t.master.memRdata i.mem (t.slaveOut i)] else []

end BusSystem

/-- What the MEM stage promises: a real access, held while it is stalled. -/
structure SystemOk (t : BusSystem) (i : SystemIn) : Prop where
  valid : i.mem.Valid
  held : ∀ m ∈ t.held, i.mem = m

instance (t : BusSystem) (i : SystemIn) : Decidable (SystemOk t i) :=
  decidable_of_iff (i.mem.Valid ∧ ∀ m ∈ t.held, i.mem = m)
    ⟨fun h => ⟨h.1, h.2⟩, fun h => ⟨h.valid, h.held⟩⟩

/-! ## The relation -/

/-- The memory with the phases before the current one done. -/
def MemReq.stored (m : MemReq) (mem : BitVec 30 → Word) (phase2 : Bool) : BitVec 30 → Word :=
  if phase2 then writeWord mem (wordIdx m.addr) (m.busWdata false) (m.busWstrb false) else mem

/-- The states of the system, and the bytes as the completed accesses have left them. -/
inductive MemRel : BusSystem → (Word → BitVec 8) → Prop
  | idle (mem : BitVec 30 → Word) (awDone wDone phase2 : Bool) (wordLoReg : Word) :
    MemRel ⟨⟨.idle, false, false, false, false, false, awDone, wDone, phase2, wordLoReg⟩,
      .quiet mem, none⟩ (byteAt mem)
  | write (mem : BitVec 30 → Word) (m : MemReq) (awDone wDone phase2 : Bool) (wordLoReg : Word)
    (hwe : m.we = true) (hre : m.re = false) (hphase : phase2 = true → m.crosses = true) :
    MemRel ⟨⟨.write, !awDone, !wDone, false, false, false, awDone, wDone, phase2, wordLoReg⟩,
      .writing (m.stored mem phase2) (wordIdx (m.busAddr phase2)) (m.busWdata phase2)
        (m.busWstrb phase2) awDone wDone false, some m⟩ (byteAt mem)
  | wresp (mem : BitVec 30 → Word) (m : MemReq) (done awDone wDone phase2 : Bool) (wordLoReg : Word)
    (hwe : m.we = true) (hre : m.re = false) (hphase : phase2 = true → m.crosses = true) :
    MemRel ⟨⟨.wresp, false, false, true, false, false, awDone, wDone, phase2, wordLoReg⟩,
      .writing (m.stored mem phase2) (wordIdx (m.busAddr phase2)) (m.busWdata phase2)
        (m.busWstrb phase2) true true done, some m⟩ (byteAt mem)
  | read (mem : BitVec 30 → Word) (m : MemReq) (arDone done awDone wDone phase2 : Bool)
    (wordLoReg : Word) (hre : m.re = true) (hwe : m.we = false)
    (hphase : phase2 = true → m.crosses = true ∧ wordLoReg = mem (wordIdx m.addr))
    (hdone : done = true → arDone = true) :
    MemRel ⟨⟨.read, false, false, false, !arDone, true, awDone, wDone, phase2, wordLoReg⟩,
      .reading mem (wordIdx (m.busAddr phase2)) arDone done, some m⟩ (byteAt mem)

namespace MemReq

variable {m : MemReq} {mem : BitVec 30 → Word} {phase2 : Bool}

/-- The memory with the current phase done too. -/
def storedNext (m : MemReq) (mem : BitVec 30 → Word) (phase2 : Bool) : BitVec 30 → Word :=
  writeWord (m.stored mem phase2) (wordIdx (m.busAddr phase2)) (m.busWdata phase2) (m.busWstrb phase2)

theorem storedNext_false : m.storedNext mem false = m.stored mem true := by
  rw [storedNext, wordIdx_busAddr]
  rfl

/-- With its last word written a store is complete. -/
theorem byteAt_storedNext (hphase : phase2 = true → m.crosses = true)
    (hlast : (!m.crosses || phase2) = true) :
    byteAt (m.storedNext mem phase2) = storeBytes (byteAt mem) m.addr m.size m.wdata := by
  cases phase2 with
  | true =>
    rw [storedNext, wordIdx_busAddr, if_pos rfl]
    exact m.storeLanes.store_two mem m.size_le
  | false =>
    have hfit : ¬ 4 < byteLane m.addr + m.size := by
      rw [← m.crosses_iff]
      simpa using hlast
    rw [storedNext, wordIdx_busAddr, if_neg (by decide)]
    exact m.storeLanes.store_one mem (by omega)

variable (m mem phase2) in
/-- Before that each byte is the old or the new one. -/
theorem byteAt_stored (x : Word) : byteAt (m.stored mem phase2) x = byteAt mem x ∨
    byteAt (m.stored mem phase2) x = storeBytes (byteAt mem) m.addr m.size m.wdata x := by
  cases phase2 with
  | true =>
    show byteAt (writeWord mem (wordIdx m.addr) _ _) x = _ ∨
      byteAt (writeWord mem (wordIdx m.addr) _ _) x = _
    rw [m.storeLanes.byteAt_lo mem x m.size_le, storeBytes]
    by_cases hx : wordIdx x = wordIdx m.addr ∧ (x - m.addr).toNat < m.size
    · rw [if_pos hx, if_pos hx.2]
      exact .inr rfl
    · rw [if_neg hx]
      exact .inl rfl
  | false => exact .inl rfl

variable (m mem) in
theorem byteAt_storedNext_or (x : Word) (hphase : phase2 = true → m.crosses = true) :
    byteAt (m.storedNext mem phase2) x = byteAt mem x ∨
    byteAt (m.storedNext mem phase2) x = storeBytes (byteAt mem) m.addr m.size m.wdata x := by
  cases hlast : (!m.crosses || phase2) with
  | true =>
    rw [byteAt_storedNext hphase hlast]
    exact .inr rfl
  | false =>
    obtain ⟨-, rfl⟩ := of_not_last hlast
    rw [storedNext_false]
    exact byteAt_stored m mem true x

end MemReq

/-! ### One cycle -/

/-- What one cycle has to give: the relation, and the loads of the byte machine. -/
structure MemCycle (t : BusSystem) (bytes : Word → BitVec 8) (i : SystemIn) : Prop where
  rel : MemRel (t.step i) (run ByteMachine.step bytes (t.completed i))
  loaded : t.loaded i = outputs ByteMachine.step ByteMachine.loaded bytes (t.completed i)

section Cycle

variable {t : BusSystem} {bytes : Word → BitVec 8} {i : SystemIn}

theorem MemCycle.stalled (hs : t.busStall i = true) (hrel : MemRel (t.step i) bytes) :
    MemCycle t bytes i where
  rel := by simpa [BusSystem.completed, hs] using hrel
  loaded := by simp [BusSystem.completed, BusSystem.loaded, hs]

theorem MemCycle.absent (hre : i.mem.re = false) (hwe : i.mem.we = false)
    (hrel : MemRel (t.step i) bytes) : MemCycle t bytes i where
  rel := by simpa [BusSystem.completed, hre, hwe] using hrel
  loaded := by simp [BusSystem.completed, BusSystem.loaded, hre, hwe]

theorem MemCycle.stored (hs : t.busStall i = false) (hwe : i.mem.we = true) (hre : i.mem.re = false)
    (hrel : MemRel (t.step i) (storeBytes bytes i.mem.addr i.mem.size i.mem.wdata)) :
    MemCycle t bytes i where
  rel := by simpa [BusSystem.completed, ByteMachine.step, hs, hwe] using hrel
  loaded := by simp [BusSystem.completed, BusSystem.loaded, ByteMachine.loaded, hs, hwe, hre]

theorem MemCycle.loads (hs : t.busStall i = false) (hre : i.mem.re = true) (hwe : i.mem.we = false)
    (hrel : MemRel (t.step i) bytes)
    (hv : t.master.memRdata i.mem (t.slaveOut i) = loadValue bytes i.mem.addr i.mem.funct3) :
    MemCycle t bytes i where
  rel := by simpa [BusSystem.completed, ByteMachine.step, hs, hwe, hre] using hrel
  loaded := by simp [BusSystem.completed, BusSystem.loaded, ByteMachine.loaded, hs, hre, hv]

end Cycle

section Step

variable {mem : BitVec 30 → Word} {m : MemReq} {c : MemoryChoice} {awDone wDone phase2 : Bool}
  {wordLoReg : Word}

/-- Without a request the memory stays quiet. -/
theorem WordMemory.step_quiet (mem : BitVec 30 → Word) (c : MemoryChoice) (o : MasterOut)
    (haw : o.awvalid = false) (hw : o.wvalid = false)
    (har : o.arvalid = false) : (quiet mem).step o c = quiet mem := by
  obtain ⟨done', hdone, -, -, hstep⟩ := step_writing mem 0 0 0 false false false o c har
    (by simp [haw]) (by simp [hw])
  cases done' with
  | true => simp [haw, hw] at hdone
  | false => simpa [haw, hw, quiet_eq_writing mem 0 0 0] using hstep

theorem MemRel.step_idle (hv : m.Valid) :
    MemCycle ⟨⟨.idle, false, false, false, false, false, awDone, wDone, phase2, wordLoReg⟩,
      .quiet mem, none⟩ (byteAt mem) ⟨m, c⟩ := by
  have hslave := WordMemory.step_quiet mem c
    (AxilMaster.out ⟨.idle, false, false, false, false, false, awDone, wDone, phase2, wordLoReg⟩ m)
    rfl rfl rfl
  cases hwe : m.we with
  | true =>
    have hre : m.re = false := by
      by_contra hre
      have := (hv.1 (by simpa using hre)).1
      simp [hwe] at this
    have hwrite : MemRel ⟨⟨.write, true, true, false, false, false, false, false, false, wordLoReg⟩,
        .quiet mem, some m⟩ (byteAt mem) :=
      MemRel.write mem m false false false wordLoReg hwe hre (by simp)
    refine .stalled (by simp [BusSystem.busStall, hwe]) ?_
    simpa [BusSystem.step, BusSystem.busStall, AxilMaster.step, AxilMaster.stepIdle, hwe, hslave]
      using hwrite
  | false =>
    cases hre : m.re with
    | true =>
      have hread : MemRel ⟨⟨.read, false, false, false, true, true, false, false, false, wordLoReg⟩,
          .quiet mem, some m⟩ (byteAt mem) :=
        MemRel.read mem m false false false false false wordLoReg hre hwe (by simp) (by simp)
      refine .stalled (by simp [BusSystem.busStall, hre]) ?_
      simpa [BusSystem.step, BusSystem.busStall, AxilMaster.step, AxilMaster.stepIdle, hwe, hre, hslave]
        using hread
    | false =>
      have hidle := MemRel.idle mem false false false wordLoReg
      refine .absent hre hwe ?_
      simpa [BusSystem.step, BusSystem.busStall, AxilMaster.step, AxilMaster.stepIdle, hwe, hre, hslave]
        using hidle

theorem MemRel.step_write (hwe : m.we = true) (hre : m.re = false)
    (hphase : phase2 = true → m.crosses = true) :
    MemCycle ⟨⟨.write, !awDone, !wDone, false, false, false, awDone, wDone, phase2, wordLoReg⟩,
      .writing (m.stored mem phase2) (wordIdx (m.busAddr phase2)) (m.busWdata phase2)
        (m.busWstrb phase2) awDone wDone false, some m⟩ (byteAt mem) ⟨m, c⟩ := by
  obtain ⟨done', hacc, -, -, hslave⟩ := WordMemory.step_writing (m.stored mem phase2)
    (wordIdx (m.busAddr phase2)) (m.busWdata phase2) (m.busWstrb phase2) awDone wDone false
    (AxilMaster.out
      ⟨.write, !awDone, !wDone, false, false, false, awDone, wDone, phase2, wordLoReg⟩ m) c
    rfl (by simp [AxilMaster.out]) (by simp [AxilMaster.out])
  simp only [AxilMaster.out, Bool.or_and_distrib_left, Bool.or_not_self, Bool.true_and, Bool.and_false,
    Bool.false_eq_true, if_false, false_or] at hslave hacc
  refine .stalled (by simp [BusSystem.busStall, hwe]) ?_
  rw [BusSystem.step, AxilMaster.step_write, AxilMaster.out, hslave]
  cases hboth : ((awDone || c.awready) && (wDone || c.wready)) with
  | true =>
    rw [Bool.and_eq_true] at hboth
    have hresp := MemRel.wresp mem m done' true true phase2 wordLoReg hwe hre hphase
    simpa [BusSystem.slaveOut, BusSystem.busStall, hwe, hboth.1, hboth.2] using hresp
  | false =>
    obtain rfl : done' = false := by
      by_contra h
      rw [Bool.and_eq_false_iff] at hboth
      have := hacc (by simpa using h)
      simp_all
    have hstay := MemRel.write mem m (awDone || c.awready) (wDone || c.wready) phase2 wordLoReg hwe hre
      hphase
    simpa [BusSystem.slaveOut, BusSystem.busStall, hwe, hboth] using hstay

theorem MemRel.step_wresp {done : Bool} (hwe : m.we = true) (hre : m.re = false)
    (hphase : phase2 = true → m.crosses = true) :
    MemCycle ⟨⟨.wresp, false, false, true, false, false, awDone, wDone, phase2, wordLoReg⟩,
      .writing (m.stored mem phase2) (wordIdx (m.busAddr phase2)) (m.busWdata phase2)
        (m.busWstrb phase2) true true done, some m⟩ (byteAt mem) ⟨m, c⟩ := by
  obtain ⟨done', -, hb, -, hslave⟩ := WordMemory.step_writing (m.stored mem phase2)
    (wordIdx (m.busAddr phase2)) (m.busWdata phase2) (m.busWstrb phase2) true true done
    (AxilMaster.out
      ⟨.wresp, false, false, true, false, false, awDone, wDone, phase2, wordLoReg⟩ m) c
    rfl (by simp [AxilMaster.out]) (by simp [AxilMaster.out])
  simp only [AxilMaster.out, Bool.false_and, Bool.or_false, Bool.and_true] at hb hslave
  cases hbv : (c.bvalid && done') with
  | false =>
    rw [hbv] at hb hslave
    have hstay := MemRel.wresp mem m done' awDone wDone phase2 wordLoReg hwe hre hphase
    refine .stalled (by simp [BusSystem.busStall, BusSystem.slaveOut, AxilMaster.out, hwe, hb]) ?_
    rw [BusSystem.step, AxilMaster.step_wresp, AxilMaster.out, hslave]
    simpa [BusSystem.busStall, BusSystem.slaveOut, AxilMaster.out, hwe, hb] using hstay
  | true =>
    rw [hbv] at hb hslave
    cases hlast : (!m.crosses || phase2) with
    | false =>
      -- the first word is written, the second is next
      obtain ⟨hc, rfl⟩ := MemReq.of_not_last hlast
      have hnext : MemRel ⟨⟨.write, true, true, false, false, false, false, false, true, wordLoReg⟩,
          .quiet (m.storedNext mem false), some m⟩ (byteAt mem) := by
        rw [MemReq.storedNext_false]
        exact MemRel.write mem m false false true wordLoReg hwe hre fun _ => hc
      refine .stalled (by simp [BusSystem.busStall, BusSystem.slaveOut, AxilMaster.out, hwe, hb, hc]) ?_
      rw [BusSystem.step, AxilMaster.step_wresp, AxilMaster.out, hslave]
      simpa [BusSystem.busStall, BusSystem.slaveOut, AxilMaster.out, hwe, hb, hc, MemReq.storedNext]
        using hnext
    | true =>
      have hmore := MemReq.noMore_of_last hlast
      have hidle := MemRel.idle (m.storedNext mem phase2) awDone wDone phase2 wordLoReg
      rw [MemReq.byteAt_storedNext hphase hlast] at hidle
      refine .stored (by simp [BusSystem.busStall, BusSystem.slaveOut, AxilMaster.out, hb, hlast])
        hwe hre ?_
      rw [BusSystem.step, AxilMaster.step_wresp, AxilMaster.out, hslave]
      simpa [BusSystem.busStall, BusSystem.slaveOut, AxilMaster.out, hb, hlast, hmore,
        MemReq.storedNext] using hidle

theorem MemRel.step_read {arDone done : Bool} (hv : m.Valid) (hre : m.re = true) (hwe : m.we = false)
    (hphase : phase2 = true → m.crosses = true ∧ wordLoReg = mem (wordIdx m.addr))
    (hdone : done = true → arDone = true) :
    MemCycle ⟨⟨.read, false, false, false, !arDone, true, awDone, wDone, phase2, wordLoReg⟩,
      .reading mem (wordIdx (m.busAddr phase2)) arDone done, some m⟩ (byteAt mem) ⟨m, c⟩ := by
  obtain ⟨done', hacc, -, hr, hdata, hslave⟩ := WordMemory.step_reading mem
    (wordIdx (m.busAddr phase2)) arDone done
    (AxilMaster.out
      ⟨.read, false, false, false, !arDone, true, awDone, wDone, phase2, wordLoReg⟩ m) c
    rfl rfl (by simpa [AxilMaster.out] using fun h => by simp_all)
  simp only [AxilMaster.out, Bool.or_and_distrib_left, Bool.or_not_self, Bool.true_and,
    Bool.and_true] at hacc hr hdata hslave
  have hacc' : done' = true → (arDone || c.arready) = true := fun h => by
    rcases hacc h with h' | h'
    · rw [hdone h', Bool.true_or]
    · exact h'
  cases hrv : (c.rvalid && done') with
  | false =>
    rw [hrv] at hr hslave
    have hstay := MemRel.read mem m (arDone || c.arready) done' awDone wDone phase2 wordLoReg hre hwe
      hphase hacc'
    refine .stalled (by simp [BusSystem.busStall, BusSystem.slaveOut, AxilMaster.out, hre, hr]) ?_
    rw [BusSystem.step, AxilMaster.step_read, AxilMaster.out, hslave]
    simpa [BusSystem.busStall, BusSystem.slaveOut, AxilMaster.out, hre, hr] using hstay
  | true =>
    rw [hrv] at hr hslave
    have hdata := hdata hrv
    have har : (arDone || c.arready) = true := hacc' (Bool.and_eq_true_iff.1 hrv).2
    cases hlast : (!m.crosses || phase2) with
    | false =>
      -- the first word is captured, the second is next
      obtain ⟨hc, rfl⟩ := MemReq.of_not_last hlast
      have hword : wordIdx (m.busAddr false) = wordIdx m.addr := m.wordIdx_busAddr false
      have hdata := hdata.trans (congrArg mem hword)
      have hnext : MemRel ⟨⟨.read, false, false, false, true, true, awDone, wDone, true,
          mem (wordIdx m.addr)⟩, .quiet mem, some m⟩ (byteAt mem) :=
        MemRel.read mem m false false awDone wDone true (mem (wordIdx m.addr)) hre hwe
          (fun _ => ⟨hc, rfl⟩) (by simp)
      refine .stalled (by simp [BusSystem.busStall, BusSystem.slaveOut, AxilMaster.out, hre, hr, hc]) ?_
      rw [BusSystem.step, AxilMaster.step_read, AxilMaster.out, hslave]
      simpa [BusSystem.busStall, BusSystem.slaveOut, AxilMaster.out, hre, hr, hc, hdata] using hnext
    | true =>
      have hmore := MemReq.noMore_of_last hlast
      have hidle := MemRel.idle mem awDone wDone phase2 wordLoReg
      refine .loads (by simp [BusSystem.busStall, BusSystem.slaveOut, AxilMaster.out, hr, hlast])
        hre hwe ?_ ?_
      · rw [BusSystem.step, AxilMaster.step_read, AxilMaster.out, hslave]
        simpa [BusSystem.busStall, BusSystem.slaveOut, AxilMaster.out, hr, hlast, hmore, har] using hidle
      · refine memRdata_eq hre hv (fun hc => ?_) (hdata.trans ?_)
        · rw [hc] at hlast
          exact (hphase hlast).2
        · have hp : phase2 = m.crosses := by
            cases phase2 with
            | true => exact (hphase rfl).1.symm
            | false => simpa using hlast
          rw [hp]

end Step

theorem MemRel.step {t : BusSystem} {bytes : Word → BitVec 8} {i : SystemIn} (h : MemRel t bytes)
    (hok : SystemOk t i) : MemCycle t bytes i := by
  obtain ⟨m, c⟩ := i
  cases h with
  | idle mem awDone wDone phase2 wordLoReg => exact step_idle hok.valid
  | write mem m' awDone wDone phase2 wordLoReg hwe hre hphase =>
    obtain rfl : m = m' := hok.held m' rfl
    exact step_write hwe hre hphase
  | wresp mem m' done awDone wDone phase2 wordLoReg hwe hre hphase =>
    obtain rfl : m = m' := hok.held m' rfl
    exact step_wresp hwe hre hphase
  | read mem m' arDone done awDone wDone phase2 wordLoReg hre hwe hphase hdone =>
    obtain rfl : m = m' := hok.held m' rfl
    exact step_read hok.valid hre hwe hphase hdone

/-- A byte is as the completed accesses have left it, or already as the one in progress
will leave it. -/
theorem MemRel.byteAt_mem {t : BusSystem} {bytes : Word → BitVec 8} (h : MemRel t bytes) (x : Word) :
    byteAt t.slave.mem x = bytes x ∨
      ∃ m ∈ t.held, byteAt t.slave.mem x = ByteMachine.step bytes m x := by
  cases h with
  | idle mem => exact .inl rfl
  | write mem m awDone wDone phase2 wordLoReg hwe =>
    refine (m.byteAt_stored mem phase2 x).imp_right fun h => ⟨m, rfl, ?_⟩
    rw [ByteMachine.step_store hwe]
    exact h
  | wresp mem m done awDone wDone phase2 wordLoReg hwe hre hphase =>
    cases done with
    | false =>
      refine (m.byteAt_stored mem phase2 x).imp_right fun h => ⟨m, rfl, ?_⟩
      rw [ByteMachine.step_store hwe]
      exact h
    | true =>
      refine (m.byteAt_storedNext_or mem x hphase).imp_right fun h => ⟨m, rfl, ?_⟩
      rw [ByteMachine.step_store hwe]
      exact h
  | read mem m arDone done => cases done <;> exact .inl rfl

/-! ## The byte memory -/

theorem memRel_sim : Sim BusSystem.step ByteMachine.step SystemOk BusSystem.completed MemRel where
  step _ _ _ h hok := (h.step hok).rel

/-- **Byte memory.**  In every run from reset, whatever the memory delays, each load gives in
the cycle its stall falls what the stores completed before it have left in its bytes, and the
memory is that of these stores, up to the bytes of a store in progress. -/
theorem axil_master_byte_memory (mem : BitVec 30 → Word) (is : List SystemIn)
    (hok : Always BusSystem.step SystemOk (.reset mem) is) :
    let accesses := outputs BusSystem.step BusSystem.completed (.reset mem) is
    let bytes := run ByteMachine.step (byteAt mem) accesses
    let t := run BusSystem.step (.reset mem) is
    outputs BusSystem.step BusSystem.loaded (.reset mem) is =
        outputs ByteMachine.step ByteMachine.loaded (byteAt mem) accesses ∧
      (t.held = none → byteAt t.slave.mem = bytes) ∧
      ∀ x, byteAt t.slave.mem x = bytes x ∨
        ∃ m ∈ t.held, byteAt t.slave.mem x = ByteMachine.step bytes m x := by
  have h0 : MemRel (.reset mem) (byteAt mem) := .idle mem false false false 0
  have hrel := memRel_sim.run h0 hok
  have hloads := memRel_sim.outputs_pending BusSystem.loaded ByteMachine.loaded (fun _ => [])
    (fun t bytes i h hi => by simpa using (h.step hi).loaded) h0 hok
  refine ⟨by simpa using hloads, fun hheld => funext fun x => ?_, hrel.byteAt_mem⟩
  rcases hrel.byteAt_mem x with h | ⟨m, hm, -⟩
  · exact h
  · rw [hheld] at hm
    cases hm

/-- `sh` and `lhu` of 0xbeef at address 3, each over two words of a memory that answers at once. -/
theorem axil_master_byte_memory_halfword :
    let c : MemoryChoice := ⟨true, true, true, [true, false], true, true, 0⟩
    let is := List.replicate 5 (SystemIn.mk ⟨3, 0xbeef, 0b001#3, false, true⟩ c) ++
      List.replicate 3 ⟨⟨3, 0, 0b101#3, true, false⟩, c⟩
    outputs BusSystem.step BusSystem.loaded (.reset fun _ => 0) is = [0xbeef] ∧
      byteAt (run BusSystem.step (.reset fun _ => 0) is).slave.mem 4 = 0xbe := by
  intro c is
  have h := axil_master_byte_memory (fun _ => 0) is (by decide +kernel)
  refine ⟨h.1.trans (by decide +kernel), ?_⟩
  rw [h.2.1 (by decide +kernel)]
  decide +kernel

end Rv32i

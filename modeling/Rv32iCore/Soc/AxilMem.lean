import Rv32iCore.Lib.Sync
import Rv32iCore.Lib.Bytes
import Rv32iCore.Soc.RegIf

/-!
# `axil_mem` is a word memory

`dmem` behind `axil_reg_if`, as `rtl/soc/axil_mem.v` wires them: one address port, and a wait
cycle for the registered read.  `MemTracked` follows a run with the requests in progress and
with `WordMachine`, the memory as the requests answered so far leave it; `SingleOk` is a master
with one transaction at a time.

    axil_mem_word_memory     every request is answered once, in time, and as by `WordMachine`
-/

namespace Rv32i

open Sync Bytes

/-! ## `dmem` -/

structure Dmem where
  mem : BitVec 14 → Word
  rdata : Word

namespace Dmem

def wordIdx (addr : Word) : BitVec 14 := addr.extractLsb 15 2

/-- A read sees the word before a write of the same edge. -/
def step (s : Dmem) (en : Bool) (addr wdata : Word) (wstrb : BitVec 4) : Dmem where
  rdata := if en then s.mem (wordIdx addr) else s.rdata
  mem := writeWord s.mem (wordIdx addr) wdata wstrb

end Dmem

/-! ## `axil_mem` -/

structure AxilMem where
  wr : RegIfWr
  rd : RegIfRd
  /-- the wait cycle of the read has been -/
  rdPending : Bool
  dmem : Dmem

namespace AxilMem

variable (s : AxilMem) (i : MasterOut)

def reset : AxilMem := { s with wr := s.wr.reset, rd := s.rd.reset, rdPending := false }

@[simp] def regWrEn : Bool := s.wr.wrEn

@[simp] def regRdEn : Bool := s.rd.rdEn

def regRdWait : Bool := s.regRdEn && !s.rdPending

def regRdAck : Bool := s.regRdEn && s.rdPending

def out : SlaveOut where
  awready := s.wr.awready
  wready := s.wr.wready
  bvalid := s.wr.bvalid
  arready := s.rd.arready
  rvalid := s.rd.rvalid
  rdata := s.rd.rdata

/-- One clock edge outside reset. -/
def step : AxilMem where
  wr := s.wr.step i false s.regWrEn
  rd := s.rd.step i s.dmem.rdata s.regRdWait s.regRdAck
  rdPending := s.regRdEn && !s.rdPending
  dmem := s.dmem.step s.regRdEn (if s.regRdEn then s.rd.araddr else s.wr.awaddr) s.wr.wdata
    (if s.regWrEn then s.wr.wstrb else 0)

end AxilMem

/-! ## The word machine -/

inductive WordReq where
  | write (addr data : Word) (strb : BitVec 4)
  | read (addr : Word)
deriving DecidableEq

namespace WordMachine

def step (mem : BitVec 14 → Word) : WordReq → BitVec 14 → Word
  | .write addr data strb => writeWord mem (Dmem.wordIdx addr) data strb
  | .read _ => mem

def loaded (mem : BitVec 14 → Word) : WordReq → List Word
  | .write _ _ _ => []
  | .read addr => [mem (Dmem.wordIdx addr)]

end WordMachine

/-- The write, once AW and W are accepted. -/
def WrReq.complete : WrReq → List WordReq
  | ⟨some addr, some (data, strb)⟩ => [.write addr data strb]
  | _ => []

def RdReq.complete : RdReq → List WordReq
  | some addr => [.read addr]
  | none => []

/-! ## Runs -/

/-- A run of `axil_mem` with what its master may know. -/
structure MemTracked where
  dut : AxilMem
  wr : WrReq
  rd : RdReq
  /-- the memory of the requests answered so far -/
  answered : BitVec 14 → Word
  /-- cycles since reset in which `dmem` was written -/
  writes : Nat
  /-- B taken since reset -/
  nB : Nat
  /-- cycles that the request in progress has been complete without a response on offer -/
  waited : Nat

namespace MemTracked

def reset (s : AxilMem) : MemTracked := ⟨s.reset, .idle, none, s.dmem.mem, 0, 0, 0⟩

variable (t : MemTracked) (i : MasterOut)

/-- The request whose response is taken in this cycle. -/
def ended : List WordReq :=
  (if t.dut.wr.bFire i then t.wr.complete else []) ++ (if t.dut.rd.rFire i then t.rd.complete else [])

/-- The read data taken in this cycle. -/
def loaded : List Word := if t.dut.rd.rFire i then [t.dut.out.rdata] else []

/-- The write in progress after this cycle's response. -/
def wrLeft : WrReq := t.wr.answer (t.dut.wr.bFire i)

def rdLeft : RdReq := t.rd.answer (t.dut.rd.rFire i)

def wrNext : WrReq :=
  (t.wrLeft i).accept i (i.awvalid && t.dut.wr.awready) (i.wvalid && t.dut.wr.wready)

def rdNext : RdReq := (t.rdLeft i).accept i (i.arvalid && t.dut.rd.arready)

/-- The request that is complete with this cycle. -/
def asked : List WordReq :=
  (if (t.wrLeft i).complete.isEmpty then (t.wrNext i).complete else []) ++
  (if (t.rdLeft i).complete.isEmpty then (t.rdNext i).complete else [])

/-- The complete request without its response. -/
def owed : List WordReq := t.wr.complete ++ t.rd.complete

def step : MemTracked where
  dut := t.dut.step i
  wr := t.wrNext i
  rd := t.rdNext i
  answered := run WordMachine.step t.answered (t.ended i)
  writes := t.writes + t.dut.regWrEn.toNat
  nB := t.nB + (t.dut.wr.bFire i).toNat
  waited :=
    if ((t.wrNext i).complete.isEmpty && (t.rdNext i).complete.isEmpty) ||
        (t.dut.step i).out.bvalid || (t.dut.step i).out.rvalid then 0
    else t.waited + 1

end MemTracked

/-- A master with one transaction at a time: a new request waits for the response to the last. -/
structure SingleOk (t : MemTracked) (i : MasterOut) : Prop where
  wr : (t.wrLeft i).Free i
  rd : (t.rdLeft i).Free i
  apart : (t.wrLeft i = .idle ∧ i.awvalid = false ∧ i.wvalid = false) ∨
    (t.rdLeft i = none ∧ i.arvalid = false)

instance (t : MemTracked) (i : MasterOut) : Decidable (SingleOk t i) :=
  decidable_of_iff ((t.wrLeft i).Free i ∧ (t.rdLeft i).Free i ∧
      ((t.wrLeft i = .idle ∧ i.awvalid = false ∧ i.wvalid = false) ∨
        (t.rdLeft i = none ∧ i.arvalid = false)))
    ⟨fun h => ⟨h.1, h.2.1, h.2.2⟩, fun h => ⟨h.wr, h.rd, h.apart⟩⟩

/-! ## The invariant -/

structure MemInv (t : MemTracked) : Prop where
  wr : WrInv t.dut.wr t.wr
  rd : RdInv t.dut.rd t.rd
  single : t.wr = .idle ∨ t.rd = none
  /-- B is offered when the write is done -/
  mem : t.dut.dmem.mem =
    if t.dut.wr.bvalid then run WordMachine.step t.answered t.wr.complete else t.answered
  writes : t.writes = t.nB + t.dut.wr.bvalid.toNat
  /-- after the wait cycle `dmem` shows the word -/
  pending : t.dut.rdPending = true → t.dut.regRdEn = true ∧
    t.dut.dmem.rdata = t.dut.dmem.mem (Dmem.wordIdx t.dut.rd.araddr)
  /-- a read is acknowledged before `axil_reg_if` gives up -/
  timeout : t.dut.regRdEn = true → t.dut.rdPending = false → t.dut.rd.timeoutCount ≠ 0
  rdata : t.dut.rd.rvalid = true → ∀ a ∈ t.rd, t.dut.rd.rdata = t.dut.dmem.mem (Dmem.wordIdx a)
  waited : t.waited = t.dut.regWrEn.toNat + t.dut.regRdEn.toNat + t.dut.rdPending.toNat

theorem MemInv.reset (s : AxilMem) : MemInv (.reset s) where
  wr := .gather rfl rfl rfl rfl rfl (by simp [MemTracked.reset, WrReq.idle])
    (by simp [MemTracked.reset, WrReq.idle])
  rd := .idle rfl rfl rfl rfl
  single := .inl rfl
  mem := rfl
  writes := rfl
  pending h := absurd h Bool.false_ne_true
  timeout h := absurd h Bool.false_ne_true
  rdata h := absurd h Bool.false_ne_true
  waited := rfl

/-! ### The two halves exclude each other -/

section Step

variable {t : MemTracked} {i : MasterOut}

theorem MemInv.of_rd (h : MemInv t) (hne : t.rd ≠ none) :
    t.wr = .idle ∧ t.dut.regWrEn = false ∧ t.dut.wr.bvalid = false := by
  have hwr : t.wr = .idle := h.single.resolve_right hne
  obtain ⟨hen, hb, -⟩ := WrInv.of_idle (hwr ▸ h.wr)
  exact ⟨hwr, hen, hb⟩

theorem MemInv.apart (h : MemInv t) : ¬ (t.dut.regRdEn = true ∧ t.dut.regWrEn = true) := by
  rintro ⟨hrd, hwr⟩
  have hne : t.rd ≠ none := by
    rw [(h.rd.shown hrd).1]
    exact Option.some_ne_none _
  exact absurd ((h.of_rd hne).2.1.symm.trans hwr) (by decide)

/-! ### The memory -/

/-- The write port takes the write in progress, in the cycle it is shown. -/
theorem MemInv.step_mem (h : MemInv t) : (t.dut.step i).dmem.mem =
    if t.dut.regWrEn then run WordMachine.step t.dut.dmem.mem t.wr.complete else t.dut.dmem.mem := by
  cases hen : t.dut.regWrEn with
  | true =>
    have hrd : t.dut.regRdEn = false := by
      by_contra hrd
      exact h.apart ⟨by simpa using hrd, hen⟩
    rw [(h.wr.shown hen).1]
    simp only [AxilMem.step, Dmem.step, hrd, hen]
    rfl
  | false =>
    simp only [AxilMem.step, Dmem.step, hen]
    exact writeWord_none _ _ _

theorem run_rd_complete (mem : BitVec 14 → Word) (q : RdReq) :
    run WordMachine.step mem q.complete = mem := by
  cases q <;> rfl

theorem MemTracked.step_answered : (t.step i).answered =
    if t.dut.wr.bFire i then run WordMachine.step t.answered t.wr.complete else t.answered := by
  show run WordMachine.step t.answered (t.ended i) = _
  rw [MemTracked.ended, run_append]
  have hrd : ∀ mem : BitVec 14 → Word, ∀ b : Bool,
      run WordMachine.step mem (if b then t.rd.complete else []) = mem := by
    intro mem b
    cases b
    · rfl
    · exact run_rd_complete mem t.rd
  rw [hrd]
  cases t.dut.wr.bFire i <;> rfl

/-- A write that is shown or offered stays the one in progress. -/
theorem SingleOk.wrNext_eq (hok : SingleOk t i) (hb : t.dut.wr.bFire i = false)
    (hfull : t.wr.aw ≠ none ∧ t.wr.w ≠ none) : t.wrNext i = t.wr := by
  have hleft : t.wrLeft i = t.wr := by rw [MemTracked.wrLeft, hb]; rfl
  have hfree := hok.wr
  rw [hleft] at hfree
  have haw : i.awvalid = false := by
    by_contra haw
    exact hfull.1 (hfree.1 (by simpa using haw))
  have hw : i.wvalid = false := by
    by_contra hw
    exact hfull.2 (hfree.2 (by simpa using hw))
  rw [MemTracked.wrNext, hleft, haw, hw]
  exact WrReq.accept_none rfl rfl

theorem MemTracked.step_bvalid : (t.step i).dut.wr.bvalid =
    (t.dut.regWrEn || (t.dut.wr.bvalid && !i.bready)) := by
  show (t.dut.wr.step i false t.dut.regWrEn).bvalid = _
  rw [RegIfWr.step_bvalid]
  cases h : t.dut.wr.wrEn <;> simp [h]

theorem MemInv.mem_next (h : MemInv t) (hok : SingleOk t i) : (t.step i).dut.dmem.mem =
    if (t.step i).dut.wr.bvalid then run WordMachine.step (t.step i).answered (t.step i).wr.complete
    else (t.step i).answered := by
  show (t.dut.step i).dmem.mem = _
  rw [h.step_mem, MemTracked.step_bvalid, MemTracked.step_answered, h.mem]
  show _ = if _ then run WordMachine.step _ (t.wrNext i).complete else _
  cases hen : t.dut.regWrEn with
  | true =>
    obtain ⟨hq, hb, -, -⟩ := h.wr.shown hen
    have hfire : t.dut.wr.bFire i = false := by simp [hb]
    rw [hok.wrNext_eq hfire (by simp [hq]), hb, hfire]
    rfl
  | false =>
    cases hb : t.dut.wr.bvalid with
    | false => simp [hb]
    | true =>
      obtain ⟨⟨a, d, hq⟩, -⟩ := h.wr.offered hb
      cases hready : i.bready with
      | true => simp [hb, hready]
      | false =>
        have hfire : t.dut.wr.bFire i = false := by simp [hready]
        rw [hok.wrNext_eq hfire (by simp [hq]), hfire]
        simp

/-! ### The read -/

theorem MemTracked.rdPending_of_not {p : Prop} (h : t.dut.rdPending = true → t.dut.regRdEn = true ∧ p)
    (hen : t.dut.regRdEn = false) : t.dut.rdPending = false := by
  cases hp : t.dut.rdPending with
  | false => rfl
  | true => exact absurd (hen.symm.trans (h hp).1) (by decide)

/-- Before the wait cycle there is neither an acknowledgement nor a timeout, after it there is
the acknowledgement. -/
theorem MemInv.ack (h : MemInv t) (hen : t.dut.regRdEn = true) :
    (t.dut.regRdAck || t.dut.rd.timeoutCount == 0) = t.dut.rdPending := by
  cases hp : t.dut.rdPending with
  | true => simp [AxilMem.regRdAck, hp] at hen ⊢; simp [hen]
  | false => simpa [AxilMem.regRdAck, hp] using h.timeout hen hp

theorem MemInv.step_rvalid (h : MemInv t) : (t.step i).dut.rd.rvalid =
    (t.dut.rdPending || (t.dut.rd.rvalid && !i.rready)) := by
  show (t.dut.rd.step i t.dut.dmem.rdata t.dut.regRdWait t.dut.regRdAck).rvalid = _
  rw [RegIfRd.step_rvalid]
  cases hen : t.dut.rd.rdEn with
  | true => rw [h.ack hen, Bool.true_and]
  | false => rw [MemTracked.rdPending_of_not h.pending hen, Bool.false_and]

/-- The memory is not written during a read. -/
theorem MemInv.step_mem_rd (h : MemInv t) (hne : t.rd ≠ none) :
    (t.dut.step i).dmem.mem = t.dut.dmem.mem := by
  rw [h.step_mem, (h.of_rd hne).2.1]
  rfl

theorem SingleOk.rdNext_eq (hok : SingleOk t i) (hr : t.dut.rd.rFire i = false)
    (hfull : t.rd ≠ none) : t.rdNext i = t.rd := by
  have hleft : t.rdLeft i = t.rd := by rw [MemTracked.rdLeft, hr]; rfl
  have hfree := hok.rd
  rw [hleft] at hfree
  have har : i.arvalid = false := by
    by_contra har
    exact hfull (hfree (by simpa using har))
  rw [MemTracked.rdNext, hleft, har]
  rfl

theorem MemInv.pending_next (h : MemInv t) (hp : (t.step i).dut.rdPending = true) :
    (t.step i).dut.regRdEn = true ∧ (t.step i).dut.dmem.rdata =
      (t.step i).dut.dmem.mem (Dmem.wordIdx (t.step i).dut.rd.araddr) := by
  have hp' : (t.dut.regRdEn && !t.dut.rdPending) = true := hp
  rw [Bool.and_eq_true, Bool.not_eq_true'] at hp'
  obtain ⟨hen, hpend⟩ := hp'
  obtain ⟨hq, hr, har⟩ := h.rd.shown hen
  have hack := h.ack hen
  rw [hpend] at hack
  have hstep : (t.step i).dut.rd = _ := RegIfRd.step_wait hen hr har hack
  have hmem : (t.step i).dut.dmem.mem = t.dut.dmem.mem := h.step_mem_rd (by simp [hq])
  rw [AxilMem.regRdEn, hstep, hmem]
  refine ⟨hen, ?_⟩
  show (if t.dut.regRdEn then _ else _) = _
  rw [hen]
  rfl

theorem MemInv.timeout_next (h : MemInv t) (hen' : (t.step i).dut.regRdEn = true)
    (hp' : (t.step i).dut.rdPending = false) : (t.step i).dut.rd.timeoutCount ≠ 0 := by
  have hp : (t.dut.regRdEn && !t.dut.rdPending) = false := hp'
  cases hen : t.dut.regRdEn with
  | true =>
    -- the read was acknowledged
    rw [hen, Bool.true_and, Bool.not_eq_false'] at hp
    have hack := h.ack hen
    rw [hp] at hack
    have hstep : (t.step i).dut.rd = _ := RegIfRd.step_done hen (h.rd.shown hen).2.2 hack
    rw [AxilMem.regRdEn, hstep] at hen'
    exact absurd hen' Bool.false_ne_true
  | false =>
    have har : t.dut.rd.arvalid = false := by
      cases h.rd with
      | idle _ _ har => exact har
      | perform hen₁ => exact absurd (hen.symm.trans hen₁) (by decide)
      | respond _ _ _ har => exact har
    rw [show (t.step i).dut.rd.timeoutCount = 3 from RegIfRd.step_timeout hen har]
    decide

theorem MemInv.rdata_next (h : MemInv t) (hok : SingleOk t i) (hr' : (t.step i).dut.rd.rvalid = true) :
    ∀ a ∈ (t.step i).rd, (t.step i).dut.rd.rdata = (t.step i).dut.dmem.mem (Dmem.wordIdx a) := by
  show ∀ a ∈ t.rdNext i, (t.step i).dut.rd.rdata = (t.dut.step i).dmem.mem (Dmem.wordIdx a)
  have hdata : (t.step i).dut.rd.rdata = _ := RegIfRd.step_rdata
  rw [h.step_rvalid] at hr'
  cases hp : t.dut.rdPending with
  | true =>
    obtain ⟨hen, hword⟩ := h.pending hp
    obtain ⟨hq, hr, -⟩ := h.rd.shown hen
    rw [hok.rdNext_eq (by simp [hr]) (by simp [hq]), h.step_mem_rd (by simp [hq]), hdata,
      show t.dut.rd.rdEn = true from hen, h.ack hen, hp, hword, hq]
    rintro a ⟨⟩
    rfl
  | false =>
    rw [hp, Bool.false_or, Bool.and_eq_true, Bool.not_eq_true'] at hr'
    obtain ⟨hr, hready⟩ := hr'
    obtain ⟨⟨a, hq⟩, hen, -⟩ := h.rd.offered hr
    rw [hok.rdNext_eq (by simp [hready]) (by simp [hq]), h.step_mem_rd (by simp [hq]), hdata, hen]
    exact h.rdata hr

/-! ### One cycle -/

theorem MemInv.writes_next (h : MemInv t) :
    (t.step i).writes = (t.step i).nB + (t.step i).dut.wr.bvalid.toNat := by
  rw [MemTracked.step_bvalid]
  show t.writes + t.dut.regWrEn.toNat = t.nB + (t.dut.wr.bvalid && i.bready).toNat + _
  rw [h.writes]
  cases hen : t.dut.regWrEn with
  | true =>
    rw [(h.wr.shown hen).2.1]
    rfl
  | false => cases t.dut.wr.bvalid <;> cases i.bready <;> rfl

theorem MemTracked.wrNext_idle (hleft : t.wrLeft i = .idle) (haw : i.awvalid = false)
    (hw : i.wvalid = false) : t.wrNext i = .idle := by
  rw [wrNext, hleft, haw, hw]
  exact WrReq.accept_none rfl rfl

theorem MemTracked.rdNext_none (hleft : t.rdLeft i = none) (har : i.arvalid = false) :
    t.rdNext i = none := by
  rw [rdNext, hleft, har]
  rfl

theorem SingleOk.single_next (hok : SingleOk t i) : t.wrNext i = .idle ∨ t.rdNext i = none := by
  rcases hok.apart with ⟨hleft, haw, hw⟩ | ⟨hleft, har⟩
  · exact .inl (MemTracked.wrNext_idle hleft haw hw)
  · exact .inr (MemTracked.rdNext_none hleft har)

/-- A complete write is shown or has its B. -/
theorem WrInv.complete_isEmpty {s : RegIfWr} {q : WrReq} (h : WrInv s q) :
    q.complete.isEmpty = !(s.wrEn || s.bvalid) := by
  cases h with
  | gather hen hb haw hw hmissing =>
    obtain ⟨_ | a, _ | d⟩ := q <;> simp [WrReq.complete, hen, hb] at hmissing ⊢
  | perform hen hb haw hw hq =>
    rw [hq, hen]
    rfl
  | respond a d hen hb haw hw hq =>
    rw [hq, hen, hb]
    rfl

theorem RdInv.complete_isEmpty {s : RegIfRd} {q : RdReq} (h : RdInv s q) :
    q.complete.isEmpty = !(s.rdEn || s.rvalid) := by
  cases h with
  | idle hen hr har hq =>
    rw [hq, hen, hr]
    rfl
  | perform hen hr har hq =>
    rw [hq, hen]
    rfl
  | respond a hen hr har hq =>
    rw [hq, hen, hr]
    rfl

/-- What waits is shown. -/
theorem MemInv.step_waited (hwr : WrInv (t.step i).dut.wr (t.step i).wr)
    (hrd : RdInv (t.step i).dut.rd (t.step i).rd)
    (hsingle : (t.step i).wr = .idle ∨ (t.step i).rd = none) : (t.step i).waited =
      if (t.step i).dut.regWrEn || (t.step i).dut.regRdEn then t.waited + 1 else 0 := by
  show (if ((t.step i).wr.complete.isEmpty && (t.step i).rd.complete.isEmpty) ||
      (t.step i).dut.wr.bvalid || (t.step i).dut.rd.rvalid then 0 else t.waited + 1) = _
  rw [hwr.complete_isEmpty, hrd.complete_isEmpty]
  have hwb : (t.step i).dut.wr.wrEn = true → (t.step i).dut.wr.bvalid = false :=
    fun h => (hwr.shown h).2.1
  have hrr : (t.step i).dut.rd.rdEn = true → (t.step i).dut.rd.rvalid = false :=
    fun h => (hrd.shown h).2.1
  rcases hsingle with hq | hq
  · obtain ⟨hen, hb, -⟩ := WrInv.of_idle (hq ▸ hwr)
    cases hr : (t.step i).dut.rd.rdEn <;> simp_all
  · obtain ⟨hen, hr, -⟩ := RdInv.of_none (hq ▸ hrd)
    cases hw : (t.step i).dut.wr.wrEn <;> simp_all

/-- A request is shown from the cycle after it is complete to its response. -/
theorem MemInv.waited_next (h : MemInv t) (hok : SingleOk t i)
    (hwr : WrInv (t.step i).dut.wr (t.step i).wr) (hrd : RdInv (t.step i).dut.rd (t.step i).rd) :
    (t.step i).waited = (t.step i).dut.regWrEn.toNat + (t.step i).dut.regRdEn.toNat +
      (t.step i).dut.rdPending.toNat := by
  have hsingle : (t.step i).wr = .idle ∨ (t.step i).rd = none := hok.single_next
  have hpend : (t.step i).dut.rdPending = (t.dut.regRdEn && !t.dut.rdPending) := rfl
  have hwr_old : (t.step i).dut.wr.bvalid = false → t.dut.regWrEn = false := by
    rw [t.step_bvalid, Bool.or_eq_false_iff]
    exact And.left
  have hrd_old : (t.step i).dut.rd.rvalid = false → t.dut.rdPending = false := by
    rw [h.step_rvalid, Bool.or_eq_false_iff]
    exact And.left
  rw [MemInv.step_waited hwr hrd hsingle, h.waited]
  cases hw' : (t.step i).dut.regWrEn with
  | true =>
    obtain ⟨hq, hb, -, -⟩ := hwr.shown hw'
    have hne : (t.step i).wr ≠ .idle := by simp [hq, WrReq.idle]
    obtain ⟨hen', hr', -⟩ := RdInv.of_none (hsingle.resolve_left hne ▸ hrd)
    -- no read was under way: the master would not have asked for the write
    have hen : t.dut.regRdEn = false := by
      by_contra hen
      obtain ⟨hq₀, hr, -⟩ := h.rd.shown (by simpa using hen)
      have hleft : t.rdLeft i = t.rd := RdReq.answer_of_no_r hr
      rcases hok.apart with ⟨hl, haw, hw⟩ | ⟨hl, -⟩
      · exact hne (MemTracked.wrNext_idle hl haw hw)
      · rw [hleft, hq₀] at hl
        cases hl
    rw [hpend, hwr_old hb, hrd_old hr', hen, show (t.step i).dut.regRdEn = false from hen']
    rfl
  | false =>
    cases hr' : (t.step i).dut.regRdEn with
    | true =>
      obtain ⟨hq, hr, -⟩ := hrd.shown hr'
      have hwr' : (t.step i).wr = .idle := hsingle.resolve_right (by simp [hq])
      obtain ⟨-, hb, -⟩ := WrInv.of_idle (hwr' ▸ hwr)
      rw [hpend, hwr_old hb, hrd_old hr]
      cases t.dut.regRdEn <;> rfl
    | false =>
      rw [MemTracked.rdPending_of_not h.pending_next hr']
      rfl

theorem MemInv.step (h : MemInv t) (hok : SingleOk t i) : MemInv (t.step i) where
  wr := h.wr.step hok.wr
  rd := h.rd.step hok.rd
  single := hok.single_next
  mem := h.mem_next hok
  writes := h.writes_next
  pending := h.pending_next
  timeout := h.timeout_next
  rdata := h.rdata_next hok
  waited := h.waited_next hok (h.wr.step hok.wr) (h.rd.step hok.rd)

end Step

/-! ## The word memory -/

/-- What `axil_mem` guarantees in one cycle. -/
structure AxilMemCycle (t : MemTracked) (i : MasterOut) : Prop where
  /-- the address port never has to serve both -/
  apart : ¬ (t.dut.regRdEn = true ∧ t.dut.regWrEn = true)
  /-- what is asked for is accepted at once -/
  accepts : (i.awvalid = true → t.dut.out.awready = true) ∧
    (i.wvalid = true → t.dut.out.wready = true) ∧ (i.arvalid = true → t.dut.out.arready = true)
  /-- a write of `dmem` is the write in progress -/
  wrote : t.dut.regWrEn = true → ∃ addr data strb, t.wr = ⟨some addr, some (data, strb)⟩ ∧
    (t.step i).dut.dmem.mem = writeWord t.dut.dmem.mem (Dmem.wordIdx addr) data strb
  frame : t.dut.regWrEn = false → (t.step i).dut.dmem.mem = t.dut.dmem.mem
  /-- it is made once for each write, before B is on offer -/
  once : t.writes = t.nB + t.dut.out.bvalid.toNat
  b : t.dut.out.bvalid = true → ∃ addr data strb, t.wr = ⟨some addr, some (data, strb)⟩ ∧
    t.dut.dmem.mem = writeWord t.answered (Dmem.wordIdx addr) data strb
  /-- R has the word as the writes with a B have left it -/
  r : t.dut.out.rvalid = true → ∃ addr, t.rd = some addr ∧
    t.dut.out.rdata = t.answered (Dmem.wordIdx addr)
  /-- a complete request has its response on offer within three cycles -/
  waited : t.waited ≤ 2
  /-- and the response stays until it is taken -/
  stays : (t.dut.out.bvalid = true → i.bready = false → (t.step i).dut.out.bvalid = true) ∧
    (t.dut.out.rvalid = true → i.rready = false → (t.step i).dut.out.rvalid = true)

section Cycle

variable {t : MemTracked} {i : MasterOut}

theorem WrInv.awready {s : RegIfWr} {q : WrReq} (h : WrInv s q)
    (hfree : (q.answer (s.bFire i)).Free i) :
    (i.awvalid = true → s.awready = true) ∧ (i.wvalid = true → s.wready = true) := by
  cases h with
  | gather hen hb haw hw =>
    rw [WrReq.answer_of_no_b hb] at hfree
    exact ⟨fun hv => by simp [haw, hfree.1 hv], fun hv => by simp [hw, hfree.2 hv]⟩
  | perform hen hb haw hw hq =>
    rw [WrReq.answer_of_no_b hb, hq] at hfree
    exact ⟨fun hv => absurd (hfree.1 hv) (by simp), fun hv => absurd (hfree.2 hv) (by simp)⟩
  | respond a d hen hb haw hw => exact ⟨fun _ => by simp [haw], fun _ => by simp [hw]⟩

theorem RdInv.arready {s : RegIfRd} {q : RdReq} (h : RdInv s q)
    (hfree : (q.answer (s.rFire i)).Free i) : i.arvalid = true → s.arready = true := by
  cases h with
  | idle hen hr har => exact fun _ => by simp [har]
  | perform hen hr har hq =>
    rw [RdReq.answer_of_no_r hr, hq] at hfree
    exact fun hv => absurd (hfree hv) (by simp)
  | respond a hen hr har => exact fun _ => by simp [har]

theorem MemInv.cycle (h : MemInv t) (hok : SingleOk t i) : AxilMemCycle t i where
  apart := h.apart
  accepts := ⟨(h.wr.awready hok.wr).1, (h.wr.awready hok.wr).2, h.rd.arready hok.rd⟩
  wrote hen := by
    have hq := (h.wr.shown hen).1
    refine ⟨_, _, _, hq, ?_⟩
    show (t.dut.step i).dmem.mem = _
    rw [h.step_mem, hen, hq]
    rfl
  frame hen := by
    show (t.dut.step i).dmem.mem = _
    rw [h.step_mem, hen]
    rfl
  once := h.writes
  b hb := by
    obtain ⟨⟨a, d, hq⟩, -⟩ := h.wr.offered hb
    refine ⟨a, d.1, d.2, hq, ?_⟩
    rw [h.mem, show t.dut.wr.bvalid = true from hb, hq]
    rfl
  r hr := by
    obtain ⟨⟨a, hq⟩, -⟩ := h.rd.offered hr
    refine ⟨a, hq, ?_⟩
    rw [show t.dut.out.rdata = _ from h.rdata hr a hq, h.mem, (h.of_rd (by simp [hq])).2.2]
    rfl
  waited := by
    have := h.apart
    have hp := h.pending
    rw [h.waited]
    cases hw : t.dut.regWrEn <;> cases hr : t.dut.regRdEn <;> cases hq : t.dut.rdPending <;>
      simp_all
  stays := by
    refine ⟨fun hb hready => ?_, fun hr hready => ?_⟩
    · show (t.step i).dut.wr.bvalid = true
      rw [t.step_bvalid, show t.dut.wr.bvalid = true from hb, hready]
      simp
    · show (t.step i).dut.rd.rvalid = true
      rw [h.step_rvalid, show t.dut.rd.rvalid = true from hr, hready]
      simp

theorem WrReq.full_of_complete {q : WrReq} (h : q.complete.isEmpty = false) :
    q.aw ≠ none ∧ q.w ≠ none := by
  obtain ⟨_ | a, _ | d⟩ := q
  · exact absurd h.symm Bool.false_ne_true
  · exact absurd h.symm Bool.false_ne_true
  · exact absurd h.symm Bool.false_ne_true
  · exact ⟨Option.some_ne_none a, Option.some_ne_none d⟩

/-- A write is complete in the cycle it is asked for or has been, until its B. -/
theorem SingleOk.wr_conserved (hok : SingleOk t i) :
    (if t.dut.wr.bFire i then t.wr.complete else []) ++ (t.wrNext i).complete =
      t.wr.complete ++ (if (t.wrLeft i).complete.isEmpty then (t.wrNext i).complete else []) := by
  cases hb : t.dut.wr.bFire i with
  | true =>
    have hleft : t.wrLeft i = .idle := by rw [MemTracked.wrLeft, hb]; rfl
    rw [hleft]
    rfl
  | false =>
    have hleft : t.wrLeft i = t.wr := by rw [MemTracked.wrLeft, hb]; rfl
    rw [hleft]
    cases hc : t.wr.complete.isEmpty with
    | true => rw [List.isEmpty_iff.1 hc]; rfl
    | false =>
      rw [hok.wrNext_eq hb (WrReq.full_of_complete hc)]
      simp

theorem SingleOk.rd_conserved (hok : SingleOk t i) :
    (if t.dut.rd.rFire i then t.rd.complete else []) ++ (t.rdNext i).complete =
      t.rd.complete ++ (if (t.rdLeft i).complete.isEmpty then (t.rdNext i).complete else []) := by
  cases hr : t.dut.rd.rFire i with
  | true =>
    have hleft : t.rdLeft i = none := by rw [MemTracked.rdLeft, hr]; rfl
    rw [hleft]
    rfl
  | false =>
    have hleft : t.rdLeft i = t.rd := by rw [MemTracked.rdLeft, hr]; rfl
    rw [hleft]
    cases hc : t.rd.complete.isEmpty with
    | true => rw [List.isEmpty_iff.1 hc]; rfl
    | false =>
      have hfull : t.rd ≠ none := by
        rintro hq
        rw [hq] at hc
        exact absurd hc (by decide)
      rw [hok.rdNext_eq hr hfull]
      simp

/-- What is answered and what is owed afterwards is what was owed and what is asked. -/
theorem MemInv.conserved (h : MemInv t) (hok : SingleOk t i) :
    t.ended i ++ (t.step i).owed = t.owed ++ t.asked i := by
  have hwr := hok.wr_conserved
  have hrd := hok.rd_conserved
  show (_ ++ _) ++ ((t.wrNext i).complete ++ (t.rdNext i).complete) = (_ ++ _) ++ (_ ++ _)
  rcases h.single with hq | hq
  · have hnone : t.wr.complete = [] := by rw [hq]; rfl
    rw [hnone, ite_self, List.nil_append, List.nil_append] at hwr
    rw [hnone, ite_self, List.nil_append, List.nil_append, ← hwr]
    rcases hok.apart with ⟨hleft, haw, hw⟩ | ⟨hleft, har⟩
    · rw [MemTracked.wrNext_idle hleft haw hw]
      exact hrd
    · have hnext := MemTracked.rdNext_none hleft har
      have hnil : RdReq.complete none = [] := rfl
      rw [hnext, hnil, ite_self, List.append_nil, List.append_nil] at hrd
      rw [hnext, hnil, ite_self, List.append_nil, hrd]
  · have hnone : t.rd.complete = [] := by rw [hq]; rfl
    rw [hnone, ite_self, List.nil_append, List.nil_append] at hrd
    rw [hnone, ite_self, List.append_nil, List.append_nil, ← hrd, ← List.append_assoc, hwr,
      List.append_assoc]

theorem loaded_wr_complete (mem : BitVec 14 → Word) (q : WrReq) :
    outputs WordMachine.step WordMachine.loaded mem q.complete = [] := by
  obtain ⟨_ | a, _ | d⟩ := q <;> rfl

/-- The read data taken is what the word machine reads. -/
theorem MemInv.loaded (h : MemInv t) :
    t.loaded i = outputs WordMachine.step WordMachine.loaded t.answered (t.ended i) := by
  rw [MemTracked.loaded, MemTracked.ended, outputs_append]
  have hwr : outputs WordMachine.step WordMachine.loaded t.answered
      (if t.dut.wr.bFire i then t.wr.complete else []) = [] := by
    cases t.dut.wr.bFire i
    · rfl
    · exact loaded_wr_complete t.answered t.wr
  rw [hwr, List.nil_append]
  cases hr : t.dut.rd.rFire i with
  | false => rfl
  | true =>
    have hrv : t.dut.rd.rvalid = true := (Bool.and_eq_true_iff.1 hr).1
    obtain ⟨⟨a, hq⟩, -⟩ := h.rd.offered hrv
    obtain ⟨-, -, hb⟩ := h.of_rd (by simp [hq])
    have hdata : t.dut.out.rdata = t.answered (Dmem.wordIdx a) := by
      rw [show t.dut.out.rdata = _ from h.rdata hrv a hq, h.mem, hb]
      rfl
    have hfire : t.dut.wr.bFire i = false := by simp [hb]
    rw [hdata, hq, hfire]
    rfl

end Cycle

theorem memInv_sim : Sim MemTracked.step WordMachine.step SingleOk MemTracked.ended
    fun t mem => MemInv t ∧ t.answered = mem where
  step _ _ _ h hok := ⟨h.1.step hok, by rw [← h.2]; rfl⟩

/-- **Word memory.**  In every run from reset, whatever `dmem` holds, a master with one
transaction at a time has every request answered exactly once, in order and in time, with the
read data of `WordMachine`; and each write is made once, before its B. -/
theorem axil_mem_word_memory (s : AxilMem) (is : List MasterOut)
    (hok : Always MemTracked.step SingleOk (.reset s) is) :
    Always MemTracked.step AxilMemCycle (.reset s) is ∧
      outputs MemTracked.step MemTracked.asked (.reset s) is =
        outputs MemTracked.step MemTracked.ended (.reset s) is ++
          (run MemTracked.step (.reset s) is).owed ∧
      outputs MemTracked.step MemTracked.loaded (.reset s) is =
        outputs WordMachine.step WordMachine.loaded s.dmem.mem
          (outputs MemTracked.step MemTracked.ended (.reset s) is) := by
  have hinv := inv_always MemInv (fun _ _ h hi => h.step hi) (.reset s) hok
  have h0 : MemInv (.reset s) ∧ (MemTracked.reset s).answered = s.dmem.mem := ⟨.reset s, rfl⟩
  have hloads := memInv_sim.outputs_pending MemTracked.loaded WordMachine.loaded (fun _ => [])
    (fun t mem i h _ => by simpa [← h.2] using h.1.loaded) h0 hok
  have hconserved := outputs_conserved MemTracked.owed
    (hinv.mono fun _ _ h => h.1.conserved h.2)
  exact ⟨hinv.mono fun _ _ h => h.1.cycle h.2, hconserved.symm, by simpa using hloads⟩

/-- A byte write with W before AW and a slow BREADY, then a read of the word. -/
theorem axil_mem_word_memory_byte :
    let i : MasterOut := ⟨false, 0, false, 0, 0, true, false, 0, true⟩
    let is := [{ i with wvalid := true, wdata := 0x11223344, wstrb := 0b0100 },
      { i with awvalid := true, awaddr := 0x10009 }, i, { i with bready := false }, i,
      { i with arvalid := true, araddr := 8 }, i, i, i]
    let t := MemTracked.reset ⟨default, default, false, fun _ => 0xaaaaaaaa, 0⟩
    outputs MemTracked.step MemTracked.loaded t is = [0xaa22aaaa] := by
  intro i is t
  have h := axil_mem_word_memory ⟨default, default, false, fun _ => 0xaaaaaaaa, 0⟩ is
    (by decide +kernel)
  exact h.2.2.trans (by decide +kernel)

end Rv32i

import Rv32iCore.Soc.Bus

/-!
# `axil_reg_if`: the register interface of the slaves

The write and the read half of `rtl/vendor/verilog-axi/axil_reg_if.v`, one clock edge of each,
and what they do for a master with one transaction at a time: a request is accepted at once,
shown to the registers, and answered once.

    WrInv s q, RdInv s q    where the half is with the request `q`
    WrInv.step, RdInv.step  they hold after every edge, whatever the registers wait or acknowledge
-/

namespace Rv32i

/-! ## The write half -/

/-- The registers of `axil_reg_if_wr`, TIMEOUT being 4. -/
structure RegIfWr where
  timeoutCount : BitVec 2
  awaddr : Word
  awvalid : Bool
  wdata : Word
  wstrb : BitVec 4
  wvalid : Bool
  bvalid : Bool
  wrEn : Bool
deriving DecidableEq, Inhabited

namespace RegIfWr

variable (s : RegIfWr) (i : MasterOut) (wrWait wrAck : Bool)

/-- After a reset edge; `s` gives the payload registers, which are not reset. -/
def reset : RegIfWr := { s with awvalid := false, wvalid := false, bvalid := false, wrEn := false }

@[simp] def awready : Bool := !s.awvalid

@[simp] def wready : Bool := !s.wvalid

@[simp] def bFire : Bool := s.bvalid && i.bready

/-- The next-state logic, assignment by assignment. -/
def step : RegIfWr :=
  let n := { s with bvalid := s.bvalid && !i.bready }
  let n := if s.wrEn && (wrAck || s.timeoutCount == 0) then
      { n with awvalid := false, wvalid := false, bvalid := true }
    else n
  let n := if !s.awvalid then
      { n with awaddr := i.awaddr, awvalid := i.awvalid, timeoutCount := 3 }
    else n
  let n := if !s.wvalid then { n with wdata := i.wdata, wstrb := i.wstrb, wvalid := i.wvalid } else n
  let n := if s.wrEn && !wrWait && s.timeoutCount != 0 then
      { n with timeoutCount := s.timeoutCount - 1 }
    else n
  { n with wrEn := n.awvalid && n.wvalid && !n.bvalid }

end RegIfWr

/-- What has been accepted of the write in progress. -/
structure WrReq where
  aw : Option Word
  w : Option (Word × BitVec 4)
deriving DecidableEq

namespace WrReq

def idle : WrReq := ⟨none, none⟩

variable (q : WrReq) (i : MasterOut)

/-- B, when taken, ends the write. -/
def answer (bFire : Bool) : WrReq := if bFire then idle else q

@[simp] theorem answer_idle (bFire : Bool) : idle.answer bFire = idle := ite_self _

/-- AW and W, when accepted, are part of it. -/
def accept (awFire wFire : Bool) : WrReq where
  aw := if awFire then some i.awaddr else q.aw
  w := if wFire then some (i.wdata, i.wstrb) else q.w

/-- The master asks for nothing that is already accepted. -/
def Free : Prop := (i.awvalid = true → q.aw = none) ∧ (i.wvalid = true → q.w = none)

instance : Decidable (q.Free i) := inferInstanceAs (Decidable (_ ∧ _))

end WrReq

/-- Where the write half is with a write. -/
inductive WrInv (s : RegIfWr) (q : WrReq) : Prop
  /-- AW or W or both are still to come -/
  | gather (hen : s.wrEn = false) (hb : s.bvalid = false) (haw : s.awvalid = q.aw.isSome)
    (hw : s.wvalid = q.w.isSome) (hmissing : (q.aw.isSome && q.w.isSome) = false)
    (ha : ∀ a ∈ q.aw, s.awaddr = a) (hd : ∀ d ∈ q.w, (s.wdata, s.wstrb) = d)
  /-- the write is shown to the registers -/
  | perform (hen : s.wrEn = true) (hb : s.bvalid = false) (haw : s.awvalid = true)
    (hw : s.wvalid = true) (hq : q = ⟨some s.awaddr, some (s.wdata, s.wstrb)⟩)
  /-- B is offered -/
  | respond (a : Word) (d : Word × BitVec 4) (hen : s.wrEn = false) (hb : s.bvalid = true)
    (haw : s.awvalid = false) (hw : s.wvalid = false) (hq : q = ⟨some a, some d⟩)

/-- A register with room takes what is asked for, a full one keeps what it has. -/
theorem slot_accept {α : Type} {o : Option α} {valid ivalid : Bool} {p x : α}
    (hv : valid = o.isSome) (hp : ∀ a ∈ o, p = a) (hfree : ivalid = true → o = none) :
    (valid || ivalid) = (if ivalid && !valid then some x else o).isSome ∧
      ∀ a ∈ (if ivalid && !valid then some x else o), (if valid then p else x) = a := by
  subst hv
  cases o with
  | none => cases ivalid <;> simp
  | some a =>
    cases ivalid with
    | false => simpa using hp a rfl
    | true => exact absurd (hfree rfl) (by simp)

section Write

variable {s : RegIfWr} {q : WrReq} {i : MasterOut} {wrWait wrAck : Bool}

/-- Without a write shown and with no B left, the half takes what it has room for. -/
theorem RegIfWr.step_open (hen : s.wrEn = false) (hb : (s.bvalid && !i.bready) = false) :
    s.step i wrWait wrAck =
      { timeoutCount := if s.awvalid then s.timeoutCount else 3
        awaddr := if s.awvalid then s.awaddr else i.awaddr
        awvalid := s.awvalid || i.awvalid
        wdata := if s.wvalid then s.wdata else i.wdata
        wstrb := if s.wvalid then s.wstrb else i.wstrb
        wvalid := s.wvalid || i.wvalid
        bvalid := false
        wrEn := (s.awvalid || i.awvalid) && (s.wvalid || i.wvalid) } := by
  cases haw : s.awvalid <;> cases hw : s.wvalid <;> simp [step, hen, hb, haw, hw]

theorem RegIfWr.step_bvalid : (s.step i wrWait wrAck).bvalid =
    ((s.wrEn && (wrAck || s.timeoutCount == 0)) || (s.bvalid && !i.bready)) := by
  unfold step
  split_ifs <;> simp_all

/-- An acknowledged write is over, and B is offered. -/
theorem RegIfWr.step_done (hen : s.wrEn = true) (haw : s.awvalid = true) (hw : s.wvalid = true)
    (hack : (wrAck || s.timeoutCount == 0) = true) :
    s.step i wrWait wrAck =
      { s with
        timeoutCount := if !wrWait && s.timeoutCount != 0 then s.timeoutCount - 1 else s.timeoutCount
        awvalid := false, wvalid := false, bvalid := true, wrEn := false } := by
  cases h : (!wrWait && s.timeoutCount != 0) <;>
    simp only [step, hen, haw, hw, hack, h, Bool.true_and, Bool.not_true, Bool.and_self,
      Bool.false_eq_true, if_true, if_false]

/-- Until then it stays as it is. -/
theorem RegIfWr.step_wait (hen : s.wrEn = true) (hb : s.bvalid = false) (haw : s.awvalid = true)
    (hw : s.wvalid = true) (hack : (wrAck || s.timeoutCount == 0) = false) :
    s.step i wrWait wrAck =
      { s with timeoutCount := if wrWait then s.timeoutCount else s.timeoutCount - 1 } := by
  have htimeout := (Bool.or_eq_false_iff.1 hack).2
  obtain ⟨t, a, av, d, st, wv, bv, en⟩ := s
  simp only at hen hb haw hw hack htimeout
  subst hen hb haw hw
  cases wrWait <;> simp_all [step]

/-- A B that is not taken stays. -/
theorem RegIfWr.step_offer (hen : s.wrEn = false) (hb : s.bvalid = true) (hready : i.bready = false)
    (haw : s.awvalid = false) (hw : s.wvalid = false) (hiaw : i.awvalid = false)
    (hiw : i.wvalid = false) :
    s.step i wrWait wrAck =
      { s with timeoutCount := 3, awaddr := i.awaddr, wdata := i.wdata, wstrb := i.wstrb } := by
  simp [step, hen, hb, hready, haw, hw, hiaw, hiw]

/-- With room for it, what is asked for is accepted, and a complete write is shown. -/
theorem WrInv.of_open (hen : s.wrEn = false) (hb : (s.bvalid && !i.bready) = false)
    (haw : s.awvalid = q.aw.isSome) (hw : s.wvalid = q.w.isSome) (ha : ∀ a ∈ q.aw, s.awaddr = a)
    (hd : ∀ d ∈ q.w, (s.wdata, s.wstrb) = d) (hfree : q.Free i) :
    WrInv (s.step i wrWait wrAck) (q.accept i (i.awvalid && s.awready) (i.wvalid && s.wready)) := by
  obtain ⟨haw', ha'⟩ := slot_accept (x := i.awaddr) haw ha hfree.1
  obtain ⟨hw', hd'⟩ := slot_accept (x := (i.wdata, i.wstrb)) hw hd hfree.2
  rw [RegIfWr.step_open hen hb]
  have hpair : (if s.wvalid then (s.wdata, s.wstrb) else (i.wdata, i.wstrb)) =
      (if s.wvalid then s.wdata else i.wdata, if s.wvalid then s.wstrb else i.wstrb) := by
    cases s.wvalid <;> rfl
  rw [hpair] at hd'
  cases hboth : (s.awvalid || i.awvalid) && (s.wvalid || i.wvalid) with
  | false => exact .gather rfl rfl haw' hw' ((congr (congrArg and haw') hw').symm.trans hboth) ha' hd'
  | true =>
    obtain ⟨h₁, h₂⟩ := Bool.and_eq_true_iff.1 hboth
    rw [h₁] at haw'
    rw [h₂] at hw'
    obtain ⟨a, haq⟩ := Option.isSome_iff_exists.1 haw'.symm
    obtain ⟨d, hdq⟩ := Option.isSome_iff_exists.1 hw'.symm
    have ha' := ha' a haq
    have hd' := hd' d hdq
    refine .perform rfl rfl h₁ h₂ ?_
    rw [WrReq.accept, WrReq.mk.injEq]
    exact ⟨by rw [ha']; exact haq, by rw [hd']; exact hdq⟩

theorem WrReq.accept_none {awFire wFire : Bool} (haw : awFire = false) (hw : wFire = false) :
    q.accept i awFire wFire = q := by
  rw [accept, haw, hw]
  rfl

/-- Without a response nothing is answered. -/
theorem WrReq.answer_of_no_b (hb : s.bvalid = false) : q.answer (s.bFire i) = q := by
  rw [WrReq.answer, RegIfWr.bFire, hb]
  rfl

/-- **Write half.**  After every edge, whatever the registers do. -/
theorem WrInv.step (h : WrInv s q) (hfree : (q.answer (s.bFire i)).Free i) :
    WrInv (s.step i wrWait wrAck)
      ((q.answer (s.bFire i)).accept i (i.awvalid && s.awready) (i.wvalid && s.wready)) := by
  cases h with
  | gather hen hb haw hw hmissing ha hd =>
    rw [WrReq.answer_of_no_b hb] at hfree ⊢
    exact .of_open hen (by rw [hb, Bool.false_and]) haw hw ha hd hfree
  | perform hen hb haw hw hq =>
    rw [WrReq.answer_of_no_b hb, WrReq.accept_none (by simp [haw]) (by simp [hw])]
    cases hack : (wrAck || s.timeoutCount == 0) with
    | true =>
      rw [RegIfWr.step_done hen haw hw hack]
      exact .respond _ _ rfl rfl rfl rfl hq
    | false =>
      rw [RegIfWr.step_wait hen hb haw hw hack]
      exact .perform hen hb haw hw hq
  | respond a d hen hb haw hw hq =>
    cases hready : i.bready with
    | true =>
      have hans : q.answer (s.bFire i) = .idle := by simp [WrReq.answer, hb, hready]
      rw [hans] at hfree ⊢
      exact .of_open hen (by rw [hready, Bool.not_true, Bool.and_false]) haw hw (by simp [WrReq.idle])
        (by simp [WrReq.idle]) hfree
    | false =>
      have hans : q.answer (s.bFire i) = q := by simp [WrReq.answer, hready]
      rw [hans] at hfree ⊢
      -- the master asks for nothing while B is on offer
      have hiaw : i.awvalid = false := by
        cases h : i.awvalid with
        | false => rfl
        | true => exact absurd (hfree.1 h) (by simp [hq])
      have hiw : i.wvalid = false := by
        cases h : i.wvalid with
        | false => rfl
        | true => exact absurd (hfree.2 h) (by simp [hq])
      rw [RegIfWr.step_offer hen hb hready haw hw hiaw hiw,
        WrReq.accept_none (by simp [hiaw]) (by simp [hiw])]
      exact .respond a d hen hb haw hw hq

theorem WrInv.of_idle (h : WrInv s .idle) :
    s.wrEn = false ∧ s.bvalid = false ∧ s.awvalid = false ∧ s.wvalid = false := by
  cases h with
  | gather hen hb haw hw => exact ⟨hen, hb, haw, hw⟩
  | perform hen hb haw hw hq => cases hq
  | respond a d hen hb haw hw hq => cases hq

/-- The write shown is the one in progress. -/
theorem WrInv.shown (h : WrInv s q) (hen : s.wrEn = true) :
    q = ⟨some s.awaddr, some (s.wdata, s.wstrb)⟩ ∧ s.bvalid = false ∧ s.awvalid = true ∧
      s.wvalid = true := by
  cases h with
  | gather hen' => exact absurd (hen.symm.trans hen') (by decide)
  | perform hen' hb haw hw hq => exact ⟨hq, hb, haw, hw⟩
  | respond a d hen' => exact absurd (hen.symm.trans hen') (by decide)

/-- B is offered only for a complete write, no longer shown. -/
theorem WrInv.offered (h : WrInv s q) (hb : s.bvalid = true) :
    (∃ a d, q = ⟨some a, some d⟩) ∧ s.wrEn = false ∧ s.awvalid = false ∧ s.wvalid = false := by
  cases h with
  | gather hen hb' => exact absurd (hb.symm.trans hb') (by decide)
  | perform hen hb' => exact absurd (hb.symm.trans hb') (by decide)
  | respond a d hen hb' haw hw hq => exact ⟨⟨a, d, hq⟩, hen, haw, hw⟩

/-- A complete write without a response is shown. -/
theorem WrInv.performing {a : Word} {d : Word × BitVec 4} (h : WrInv s ⟨some a, some d⟩)
    (hb : s.bvalid = false) : s.wrEn = true ∧ s.awaddr = a := by
  cases h with
  | gather hen hb' haw hw hmissing => exact absurd hmissing (by simp)
  | perform hen hb' haw hw hq =>
    rw [WrReq.mk.injEq] at hq
    exact ⟨hen, (Option.some.inj hq.1).symm⟩
  | respond a d hen hb' => exact absurd (hb.symm.trans hb') (by decide)

end Write

/-! ## The read half -/

/-- The registers of `axil_reg_if_rd`. -/
structure RegIfRd where
  timeoutCount : BitVec 2
  araddr : Word
  arvalid : Bool
  rdata : Word
  rvalid : Bool
  rdEn : Bool
deriving DecidableEq, Inhabited

namespace RegIfRd

variable (s : RegIfRd) (i : MasterOut) (data : Word) (rdWait rdAck : Bool)

def reset : RegIfRd := { s with arvalid := false, rvalid := false, rdEn := false }

@[simp] def arready : Bool := !s.arvalid

@[simp] def rFire : Bool := s.rvalid && i.rready

/-- The next-state logic, assignment by assignment. -/
def step : RegIfRd :=
  let n := { s with rvalid := s.rvalid && !i.rready }
  let n := if s.rdEn && (rdAck || s.timeoutCount == 0) then
      { n with arvalid := false, rdata := data, rvalid := true }
    else n
  let n := if !s.arvalid then
      { n with araddr := i.araddr, arvalid := i.arvalid, timeoutCount := 3 }
    else n
  let n := if s.rdEn && !rdWait && s.timeoutCount != 0 then
      { n with timeoutCount := s.timeoutCount - 1 }
    else n
  { n with rdEn := n.arvalid && !n.rvalid }

end RegIfRd

/-- The address of the read in progress. -/
abbrev RdReq : Type := Option Word

namespace RdReq

variable (q : RdReq) (i : MasterOut)

/-- R, when taken, ends the read. -/
def answer (rFire : Bool) : RdReq := if rFire then none else q

@[simp] theorem answer_none (rFire : Bool) : RdReq.answer none rFire = none := ite_self _

def accept (arFire : Bool) : RdReq := if arFire then some i.araddr else q

def Free : Prop := i.arvalid = true → q = none

instance : Decidable (q.Free i) := inferInstanceAs (Decidable (_ → _))

end RdReq

/-- Where the read half is with a read. -/
inductive RdInv (s : RegIfRd) (q : RdReq) : Prop
  | idle (hen : s.rdEn = false) (hr : s.rvalid = false) (har : s.arvalid = false) (hq : q = none)
  /-- the read is shown to the registers -/
  | perform (hen : s.rdEn = true) (hr : s.rvalid = false) (har : s.arvalid = true)
    (hq : q = some s.araddr)
  /-- R is offered -/
  | respond (a : Word) (hen : s.rdEn = false) (hr : s.rvalid = true) (har : s.arvalid = false)
    (hq : q = some a)

section Read

variable {s : RegIfRd} {q : RdReq} {i : MasterOut} {data : Word} {rdWait rdAck : Bool}

/-- Without a read shown and with no R left, an AR is taken and shown. -/
theorem RegIfRd.step_open (hen : s.rdEn = false) (hr : (s.rvalid && !i.rready) = false)
    (har : s.arvalid = false) :
    s.step i data rdWait rdAck =
      { s with
        timeoutCount := 3, araddr := i.araddr, arvalid := i.arvalid, rvalid := false
        rdEn := i.arvalid } := by
  simp [step, hen, hr, har]

theorem RegIfRd.step_rvalid : (s.step i data rdWait rdAck).rvalid =
    ((s.rdEn && (rdAck || s.timeoutCount == 0)) || (s.rvalid && !i.rready)) := by
  unfold step
  split_ifs <;> simp_all

theorem RegIfRd.step_rdata : (s.step i data rdWait rdAck).rdata =
    if s.rdEn && (rdAck || s.timeoutCount == 0) then data else s.rdata := by
  unfold step
  split_ifs <;> rfl

theorem RegIfRd.step_timeout (hen : s.rdEn = false) (har : s.arvalid = false) :
    (s.step i data rdWait rdAck).timeoutCount = 3 := by
  simp [step, hen, har]

/-- An acknowledged read is over, and R is offered. -/
theorem RegIfRd.step_done (hen : s.rdEn = true) (har : s.arvalid = true)
    (hack : (rdAck || s.timeoutCount == 0) = true) :
    s.step i data rdWait rdAck =
      { s with
        timeoutCount := if !rdWait && s.timeoutCount != 0 then s.timeoutCount - 1 else s.timeoutCount
        arvalid := false, rdata := data, rvalid := true, rdEn := false } := by
  cases h : (!rdWait && s.timeoutCount != 0) <;>
    simp only [step, hen, har, hack, h, Bool.true_and, Bool.not_true, Bool.and_self,
      Bool.false_eq_true, if_true, if_false]

/-- Until then it stays as it is. -/
theorem RegIfRd.step_wait (hen : s.rdEn = true) (hr : s.rvalid = false) (har : s.arvalid = true)
    (hack : (rdAck || s.timeoutCount == 0) = false) :
    s.step i data rdWait rdAck =
      { s with timeoutCount := if rdWait then s.timeoutCount else s.timeoutCount - 1 } := by
  have htimeout := (Bool.or_eq_false_iff.1 hack).2
  obtain ⟨t, a, av, d, rv, en⟩ := s
  simp only at hen hr har hack htimeout
  subst hen hr har
  cases rdWait <;> simp_all [step]

/-- An R that is not taken stays, and so does its data. -/
theorem RegIfRd.step_offer (hen : s.rdEn = false) (hr : s.rvalid = true) (hready : i.rready = false)
    (har : s.arvalid = false) (hiar : i.arvalid = false) :
    s.step i data rdWait rdAck = { s with timeoutCount := 3, araddr := i.araddr } := by
  simp [step, hen, hr, hready, har, hiar]

/-- Without a response nothing is answered. -/
theorem RdReq.answer_of_no_r (hr : s.rvalid = false) : q.answer (s.rFire i) = q := by
  rw [RdReq.answer, RegIfRd.rFire, hr]
  rfl

/-- **Read half.**  After every edge, whatever the registers do. -/
theorem RdInv.step (h : RdInv s q) (hfree : (q.answer (s.rFire i)).Free i) :
    RdInv (s.step i data rdWait rdAck)
      ((q.answer (s.rFire i)).accept i (i.arvalid && s.arready)) := by
  have hopen : ∀ hen : s.rdEn = false, ∀ hr : (s.rvalid && !i.rready) = false,
      ∀ har : s.arvalid = false, RdInv (s.step i data rdWait rdAck)
        (RdReq.accept none i (i.arvalid && s.arready)) := by
    intro hen hr har
    rw [RegIfRd.step_open hen hr har]
    cases hiar : i.arvalid with
    | true => exact .perform rfl rfl rfl (by simp [RdReq.accept, har])
    | false => exact .idle rfl rfl rfl rfl
  cases h with
  | idle hen hr har hq =>
    rw [RdReq.answer_of_no_r hr, hq]
    exact hopen hen (by rw [hr, Bool.false_and]) har
  | perform hen hr har hq =>
    have hfull : q.accept i (i.arvalid && s.arready) = q := by simp [RdReq.accept, har]
    rw [RdReq.answer_of_no_r hr, hfull]
    cases hack : (rdAck || s.timeoutCount == 0) with
    | true =>
      rw [RegIfRd.step_done hen har hack]
      exact .respond _ rfl rfl rfl hq
    | false =>
      rw [RegIfRd.step_wait hen hr har hack]
      exact .perform hen hr har hq
  | respond a hen hr har hq =>
    cases hready : i.rready with
    | true =>
      have hans : q.answer (s.rFire i) = none := by simp [RdReq.answer, hr, hready]
      rw [hans]
      exact hopen hen (by rw [hready, Bool.not_true, Bool.and_false]) har
    | false =>
      have hans : q.answer (s.rFire i) = q := by simp [RdReq.answer, hready]
      rw [hans] at hfree ⊢
      have hiar : i.arvalid = false := by
        cases h : i.arvalid with
        | false => rfl
        | true => exact absurd (hfree h) (by simp [hq])
      rw [RegIfRd.step_offer hen hr hready har hiar]
      exact .respond a hen hr har (by simp [RdReq.accept, hiar, hq])

theorem RdInv.of_none (h : RdInv s none) :
    s.rdEn = false ∧ s.rvalid = false ∧ s.arvalid = false := by
  cases h with
  | idle hen hr har => exact ⟨hen, hr, har⟩
  | perform hen hr har hq => cases hq
  | respond a hen hr har hq => cases hq

/-- The read shown is the one in progress. -/
theorem RdInv.shown (h : RdInv s q) (hen : s.rdEn = true) :
    q = some s.araddr ∧ s.rvalid = false ∧ s.arvalid = true := by
  cases h with
  | idle hen' => exact absurd (hen.symm.trans hen') (by decide)
  | perform hen' hr har hq => exact ⟨hq, hr, har⟩
  | respond a hen' => exact absurd (hen.symm.trans hen') (by decide)

/-- R is offered only for a read, no longer shown. -/
theorem RdInv.offered (h : RdInv s q) (hr : s.rvalid = true) :
    (∃ a, q = some a) ∧ s.rdEn = false ∧ s.arvalid = false := by
  cases h with
  | idle hen hr' => exact absurd (hr.symm.trans hr') (by decide)
  | perform hen hr' => exact absurd (hr.symm.trans hr') (by decide)
  | respond a hen hr' har hq => exact ⟨⟨a, hq⟩, hen, har⟩

/-- A read without a response is shown. -/
theorem RdInv.performing {a : Word} (h : RdInv s (some a)) (hr : s.rvalid = false) :
    s.rdEn = true := by
  cases h with
  | idle hen hr' har hq => cases hq
  | perform hen => exact hen
  | respond a hen hr' => exact absurd (hr.symm.trans hr') (by decide)

end Read

end Rv32i

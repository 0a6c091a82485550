import Rv32iCore.Lib.Sync
import Rv32iCore.Soc.RegIf

/-!
# Registers behind `axil_reg_if`, for any master

`gpio`, `uart_axil` and `timer` are registers behind one `axil_reg_if`.  A `RegDevice` says
what the registers answer to the write and the read that are shown to them, and what their
clock edge does; a write that they do not acknowledge they make wait, so that the timeout
never ends it.  A read they acknowledge at once.

Nothing is asked of the master: AW and W may come in any order and far apart, the next ones
may be there before B or R is taken.  Still

    accepted = applied ++ waiting             (writes_applied)
    B's      = one for each applied write     (writes_answered)
    AR's     = sampled ++ waiting             (reads_sampled)
    R's      = the data sampled, in order     (reads_answered)

with at most one write and one read waiting.
-/

namespace Rv32i

open Sync

/-- A write as the registers see it: address, data, strobes. -/
abbrev RegWrite : Type := Word × Word × BitVec 4

/-- The device's registers `δ`, with the other wires `ε` that they see. -/
structure RegDevice (δ ε : Type) where
  /-- `reg_wr_wait` -/
  wrWait : δ → ε → RegIfWr → Bool
  /-- `reg_wr_ack` -/
  wrAck : δ → ε → RegIfWr → Bool
  /-- `reg_rd_data`, from `reg_rd_addr` -/
  rdData : δ → ε → Word → Word
  next : δ → ε → RegIfWr → RegIfRd → δ
  reset : δ
  ack_en : ∀ d e w, wrAck d e w = true → w.wrEn = true
  answers : ∀ d e w, w.wrEn = true → (wrAck d e w || wrWait d e w) = true

/-- The registers of the device and of its interface. -/
structure RegSlave (δ : Type) where
  wr : RegIfWr
  rd : RegIfRd
  dev : δ
deriving Inhabited

structure RegIn (ε : Type) where
  bus : MasterOut
  env : ε
deriving Inhabited

namespace RegDevice

variable {δ ε : Type} (D : RegDevice δ ε) (s : RegSlave δ) (i : RegIn ε)

/-- After a reset edge; the payload registers are not reset. -/
def start : RegSlave δ := ⟨s.wr.reset, s.rd.reset, D.reset⟩

/-- One clock edge; `reg_rd_wait` is 0 and `reg_rd_ack` is `reg_rd_en`. -/
def step : RegSlave δ where
  wr := s.wr.step i.bus (D.wrWait s.dev i.env s.wr) (D.wrAck s.dev i.env s.wr)
  rd := s.rd.step i.bus (D.rdData s.dev i.env s.rd.araddr) false s.rd.rdEn
  dev := D.next s.dev i.env s.wr s.rd

end RegDevice

namespace RegSlave

variable {δ ε : Type} (s : RegSlave δ) (i : RegIn ε)

/-- The slave's side of the bus. -/
def out : SlaveOut where
  awready := s.wr.awready
  wready := s.wr.wready
  bvalid := s.wr.bvalid
  arready := s.rd.arready
  rvalid := s.rd.rvalid
  rdata := s.rd.rdata

/-! ## Observers -/

/-- The addresses accepted. -/
def awTaken : List Word := if i.bus.awvalid && s.wr.awready then [i.bus.awaddr] else []

def wTaken : List (Word × BitVec 4) :=
  if i.bus.wvalid && s.wr.wready then [(i.bus.wdata, i.bus.wstrb)] else []

def bTaken : List Unit := if s.wr.bFire i.bus then [()] else []

def arTaken : List Word := if i.bus.arvalid && s.rd.arready then [i.bus.araddr] else []

def rTaken : List Word := if s.rd.rFire i.bus then [s.rd.rdata] else []

/-- The registers perform the write that is shown to them. -/
def applied (D : RegDevice δ ε) : List RegWrite :=
  if D.wrAck s.dev i.env s.wr then [(s.wr.awaddr, s.wr.wdata, s.wr.wstrb)] else []

/-- The registers answer the read that is shown to them: its address and the data returned. -/
def sampled (D : RegDevice δ ε) : List (Word × Word) :=
  if s.rd.rdEn then [(s.rd.araddr, D.rdData s.dev i.env s.rd.araddr)] else []

/-! ## What the interface holds -/

def awHeld : List Word := if s.wr.awvalid then [s.wr.awaddr] else []

def wHeld : List (Word × BitVec 4) := if s.wr.wvalid then [(s.wr.wdata, s.wr.wstrb)] else []

def bHeld : List Unit := if s.wr.bvalid then [()] else []

def arHeld : List Word := if s.rd.arvalid then [s.rd.araddr] else []

def rHeld : List Word := if s.rd.rvalid then [s.rd.rdata] else []

/-- The enables follow the VALIDs, and the timeout does not run. -/
structure Wf : Prop where
  wrEn : s.wr.wrEn = (s.wr.awvalid && s.wr.wvalid && !s.wr.bvalid)
  rdEn : s.rd.rdEn = (s.rd.arvalid && !s.rd.rvalid)
  timeout : s.wr.awvalid = true → s.wr.timeoutCount = 3

end RegSlave

/-! ## One cycle -/

/-- Without a write performed, what there is room for is taken; a write shown waits. -/
theorem RegIfWr.step_quiet {s : RegIfWr} {i : MasterOut} {wrWait wrAck : Bool}
    (hack : (s.wrEn && (wrAck || s.timeoutCount == 0)) = false) (hwait : (s.wrEn && !wrWait) = false) :
    s.step i wrWait wrAck =
      { timeoutCount := if s.awvalid then s.timeoutCount else 3
        awaddr := if s.awvalid then s.awaddr else i.awaddr
        awvalid := s.awvalid || i.awvalid
        wdata := if s.wvalid then s.wdata else i.wdata
        wstrb := if s.wvalid then s.wstrb else i.wstrb
        wvalid := s.wvalid || i.wvalid
        bvalid := s.bvalid && !i.bready
        wrEn := (s.awvalid || i.awvalid) && (s.wvalid || i.wvalid) && !(s.bvalid && !i.bready) } := by
  cases haw : s.awvalid <;> cases hw : s.wvalid <;>
    simp only [step, hack, hwait, haw, hw, Bool.false_and, Bool.not_true, Bool.not_false,
      Bool.false_eq_true, if_true, if_false, Bool.false_or, Bool.true_or]

/-- Without a read answered, an AR is taken if there is room for it. -/
theorem RegIfRd.step_quiet {s : RegIfRd} {i : MasterOut} {data : Word} {rdWait rdAck : Bool}
    (hen : s.rdEn = false) :
    s.step i data rdWait rdAck =
      { timeoutCount := if s.arvalid then s.timeoutCount else 3
        araddr := if s.arvalid then s.araddr else i.araddr
        arvalid := s.arvalid || i.arvalid
        rdata := s.rdata
        rvalid := s.rvalid && !i.rready
        rdEn := (s.arvalid || i.arvalid) && !(s.rvalid && !i.rready) } := by
  cases har : s.arvalid <;> simp [step, hen, har]

section Cycle

variable {δ ε : Type} {D : RegDevice δ ε} {s : RegSlave δ} {i : RegIn ε}

theorem RegDevice.start_wf (D : RegDevice δ ε) (s : RegSlave δ) : (D.start s).Wf :=
  ⟨rfl, rfl, fun h => absurd h Bool.false_ne_true⟩

namespace RegSlave.Wf

/-- With a write performed, the write half offers B and has room for the next. -/
theorem wr_performed (h : s.Wf) (hack : D.wrAck s.dev i.env s.wr = true) :
    s.wr.awvalid = true ∧ s.wr.wvalid = true ∧ s.wr.bvalid = false ∧
      (D.step s i).wr.awvalid = false ∧ (D.step s i).wr.wvalid = false ∧
      (D.step s i).wr.bvalid = true ∧ (D.step s i).wr.wrEn = false := by
  have hen := D.ack_en _ _ _ hack
  have hv := h.wrEn
  rw [hen] at hv
  obtain ⟨⟨haw, hw⟩, hb⟩ : (s.wr.awvalid = true ∧ s.wr.wvalid = true) ∧ s.wr.bvalid = false := by
    simpa using hv.symm
  refine ⟨haw, hw, hb, ?_⟩
  rw [RegDevice.step, RegIfWr.step_done hen haw hw (by rw [hack, Bool.true_or])]
  exact ⟨rfl, rfl, rfl, rfl⟩

/-- Without one, it takes what it has room for. -/
theorem wr_quiet (h : s.Wf) (hack : D.wrAck s.dev i.env s.wr = false) :
    (D.step s i).wr =
      { timeoutCount := if s.wr.awvalid then s.wr.timeoutCount else 3
        awaddr := if s.wr.awvalid then s.wr.awaddr else i.bus.awaddr
        awvalid := s.wr.awvalid || i.bus.awvalid
        wdata := if s.wr.wvalid then s.wr.wdata else i.bus.wdata
        wstrb := if s.wr.wvalid then s.wr.wstrb else i.bus.wstrb
        wvalid := s.wr.wvalid || i.bus.wvalid
        bvalid := s.wr.bvalid && !i.bus.bready
        wrEn := (s.wr.awvalid || i.bus.awvalid) && (s.wr.wvalid || i.bus.wvalid) &&
          !(s.wr.bvalid && !i.bus.bready) } := by
  have hanswer := D.answers s.dev i.env s.wr
  rw [hack, Bool.false_or] at hanswer
  apply RegIfWr.step_quiet
  · cases hen : s.wr.wrEn with
    | false => rfl
    | true =>
      have hv := h.wrEn
      rw [hen] at hv
      obtain ⟨⟨haw, -⟩, -⟩ : (s.wr.awvalid = true ∧ s.wr.wvalid = true) ∧ s.wr.bvalid = false := by
        simpa using hv.symm
      rw [hack, h.timeout haw]
      rfl
  · cases hen : s.wr.wrEn with
    | false => rfl
    | true => rw [hanswer hen]; rfl

/-- With a read answered, the read half offers R and has room for the next. -/
theorem rd_answered (h : s.Wf) (hen : s.rd.rdEn = true) :
    s.rd.arvalid = true ∧ s.rd.rvalid = false ∧ (D.step s i).rd.arvalid = false ∧
      (D.step s i).rd.rvalid = true ∧ (D.step s i).rd.rdEn = false ∧
      (D.step s i).rd.rdata = D.rdData s.dev i.env s.rd.araddr := by
  have hv := h.rdEn
  rw [hen] at hv
  obtain ⟨har, hr⟩ : s.rd.arvalid = true ∧ s.rd.rvalid = false := by simpa using hv.symm
  refine ⟨har, hr, ?_⟩
  rw [RegDevice.step, RegIfRd.step_done hen har (by rw [hen, Bool.true_or])]
  exact ⟨rfl, rfl, rfl, rfl⟩

theorem step (h : s.Wf) : (D.step s i).Wf := by
  constructor
  · cases hack : D.wrAck s.dev i.env s.wr with
    | true =>
      obtain ⟨-, -, -, haw, hw, hb, hen⟩ := h.wr_performed hack
      rw [haw, hen]
      rfl
    | false => rw [h.wr_quiet hack]
  · cases hen : s.rd.rdEn with
    | true =>
      obtain ⟨-, -, har, hr, hen', -⟩ := h.rd_answered (D := D) (i := i) hen
      rw [har, hen']
      rfl
    | false =>
      show (s.rd.step i.bus _ false s.rd.rdEn).rdEn = _
      rw [RegDevice.step, RegIfRd.step_quiet hen]
  · cases hack : D.wrAck s.dev i.env s.wr with
    | true =>
      obtain ⟨-, -, -, haw, -⟩ := h.wr_performed hack
      rw [haw]
      exact fun h' => absurd h' Bool.false_ne_true
    | false =>
      rw [h.wr_quiet hack]
      intro _
      show (if s.wr.awvalid then s.wr.timeoutCount else 3) = 3
      split_ifs with haw
      · exact h.timeout haw
      · rfl

/-! ### Conservation -/

theorem aw_conserved (h : s.Wf) :
    (s.applied i D).map Prod.fst ++ (D.step s i).awHeld = s.awHeld ++ s.awTaken i := by
  unfold applied awHeld awTaken
  cases hack : D.wrAck s.dev i.env s.wr with
  | true =>
    obtain ⟨haw, -, -, haw', -⟩ := h.wr_performed hack
    simp [haw, haw']
  | false =>
    rw [h.wr_quiet hack]
    cases haw : s.wr.awvalid <;> simp [haw]

theorem w_conserved (h : s.Wf) :
    (s.applied i D).map Prod.snd ++ (D.step s i).wHeld = s.wHeld ++ s.wTaken i := by
  unfold applied wHeld wTaken
  cases hack : D.wrAck s.dev i.env s.wr with
  | true =>
    obtain ⟨-, hw, -, -, hw', -⟩ := h.wr_performed hack
    simp [hw, hw']
  | false =>
    rw [h.wr_quiet hack]
    cases hw : s.wr.wvalid <;> simp [hw]

theorem b_conserved (h : s.Wf) :
    s.bTaken i ++ (D.step s i).bHeld = s.bHeld ++ (s.applied i D).map fun _ => () := by
  unfold applied bHeld bTaken
  cases hack : D.wrAck s.dev i.env s.wr with
  | true =>
    obtain ⟨-, -, hb, -, -, hb', -⟩ := h.wr_performed hack
    simp [hb, hb']
  | false =>
    rw [h.wr_quiet hack]
    cases hb : s.wr.bvalid <;> cases hr : i.bus.bready <;> simp [hb, hr]

theorem ar_conserved (h : s.Wf) :
    (s.sampled i D).map Prod.fst ++ (D.step s i).arHeld = s.arHeld ++ s.arTaken i := by
  unfold sampled arHeld arTaken
  cases hen : s.rd.rdEn with
  | true =>
    obtain ⟨har, -, har', -⟩ := h.rd_answered (D := D) (i := i) hen
    simp [har, har']
  | false =>
    rw [RegDevice.step, RegIfRd.step_quiet hen]
    cases har : s.rd.arvalid <;> simp [har]

theorem r_conserved (h : s.Wf) :
    s.rTaken i ++ (D.step s i).rHeld = s.rHeld ++ (s.sampled i D).map Prod.snd := by
  unfold sampled rHeld rTaken
  cases hen : s.rd.rdEn with
  | true =>
    obtain ⟨-, hr, -, hr', -, hdata⟩ := h.rd_answered (D := D) (i := i) hen
    simp [hr, hr', hdata]
  | false =>
    rw [RegDevice.step, RegIfRd.step_quiet hen]
    cases hr : s.rd.rvalid <;> cases hrr : i.bus.rready <;> simp [hr, hrr]

end RegSlave.Wf

end Cycle

/-! ## Runs -/

section Run

variable {δ ε : Type} (D : RegDevice δ ε) (s : RegSlave δ) (is : List (RegIn ε))

/-- The writes accepted in a run: the k-th is the k-th AW with the k-th W. -/
def RegDevice.accepted : List RegWrite :=
  (outputs D.step RegSlave.awTaken s is).zip (outputs D.step RegSlave.wTaken s is)

/-- The write accepted and not performed yet, if any. -/
def RegSlave.waiting : List RegWrite := s.awHeld.zip s.wHeld

theorem RegSlave.waiting_length : s.waiting.length ≤ 1 := by
  have haw : s.awHeld.length ≤ 1 := by
    unfold awHeld
    split_ifs <;> simp
  rw [waiting, List.length_zip]
  omega

theorem RegDevice.start_always : Always D.step (fun s _ => s.Wf) (D.start s) is :=
  always_of_step RegSlave.Wf (fun _ _ h => h.step) (D.start_wf s)

/-- **Accepted writes are performed once each, in order**, all but the one that waits. -/
theorem RegDevice.writes_applied :
    D.accepted (D.start s) is =
      outputs D.step (fun s i => s.applied i D) (D.start s) is ++
        (run D.step (D.start s) is).waiting := by
  have hwf := D.start_always s is
  have haw := outputs_conserved RegSlave.awHeld (hwf.mono fun _ i h => h.aw_conserved (i := i))
  have hw := outputs_conserved RegSlave.wHeld (hwf.mono fun _ i h => h.w_conserved (i := i))
  rw [outputs_map] at haw hw
  have haw0 : (D.start s).awHeld = [] := rfl
  have hw0 : (D.start s).wHeld = [] := rfl
  rw [haw0, List.nil_append] at haw
  rw [hw0, List.nil_append] at hw
  rw [accepted, ← haw, ← hw, List.zip_append (by simp), List.zip_map', RegSlave.waiting]
  simp

/-- Every B that is taken or on offer is that of the start or of a write performed. -/
theorem RegDevice.answered_of_wf {s : RegSlave δ} (h : s.Wf) (is : List (RegIn ε)) :
    s.wr.bvalid.toNat + (outputs D.step (fun s i => s.applied i D) s is).length =
      (outputs D.step RegSlave.bTaken s is).length + (run D.step s is).wr.bvalid.toNat := by
  have hwf : Always D.step (fun s _ => s.Wf) s is := always_of_step _ (fun _ _ h => h.step) h
  have hb := outputs_conserved RegSlave.bHeld (hwf.mono fun _ i h => h.b_conserved (i := i))
  have hheld : ∀ s : RegSlave δ, s.bHeld.length = s.wr.bvalid.toNat := by
    intro s
    unfold RegSlave.bHeld
    cases s.wr.bvalid <;> rfl
  have hlen := congrArg List.length hb
  rw [outputs_map, List.length_append, List.length_append, List.length_map, hheld, hheld] at hlen
  exact hlen.symm

/-- **A B for each write performed**, and for no other. -/
theorem RegDevice.writes_answered :
    (outputs D.step RegSlave.bTaken (D.start s) is).length +
        (run D.step (D.start s) is).wr.bvalid.toNat =
      (outputs D.step (fun s i => s.applied i D) (D.start s) is).length := by
  have hanswered := D.answered_of_wf (D.start_wf s) is
  rw [show (D.start s).wr.bvalid = false from rfl] at hanswered
  exact hanswered.symm.trans (Nat.zero_add _)

/-- **Accepted reads are answered once each, in order**, all but the one that waits. -/
theorem RegDevice.reads_sampled :
    outputs D.step RegSlave.arTaken (D.start s) is =
      (outputs D.step (fun s i => s.sampled i D) (D.start s) is).map Prod.fst ++
        (run D.step (D.start s) is).arHeld := by
  have hwf := D.start_always s is
  have har := outputs_conserved RegSlave.arHeld (hwf.mono fun _ i h => h.ar_conserved (i := i))
  have har0 : (D.start s).arHeld = [] := rfl
  rw [outputs_map, har0, List.nil_append] at har
  exact har.symm

/-- **What R returns is what was sampled**, in order; the last may still be on offer. -/
theorem RegDevice.reads_answered :
    outputs D.step RegSlave.rTaken (D.start s) is ++ (run D.step (D.start s) is).rHeld =
      (outputs D.step (fun s i => s.sampled i D) (D.start s) is).map Prod.snd := by
  have hwf := D.start_always s is
  have hr := outputs_conserved RegSlave.rHeld (hwf.mono fun _ i h => h.r_conserved (i := i))
  have hr0 : (D.start s).rHeld = [] := rfl
  rw [outputs_map, hr0, List.nil_append] at hr
  exact hr

end Run

end Rv32i

import Rv32iCore.Core.Privilege

/-!
# The pipeline does not livelock

A slot in ID/EX that holds no program instruction has every load, branch, trap and `mret` flag
clear (`Idle`), so it neither stalls nor redirects: the cycle moves IF/ID on, and leaves a
program instruction there.  Two such cycles in a row put a program instruction into EX.
-/

namespace Rv32i

open Sync

/-! ## One cycle -/

section Cycle

variable {P : Params} {t : Tracked} {i : CoreIn}

theorem Idle.loadUse {s : Core} (h : Idle s.idEx) : s.loadUse = false := by
  rw [Core.loadUse, h.memRe]
  rfl

/-- A cycle without a program instruction in EX moves IF/ID on and refills it. -/
theorem Tracked.step_idle (h : Idle t.core.idEx) (hs : i.busStall = false)
    (hn : t.core.takeInterrupt i = false) :
    (t.step P i).exValid = t.core.ifIdValid ∧ (t.step P i).core.ifIdValid = true := by
  have hr := h.pcRedirect hn
  have hl := h.loadUse
  constructor
  · simp [Tracked.step, hs, hr, hl]
  · show (t.core.step P i).ifIdValid = true
    rw [Core.step_advance hs hr hl]

/-- A load-use stall leaves a bubble in EX, whatever else happens in that cycle. -/
theorem Tracked.step_loadUse_idle (hs : i.busStall = false) (hl : t.core.loadUse = true) :
    Idle (t.step P i).core.idEx := by
  show Idle (t.core.nextIdEx i true)
  simp only [Core.nextIdEx, hs, hl, Bool.or_true, Bool.not_true, Bool.false_eq_true, if_false, if_true]
  exact IdEx.bubble_idle _ _

/-- A redirect squashes both slots behind EX. -/
theorem Tracked.step_redirect (hs : i.busStall = false) (hr : t.core.pcRedirect i = true) :
    (t.step P i).exValid = false ∧ (t.step P i).core.ifIdValid = false := by
  constructor
  · simp [Tracked.step, hs, hr]
  · show (t.core.step P i).ifIdValid = false
    rw [Core.step_flush hs hr]

/-- Stalled cycles leave every slot where it is. -/
theorem Tracked.run_stalled (t : Tracked) {stalls : List CoreIn}
    (h : ∀ j ∈ stalls, j.busStall = true) :
    ∃ regs, run (Tracked.step P) t stalls = { t with core := { t.core with regs := regs } } := by
  induction stalls generalizing t with
  | nil => exact ⟨t.core.regs, rfl⟩
  | cons j stalls ih =>
    rw [List.forall_mem_cons] at h
    obtain ⟨regs, hregs⟩ := ih (t.step P j) h.2
    refine ⟨regs, ?_⟩
    rw [run_cons, hregs, Tracked.step_stall h.1]

end Cycle

/-- A cycle in which the pipeline may move: neither stalled nor interrupted. -/
def Moves (t : Tracked) (i : CoreIn) : Prop := i.busStall = false ∧ t.core.takeInterrupt i = false

instance (t : Tracked) (i : CoreIn) : Decidable (Moves t i) := inferInstanceAs (Decidable (_ ∧ _))

/-- An unstalled cycle and the stalled ones after it. -/
def Tracked.window (P : Params) (t : Tracked) (i : CoreIn) (stalls : List CoreIn) : Tracked :=
  run (Tracked.step P) (t.step P i) stalls

section Window

variable {P : Params} {t : Tracked} {i : CoreIn} {stalls : List CoreIn}

theorem Tracked.window_slots (h : ∀ j ∈ stalls, j.busStall = true) :
    (t.window P i stalls).exValid = (t.step P i).exValid ∧
      (t.window P i stalls).core.ifIdValid = (t.step P i).core.ifIdValid ∧
      (t.window P i stalls).core.idEx = (t.step P i).core.idEx := by
  obtain ⟨regs, hregs⟩ := (t.step P i).run_stalled (P := P) h
  rw [window, hregs]
  exact ⟨rfl, rfl, rfl⟩

end Window

/-! ## Runs -/

section Run

variable (P : Params) (s : Core) (i₀ : CoreIn)

/-- In every state of a run, a slot without a program instruction is idle. -/
theorem idle_of_reachable (is : List CoreIn)
    (hv : (run (Tracked.step P) (.reset P s i₀) is).exValid = false) :
    Idle (run (Tracked.step P) (.reset P s i₀) is).core.idEx := by
  obtain ⟨ld, q, hrel, -⟩ := exists_rel P s i₀ is []
  exact hrel.idle hv

/-- The window of a state of the run ends in a state of the run. -/
theorem window_reachable (is : List CoreIn) (i : CoreIn) (stalls : List CoreIn) :
    (run (Tracked.step P) (.reset P s i₀) is).window P i stalls =
      run (Tracked.step P) (.reset P s i₀) (is ++ i :: stalls) := by
  rw [Tracked.window, run_append, run_cons]

/-- A redirect comes from a program instruction or an interrupt. -/
theorem redirect_source (is : List CoreIn) (i : CoreIn) :
    let t := run (Tracked.step P) (.reset P s i₀) is
    t.core.pcRedirect i = true → t.exValid = true ∨ t.core.takeInterrupt i = true := by
  intro t hr
  cases hv : t.exValid with
  | true => exact .inl rfl
  | false =>
    cases hi : t.core.takeInterrupt i with
    | true => exact .inr rfl
    | false =>
      have hno := (idle_of_reachable P s i₀ is hv).pcRedirect hi
      rw [hr] at hno
      cases hno

/-- **No livelock.**  Of three unstalled cycles in a row, with any stalled ones between them,
one has a program instruction in EX unless an interrupt is taken in the first two; `load_use`
is down in the unstalled cycle after the one it is up in; and the two slots that a redirect
squashes hold no program instruction and redirect only by an interrupt. -/
theorem pipeline_progress (is : List CoreIn) :
    let t := run (Tracked.step P) (.reset P s i₀) is
    (∀ a b stalls₁ stalls₂, (∀ j ∈ stalls₁, j.busStall = true) → (∀ j ∈ stalls₂, j.busStall = true) →
      Moves t a → Moves (t.window P a stalls₁) b →
        t.exValid = true ∨ (t.window P a stalls₁).exValid = true ∨
          ((t.window P a stalls₁).window P b stalls₂).exValid = true) ∧
    (∀ a stalls, (∀ j ∈ stalls, j.busStall = true) → a.busStall = false → t.core.loadUse = true →
      (t.window P a stalls).core.loadUse = false) ∧
    (∀ a stalls₁, (∀ j ∈ stalls₁, j.busStall = true) → a.busStall = false →
      t.core.pcRedirect a = true →
        (t.window P a stalls₁).exValid = false ∧
        (∀ b, (t.window P a stalls₁).core.pcRedirect b = true →
          (t.window P a stalls₁).core.takeInterrupt b = true) ∧
        ∀ b stalls₂, (∀ j ∈ stalls₂, j.busStall = true) → Moves (t.window P a stalls₁) b →
          ((t.window P a stalls₁).window P b stalls₂).exValid = false ∧
          ∀ c, ((t.window P a stalls₁).window P b stalls₂).core.pcRedirect c = true →
            ((t.window P a stalls₁).window P b stalls₂).core.takeInterrupt c = true) := by
  intro t
  refine ⟨?_, ?_, ?_⟩
  · intro a b stalls₁ stalls₂ hst₁ hst₂ ha hb
    cases hv : t.exValid with
    | true => exact .inl rfl
    | false =>
    cases hu : (t.window P a stalls₁).exValid with
    | true => exact .inr (.inl rfl)
    | false =>
      -- two cycles without an instruction: the second finds one in IF/ID
      have hidle := idle_of_reachable P s i₀ is hv
      have hidle' : Idle (t.window P a stalls₁).core.idEx := by
        rw [window_reachable] at hu ⊢
        exact idle_of_reachable P s i₀ _ hu
      have hfull : (t.window P a stalls₁).core.ifIdValid = true := by
        rw [(Tracked.window_slots hst₁).2.1]
        exact (Tracked.step_idle hidle ha.1 ha.2).2
      refine .inr (.inr ?_)
      rw [(Tracked.window_slots hst₂).1, (Tracked.step_idle hidle' hb.1 hb.2).1, hfull]
  · intro a stalls hst ha hl
    have hidle := Tracked.step_loadUse_idle (P := P) ha hl
    rw [← (Tracked.window_slots hst).2.2] at hidle
    exact hidle.loadUse
  · intro a stalls₁ hst₁ ha hr
    obtain ⟨hex, hif⟩ := Tracked.step_redirect (P := P) ha hr
    rw [← (Tracked.window_slots hst₁).1] at hex
    rw [← (Tracked.window_slots hst₁).2.1] at hif
    have hidle : Idle (t.window P a stalls₁).core.idEx := by
      rw [window_reachable] at hex ⊢
      exact idle_of_reachable P s i₀ _ hex
    have hsquashed : ∀ b, (t.window P a stalls₁).core.pcRedirect b = true →
        (t.window P a stalls₁).core.takeInterrupt b = true := by
      intro b hb
      have hsrc := redirect_source P s i₀ (is ++ a :: stalls₁) b
      rw [← window_reachable] at hsrc
      rcases hsrc hb with h | h
      · rw [h] at hex
        cases hex
      · exact h
    refine ⟨hex, hsquashed, fun b stalls₂ hst₂ hb => ?_⟩
    have hex' : ((t.window P a stalls₁).window P b stalls₂).exValid = false := by
      rw [(Tracked.window_slots hst₂).1, (Tracked.step_idle hidle hb.1 hb.2).1, hif]
    refine ⟨hex', fun c hc => ?_⟩
    have hsrc := redirect_source P s i₀ ((is ++ a :: stalls₁) ++ b :: stalls₂) c
    rw [← window_reachable, ← window_reachable] at hsrc
    rcases hsrc hc with h | h
    · rw [h] at hex'
      cases hex'
    · exact h

end Run

/-- `jal x0, 0`: after the redirect, a stalled cycle, then the bubble and the nop. -/
def jumpLoop : Params := .ofWords [0x0000006F]

theorem pipeline_progress_jump :
    (run (Tracked.step jumpLoop) (.reset jumpLoop default default)
        (List.replicate 2 default)).exValid = true ∧
    ((run (Tracked.step jumpLoop) (.reset jumpLoop default default) (List.replicate 2 default)).window
      jumpLoop default [{ (default : CoreIn) with busStall := true }]).exValid = false ∧
    (((run (Tracked.step jumpLoop) (.reset jumpLoop default default)
      (List.replicate 3 default)).window jumpLoop default []).window jumpLoop default []).exValid = true :=
  have h₂ := (pipeline_progress jumpLoop default default (List.replicate 2 default)).2.2 default
    [{ (default : CoreIn) with busStall := true }] (by simp) rfl (by decide +kernel)
  have h₃ := (pipeline_progress jumpLoop default default (List.replicate 3 default)).1 default default
    [] [] (by simp) (by simp) (by decide +kernel) (by decide +kernel)
  ⟨by decide +kernel, h₂.1,
    (h₃.resolve_left (by decide +kernel)).resolve_left (by decide +kernel)⟩

end Rv32i

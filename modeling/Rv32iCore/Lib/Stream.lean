import Mathlib.Order.WellFounded
import Rv32iCore.Lib.Sync

/-!
# Infinite runs

A machine of `Rv32iCore.Lib.Sync` on an infinite stream of inputs.  `trace step s inp n` is the
state after the first `n` of them; `Reaches busy done` says that some cycle is `done` and that all
before it are `busy`.

    every cycle is done, or busy and of lower rank, or busy, of the same rank and not a go
    → there is always a next go
    → Reaches busy done                                                      (reaches_of_rank)

    every cycle is done, or busy and of lower rank → Reaches busy done       (reaches_of_lt)

The ranks of `reaches_of_lt` are in any well-founded order, such as a lexicographic one; those of
`reaches_within` are numbers of cycles.
-/

namespace Sync

section Stream

variable {σ ι : Type} (step : σ → ι → σ)

/-- The state after the first `n` inputs. -/
def trace (s : σ) (inp : Nat → ι) : Nat → σ
  | 0 => s
  | n + 1 => step (trace s inp n) (inp n)

/-- Some cycle is `done`, and those before it are `busy`. -/
def Reaches (busy done : σ → ι → Prop) (s : σ) (inp : Nat → ι) : Prop :=
  ∃ n, done (trace step s inp n) (inp n) ∧ ∀ k < n, busy (trace step s inp k) (inp k)

/-- The first cycle apart. -/
theorem trace_shift (s : σ) (inp : Nat → ι) (n : Nat) :
    trace step s inp (n + 1) = trace step (step s (inp 0)) (fun k => inp (k + 1)) n := by
  induction n with
  | zero => rfl
  | succ n ih =>
    show step (trace step s inp (n + 1)) (inp (n + 1)) = _
    rw [ih]
    rfl

theorem trace_eq_run (s : σ) (inp : Nat → ι) (n : Nat) :
    trace step s inp n = run step s ((List.range n).map inp) := by
  induction n with
  | zero => rfl
  | succ n ih =>
    rw [List.range_succ, List.map_append, run_append, ← ih]
    rfl

theorem trace_add (s : σ) (inp : Nat → ι) (n k : Nat) :
    trace step s inp (n + k) = trace step (trace step s inp n) (fun k => inp (n + k)) k := by
  induction k with
  | zero => rfl
  | succ k ih =>
    show step (trace step s inp (n + k)) (inp (n + k)) = _
    rw [ih]
    rfl

variable {step} {busy done : σ → ι → Prop} {s : σ} {inp : Nat → ι}

theorem Reaches.now (h : done s (inp 0)) : Reaches step busy done s inp :=
  ⟨0, h, fun _ hk => absurd hk (Nat.not_lt_zero _)⟩

theorem Reaches.later (hb : busy s (inp 0))
    (h : Reaches step busy done (step s (inp 0)) fun k => inp (k + 1)) :
    Reaches step busy done s inp := by
  obtain ⟨n, hd, hbusy⟩ := h
  rw [← trace_shift] at hd
  refine ⟨n + 1, hd, fun k hk => ?_⟩
  cases k with
  | zero => exact hb
  | succ k =>
    rw [trace_shift]
    exact hbusy k (Nat.lt_of_succ_lt_succ hk)

theorem shift_go {go : ι → Prop} (hgo : ∀ n, ∃ k ≥ n, go (inp k)) (n : Nat) :
    ∃ k ≥ n, go (inp (k + 1)) := by
  obtain ⟨k, hk, hg⟩ := hgo (n + 1)
  exact ⟨k - 1, by omega, by rwa [Nat.sub_add_cancel (by omega)]⟩

/-- **Progress rule.**  A busy cycle lowers the rank, unless it has no `go`; a `go` always comes
again. -/
theorem reaches_of_rank (Stage : Nat → σ → Prop) (go : ι → Prop)
    (hstep : ∀ r s i, Stage r s → done s i ∨
      busy s i ∧ ((∃ r' < r, Stage r' (step s i)) ∨ Stage r (step s i) ∧ ¬ go i))
    (hgo : ∀ n, ∃ k ≥ n, go (inp k)) {r : Nat} (h : Stage r s) : Reaches step busy done s inp := by
  induction r using Nat.strongRecOn generalizing s inp with
  | _ r ih =>
    obtain ⟨k, -, hk⟩ := hgo 0
    -- the rank falls by the time of this go
    induction k generalizing s inp with
    | zero =>
      rcases hstep r s (inp 0) h with hd | ⟨hb, ⟨r', hr, hs⟩ | ⟨-, hno⟩⟩
      · exact .now hd
      · exact .later hb (ih r' hr (shift_go hgo) hs)
      · exact absurd hk hno
    | succ k ihk =>
      rcases hstep r s (inp 0) h with hd | ⟨hb, ⟨r', hr, hs⟩ | ⟨hs, -⟩⟩
      · exact .now hd
      · exact .later hb (ih r' hr (shift_go hgo) hs)
      · exact .later hb (ihk (shift_go hgo) hs hk)

/-- **Progress rule**, for a rank that falls in every busy cycle. -/
theorem reaches_of_lt {α : Type} [LT α] [WellFoundedLT α] (Stage : α → σ → Prop)
    (hstep : ∀ r s i, Stage r s → done s i ∨ busy s i ∧ ∃ r' < r, Stage r' (step s i)) {r : α}
    (h : Stage r s) : Reaches step busy done s inp := by
  induction r using WellFoundedLT.induction generalizing s inp with
  | _ r ih =>
    rcases hstep r s (inp 0) h with hd | ⟨hb, r', hr, hs⟩
    · exact .now hd
    · exact .later hb (ih r' hr hs)

/-- **Bounded progress.**  The rank bounds the number of busy cycles, if it falls in all of them. -/
theorem reaches_within (Stage : Nat → σ → Prop)
    (hstep : ∀ r s i, Stage r s → done s i ∨ busy s i ∧ ∃ r' < r, Stage r' (step s i)) {r : Nat}
    (h : Stage r s) :
    ∃ n ≤ r, done (trace step s inp n) (inp n) ∧ ∀ k < n, busy (trace step s inp k) (inp k) := by
  induction r using Nat.strongRecOn generalizing s inp with
  | _ r ih =>
    rcases hstep r s (inp 0) h with hd | ⟨hb, r', hr, hs⟩
    · exact ⟨0, Nat.zero_le r, hd, fun _ hk => absurd hk (Nat.not_lt_zero _)⟩
    · obtain ⟨n, hn, hd, hbusy⟩ : ∃ n ≤ r',
          done (trace step (step s (inp 0)) (fun k => inp (k + 1)) n) (inp (n + 1)) ∧
          ∀ k < n, busy (trace step (step s (inp 0)) (fun k => inp (k + 1)) k) (inp (k + 1)) :=
        ih r' hr hs
      rw [← trace_shift] at hd
      refine ⟨n + 1, by omega, hd, fun k hk => ?_⟩
      cases k with
      | zero => exact hb
      | succ k =>
        rw [trace_shift]
        exact hbusy k (by omega)

end Stream

end Sync

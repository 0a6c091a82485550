import Mathlib.Data.List.Forall2
import Mathlib.Data.List.Induction

/-!
# Synchronous machines

A clocked design is a step function `σ → ι → σ`: one state per cycle, one input per
cycle.  `run` is the state after a list of inputs, `cycles` lists every cycle of the run
(the state before the edge and that cycle's input), `outputs` is what a per-cycle
observer collects, and `Always` says that a condition holds in every cycle.

    Inv s → (∀ s i, Inv s → ok s i → Inv (step s i)) → Always … is → Inv (run … is)   (inv_run)

`Sim` is a scheduled simulation: one cycle of the concrete machine is a (possibly empty)
list of steps of the abstract one.  Along a run the relation is kept (`Sim.run`), and
outputs the concrete machine shows late are accounted for by what it still has pending
(`Sim.outputs_pending`).
-/

namespace Sync

section Run

variable {σ ι ο : Type} (step : σ → ι → σ) (out : σ → ι → List ο) (ok : σ → ι → Prop)

/-- The state after the inputs. -/
def run (s : σ) (is : List ι) : σ := is.foldl step s

/-- Every cycle of the run, in order. -/
def cycles (s : σ) : List ι → List (σ × ι)
  | [] => []
  | i :: is => (s, i) :: cycles (step s i) is

/-- What the observer `out` collects over the run. -/
def outputs (s : σ) (is : List ι) : List ο :=
  (cycles step s is).flatMap fun c => out c.1 c.2

/-- Every cycle of the run satisfies `ok`. -/
def Always (s : σ) (is : List ι) : Prop := ∀ c ∈ cycles step s is, ok c.1 c.2

instance [∀ s i, Decidable (ok s i)] (s : σ) (is : List ι) : Decidable (Always step ok s is) :=
  inferInstanceAs (Decidable (∀ c ∈ cycles step s is, ok c.1 c.2))

@[simp] theorem run_nil (s : σ) : run step s [] = s := rfl

@[simp] theorem run_cons (s : σ) (i : ι) (is : List ι) :
    run step s (i :: is) = run step (step s i) is := rfl

@[simp] theorem run_append (s : σ) (is js : List ι) :
    run step s (is ++ js) = run step (run step s is) js := by
  simp [run, List.foldl_append]

theorem run_map {κ : Type} (g : κ → ι) (s : σ) (ks : List κ) :
    run step s (ks.map g) = run (fun s k => step s (g k)) s ks := List.foldl_map

@[simp] theorem cycles_nil (s : σ) : cycles step s [] = [] := rfl

@[simp] theorem cycles_cons (s : σ) (i : ι) (is : List ι) :
    cycles step s (i :: is) = (s, i) :: cycles step (step s i) is := rfl

theorem cycles_append (s : σ) (is js : List ι) :
    cycles step s (is ++ js) = cycles step s is ++ cycles step (run step s is) js := by
  induction is generalizing s with
  | nil => rfl
  | cons i is ih => simp [ih]

@[simp] theorem outputs_nil (s : σ) : outputs step out s [] = [] := rfl

@[simp] theorem outputs_cons (s : σ) (i : ι) (is : List ι) :
    outputs step out s (i :: is) = out s i ++ outputs step out (step s i) is := by
  simp [outputs]

theorem outputs_append (s : σ) (is js : List ι) :
    outputs step out s (is ++ js) =
      outputs step out s is ++ outputs step out (run step s is) js := by
  simp [outputs, cycles_append]

theorem outputs_map {ο' : Type} (f : ο → ο') (s : σ) (is : List ι) :
    outputs step (fun s i => (out s i).map f) s is = (outputs step out s is).map f := by
  simp only [outputs, List.map_flatMap]

theorem outputs_filterMap {ο' : Type} (f : ο → Option ο') (s : σ) (is : List ι) :
    outputs step (fun s i => (out s i).filterMap f) s is = (outputs step out s is).filterMap f := by
  simp only [outputs, List.filterMap_flatMap]

theorem outputs_filter (f : ο → Bool) (s : σ) (is : List ι) :
    outputs step (fun s i => (out s i).filter f) s is = (outputs step out s is).filter f := by
  simp only [outputs, List.filter_flatMap]

theorem outputs_bind {ο' : Type} (f : ο → List ο') (s : σ) (is : List ι) :
    outputs step (fun s i => (out s i).flatMap f) s is = (outputs step out s is).flatMap f := by
  simp only [outputs, List.flatMap_assoc]

theorem outputs_input (f : ι → ο) (s : σ) (is : List ι) :
    outputs step (fun _ i => [f i]) s is = is.map f := by
  induction is generalizing s with
  | nil => rfl
  | cons i is ih => rw [outputs_cons, ih, List.singleton_append, List.map_cons]

theorem outputs_singleton_length (f : σ → ι → ο) (s : σ) (is : List ι) :
    (outputs step (fun s i => [f s i]) s is).length = is.length := by
  induction is generalizing s with
  | nil => rfl
  | cons i is ih => rw [outputs_cons, List.length_append, ih, List.length_cons, Nat.add_comm]; rfl

@[simp] theorem always_nil (s : σ) : Always step ok s [] := by
  simp [Always]

@[simp] theorem always_cons (s : σ) (i : ι) (is : List ι) :
    Always step ok s (i :: is) ↔ ok s i ∧ Always step ok (step s i) is := by
  simp [Always]

theorem always_append (s : σ) (is js : List ι) :
    Always step ok s (is ++ js) ↔ Always step ok s is ∧ Always step ok (run step s is) js := by
  simp [Always, cycles_append, or_imp, forall_and]

variable {step out ok}

theorem Always.mono {ok' : σ → ι → Prop} (h : ∀ s i, ok s i → ok' s i) {s : σ} {is : List ι}
    (hs : Always step ok s is) : Always step ok' s is :=
  fun c hc => h _ _ (hs c hc)

theorem Always.and {ok' : σ → ι → Prop} {s : σ} {is : List ι} (h : Always step ok s is)
    (h' : Always step ok' s is) : Always step (fun s i => ok s i ∧ ok' s i) s is :=
  fun c hc => ⟨h c hc, h' c hc⟩

/-- **Invariant rule.**  What the first state satisfies and every allowed step keeps holds
after the run. -/
theorem inv_run (Inv : σ → Prop) (hstep : ∀ s i, Inv s → ok s i → Inv (step s i))
    {s : σ} {is : List ι} (h0 : Inv s) (hok : Always step ok s is) : Inv (run step s is) := by
  induction is generalizing s with
  | nil => exact h0
  | cons i is ih =>
    rw [always_cons] at hok
    exact ih (hstep s i h0 hok.1) hok.2

/-- The invariant rule in every cycle, not only in the last state. -/
theorem inv_always (Inv : σ → Prop) (hstep : ∀ s i, Inv s → ok s i → Inv (step s i))
    {s : σ} {is : List ι} (h0 : Inv s) (hok : Always step ok s is) :
    Always step (fun s i => Inv s ∧ ok s i) s is := by
  induction is generalizing s with
  | nil => simp
  | cons i is ih =>
    rw [always_cons] at hok ⊢
    exact ⟨⟨h0, hok.1⟩, ih (hstep s i h0 hok.1) hok.2⟩

/-- What every step keeps holds in every cycle, whatever the inputs. -/
theorem always_of_step (Inv : σ → Prop) (hstep : ∀ s i, Inv s → Inv (step s i)) {s : σ}
    {is : List ι} (h0 : Inv s) : Always step (fun s _ => Inv s) s is := by
  induction is generalizing s with
  | nil => simp
  | cons i is ih =>
    rw [always_cons]
    exact ⟨h0, ih (hstep s i h0)⟩

/-- What holds after each first part of the inputs holds in every cycle. -/
theorem always_of_prefix {s : σ} {is : List ι}
    (h : ∀ is₁ i is₂, is = is₁ ++ i :: is₂ → ok (run step s is₁) i) : Always step ok s is := by
  induction is generalizing s with
  | nil => simp
  | cons i is ih =>
    rw [always_cons]
    refine ⟨h [] i is rfl, ih fun is₁ j is₂ hsplit => ?_⟩
    exact h (i :: is₁) j is₂ (by rw [hsplit]; rfl)

/-- A part of the state that only what `out` shows changes is a fold over it. -/
theorem run_eq_foldl {τ : Type} (f : σ → τ) (g : τ → ο → τ)
    (hstep : ∀ s i, f (step s i) = (out s i).foldl g (f s)) (s : σ) (is : List ι) :
    f (run step s is) = (outputs step out s is).foldl g (f s) := by
  induction is generalizing s with
  | nil => rfl
  | cons i is ih => rw [run_cons, outputs_cons, ih, hstep, List.foldl_append]

/-- **Exact invariants.**  If an allowed step is exactly one that keeps the invariant, a run stays
within the invariant exactly when all its steps are allowed. -/
theorem inv_take_iff_always (Inv : σ → Prop) (hstep : ∀ s i, Inv s → (Inv (step s i) ↔ ok s i))
    {s : σ} {is : List ι} (h0 : Inv s) :
    (∀ n, Inv (run step s (is.take n))) ↔ Always step ok s is := by
  induction is generalizing s with
  | nil => simpa using h0
  | cons i is ih =>
    rw [always_cons]
    constructor
    · intro h
      have h1 : Inv (step s i) := by simpa using h 1
      refine ⟨(hstep s i h0).1 h1, (ih h1).1 fun n => ?_⟩
      simpa using h (n + 1)
    · rintro ⟨hi, hok⟩ n
      have h1 : Inv (step s i) := (hstep s i h0).2 hi
      cases n with
      | zero => exact h0
      | succ n => exact (ih h1).2 hok n

/-- An observer that shows nothing in any cycle collects nothing. -/
theorem outputs_eq_nil {s : σ} {is : List ι} (h : Always step (fun s i => out s i = []) s is) :
    outputs step out s is = [] := by
  induction is generalizing s with
  | nil => rfl
  | cons i is ih =>
    rw [always_cons] at h
    rw [outputs_cons, h.1, ih h.2, List.nil_append]

/-- **Numbered outputs.**  Where `count` counts them, each output is found in the collection under
its number. -/
theorem outputs_numbered (count : σ → Nat)
    (hcount : ∀ s i, count (step s i) = count s + (out s i).length) {s : σ} (is : List ι)
    {old : List ο} (h0 : old.length = count s) :
    Always step (fun s' i => ∀ x, out s' i = [x] →
      (old ++ outputs step out s is)[count s']? = some x) s is := by
  induction is generalizing s old with
  | nil => simp
  | cons i is ih =>
    rw [always_cons]
    constructor
    · intro x hx
      rw [outputs_cons, hx, ← h0, List.getElem?_append_right (Nat.le_refl _), Nat.sub_self]
      rfl
    · have hlength : (old ++ out s i).length = count (step s i) := by
        rw [List.length_append, hcount, h0]
      have hnext := ih hlength
      rw [List.append_assoc, ← outputs_cons] at hnext
      exact hnext

/-- Two observers that agree in every cycle collect the same. -/
theorem outputs_congr {out' : σ → ι → List ο} {s : σ} {is : List ι}
    (h : Always step (fun s i => out s i = out' s i) s is) :
    outputs step out s is = outputs step out' s is := by
  induction is generalizing s with
  | nil => rfl
  | cons i is ih =>
    rw [always_cons] at h
    rw [outputs_cons, outputs_cons, h.1, ih h.2]

/-- Two machines that take the same step in every cycle make the same run. -/
theorem cycles_congr {step' : σ → ι → σ} {s : σ} {is : List ι}
    (h : Always step (fun s i => step s i = step' s i) s is) :
    cycles step s is = cycles step' s is ∧ run step s is = run step' s is := by
  induction is generalizing s with
  | nil => exact ⟨rfl, rfl⟩
  | cons i is ih =>
    rw [always_cons] at h
    obtain ⟨hcycles, hrun⟩ := ih h.2
    rw [cycles_cons, cycles_cons, run_cons, run_cons, hcycles, hrun, h.1]
    exact ⟨rfl, rfl⟩

/-- What holds of all that is collected holds of what each cycle adds. -/
theorem always_of_outputs {p : ο → Prop} {s : σ} {is : List ι}
    (h : ∀ x ∈ outputs step out s is, p x) : Always step (fun s i => ∀ x ∈ out s i, p x) s is :=
  fun c hc x hx => h x (List.mem_flatMap.2 ⟨c, hc, hx⟩)

/-- What is collected is collected in a cycle, after what the cycles before it add. -/
theorem outputs_split {s : σ} {is : List ι} {xs ys : List ο} {x : ο}
    (h : outputs step out s is = xs ++ x :: ys) :
    ∃ is₁ i is₂ us vs, is = is₁ ++ i :: is₂ ∧ out (run step s is₁) i = us ++ x :: vs ∧
      xs = outputs step out s is₁ ++ us := by
  induction is generalizing s xs with
  | nil => simp at h
  | cons i is ih =>
    rw [outputs_cons] at h
    have hlater : ∀ zs, xs = out s i ++ zs → outputs step out (step s i) is = zs ++ x :: ys →
        ∃ is₁ j is₂ us vs, i :: is = is₁ ++ j :: is₂ ∧ out (run step s is₁) j = us ++ x :: vs ∧
          xs = outputs step out s is₁ ++ us := by
      intro zs hxs hzs
      obtain ⟨is₁, j, is₂, us, vs, rfl, hout, rfl⟩ := ih hzs
      refine ⟨i :: is₁, j, is₂, us, vs, rfl, hout, ?_⟩
      rw [hxs, outputs_cons, List.append_assoc]
    rcases List.append_eq_append_iff.1 h with ⟨zs, hxs, hzs⟩ | ⟨zs, hout, hzs⟩
    · exact hlater zs hxs hzs
    · cases zs with
      | nil =>
        rw [List.append_nil] at hout
        exact hlater [] (by rw [hout, List.append_nil]) hzs.symm
      | cons z zs =>
        rw [List.cons_append, List.cons.injEq] at hzs
        exact ⟨[], i, is, xs, zs, rfl, by rw [run_nil, hout, hzs.1], by rw [outputs_nil]; rfl⟩

/-- The things in `xs` come from cycles before the `n`-th, each from a later one than the one
before it. -/
def InOrder (p : Nat → ο → Prop) (n : Nat) (xs : List ο) : Prop :=
  ∃ ks : List Nat, ks.Pairwise (· < ·) ∧ (∀ k ∈ ks, k < n) ∧ List.Forall₂ p ks xs

theorem InOrder.mono {p q : Nat → ο → Prop} {n : Nat} {xs : List ο} (h : InOrder p n xs)
    (hpq : ∀ k x, k < n → p k x → q k x) : InOrder q n xs := by
  obtain ⟨ks, hsorted, hlt, hall⟩ := h
  refine ⟨ks, hsorted, hlt, ?_⟩
  clear hsorted
  induction hall with
  | nil => exact .nil
  | cons hp _ ih =>
    rw [List.forall_mem_cons] at hlt
    exact .cons (hpq _ _ hlt.1 hp) (ih hlt.2)

theorem InOrder.left {p : Nat → ο → Prop} {n : Nat} {xs ys : List ο} (h : InOrder p n (xs ++ ys)) :
    InOrder p n xs := by
  obtain ⟨ks, hsorted, hlt, hall⟩ := h
  exact ⟨_, hsorted.sublist (List.take_sublist _ _), fun k hk => hlt k (List.mem_of_mem_take hk),
    List.forall₂_take_append _ _ _ hall⟩

/-- With at most one thing to collect in a cycle, each comes from a cycle of its own. -/
theorem outputs_inOrder {p : Nat → ο → Prop} (hone : ∀ s i, (out s i).length ≤ 1) {s : σ}
    {is : List ι} (h : ∀ is₁ i is₂, is = is₁ ++ i :: is₂ →
      ∀ x ∈ out (run step s is₁) i, p is₁.length x) :
    InOrder p is.length (outputs step out s is) := by
  induction is using List.reverseRecOn with
  | nil => exact ⟨[], .nil, by simp, by rw [outputs_nil]; exact .nil⟩
  | append_singleton is i ih =>
    obtain ⟨ks, hsorted, hlt, hall⟩ := ih fun is₁ j is₂ hsplit =>
      h is₁ j (is₂ ++ [i]) (by rw [hsplit, List.append_assoc]; rfl)
    have hlast := h is i [] rfl
    rw [outputs_append, outputs_cons, outputs_nil, List.append_nil, List.length_append,
      List.length_singleton]
    match hout : out (run step s is) i, hone (run step s is) i with
    | [], _ =>
      rw [List.append_nil]
      exact ⟨ks, hsorted, fun k hk => Nat.lt_succ_of_lt (hlt k hk), hall⟩
    | [x], _ =>
      refine ⟨ks ++ [is.length], ?_, ?_, ?_⟩
      · rw [List.pairwise_append]
        exact ⟨hsorted, List.pairwise_singleton _ _, by simpa using hlt⟩
      · intro k hk
        rcases List.mem_append.1 hk with hk | hk
        · exact Nat.lt_succ_of_lt (hlt k hk)
        · rw [List.mem_singleton.1 hk]
          exact Nat.lt_succ_self _
      · exact List.rel_append hall (.cons (hlast x (by rw [hout]; exact List.mem_cons_self)) .nil)

/-- Two observers that have collected the same after every number of steps agree in every
step. -/
theorem always_of_outputs_take {out' : σ → ι → List ο} {s : σ} {is : List ι}
    (h : ∀ n, outputs step out s (is.take n) = outputs step out' s (is.take n)) :
    Always step (fun s i => out s i = out' s i) s is := by
  induction is generalizing s with
  | nil => simp
  | cons i is ih =>
    have hi : out s i = out' s i := by simpa using h 1
    rw [always_cons]
    refine ⟨hi, ih fun n => ?_⟩
    have hn := h (n + 1)
    rwa [List.take_succ_cons, outputs_cons, outputs_cons, hi, List.append_cancel_left_eq] at hn

/-- **Conservation rule.**  If in every cycle what goes out and what is held after it is what
was held and what comes in, the same holds of whole runs. -/
theorem outputs_conserved {inp : σ → ι → List ο} (held : σ → List ο) {s : σ} {is : List ι}
    (h : Always step (fun s i => out s i ++ held (step s i) = held s ++ inp s i) s is) :
    outputs step out s is ++ held (run step s is) = held s ++ outputs step inp s is := by
  induction is generalizing s with
  | nil => simp
  | cons i is ih =>
    rw [always_cons] at h
    rw [outputs_cons, outputs_cons, run_cons, List.append_assoc, ih h.2, ← List.append_assoc, h.1,
      List.append_assoc]

/-- The conservation rule where what is held may get lost: what goes out came in, in order. -/
theorem outputs_sublist {inp : σ → ι → List ο} (held : σ → List ο) {s : σ} {is : List ι}
    (h : Always step (fun s i => (out s i ++ held (step s i)).Sublist (held s ++ inp s i)) s is) :
    (outputs step out s is ++ held (run step s is)).Sublist (held s ++ outputs step inp s is) := by
  induction is generalizing s with
  | nil => simp
  | cons i is ih =>
    rw [always_cons] at h
    rw [outputs_cons, outputs_cons, run_cons, List.append_assoc, 
      ← List.append_assoc (held s)]
    have hrest := (ih h.2).append_left (out s i)
    have hfirst := h.1.append_right (outputs step inp (step s i) is)
    rw [List.append_assoc] at hfirst
    exact hrest.trans hfirst

/-! ### What stays until it goes out -/

/-- `ys` is `xs` with each element repeated any number of times, or left out. -/
inductive Stutters {α : Type} : List α → List α → Prop
  | nil : Stutters [] []
  | cons (x : α) (n : Nat) {xs ys : List α} (h : Stutters xs ys) :
    Stutters (x :: xs) (List.replicate n x ++ ys)

namespace Stutters

variable {α β : Type} {xs ys : List α}

theorem skip {x : α} (h : Stutters xs ys) : Stutters (x :: xs) ys := h.cons x 0

theorem again {x : α} (h : Stutters (x :: xs) ys) : Stutters (x :: xs) (x :: ys) := by
  cases h with
  | cons _ n h => exact h.cons x (n + 1)

/-- What comes later may be left out. -/
theorem append_right (h : Stutters xs ys) (zs : List α) : Stutters (xs ++ zs) ys := by
  induction h with
  | nil =>
    induction zs with
    | nil => exact .nil
    | cons z zs ih => exact ih.skip
  | cons x n _ ih => exact ih.cons x n

theorem map (f : α → β) (h : Stutters xs ys) : Stutters (xs.map f) (ys.map f) := by
  induction h with
  | nil => exact .nil
  | cons x n _ ih =>
    rw [List.map_cons, List.map_append, List.map_replicate]
    exact ih.cons (f x) n

end Stutters

/-- In each cycle what is held stays, or goes out. -/
def Staged (step : σ → ι → σ) (out : σ → ι → List ο) (held : σ → List ο) : Prop :=
  ∀ s i, (out s i = [] ∧ held (step s i) = held s) ∨ out s i = held s

variable {held : σ → List ο}

/-- What is held is the next to go out. -/
theorem Staged.first (h : Staged step out held) (s : σ) (is : List ι) :
    held s <+: outputs step out s is ++ held (run step s is) := by
  induction is generalizing s with
  | nil => exact List.prefix_rfl
  | cons i is ih =>
    rw [outputs_cons, run_cons, List.append_assoc]
    rcases h s i with ⟨hout, hheld⟩ | hout
    · rw [hout, List.nil_append, ← hheld]
      exact ih (step s i)
    · rw [hout]
      exact List.prefix_append _ _

/-- **Sampling.**  An observer that looks at what is held, in some of the cycles, sees what goes
out: in order, each any number of times. -/
theorem Staged.stutters (h : Staged step out held) {sample : σ → ι → List ο}
    (hone : ∀ s, (held s).length ≤ 1) (hsample : ∀ s i, sample s i = [] ∨ sample s i = held s)
    (s : σ) (is : List ι) :
    Stutters (outputs step out s is ++ held (run step s is)) (outputs step sample s is) := by
  induction is generalizing s with
  | nil => exact Stutters.nil.append_right (held s)
  | cons i is ih =>
    have hrest := ih (step s i)
    rw [outputs_cons, outputs_cons, run_cons, List.append_assoc]
    have hfirst := h.first (step s i) is
    match hx : held s, hone s with
    | [], _ =>
      have hnone : sample s i = [] := (hsample s i).elim id fun hs => hs.trans hx
      have hout : out s i = [] := (h s i).elim And.left fun ho => ho.trans hx
      rw [hnone, hout]
      exact hrest
    | [x], _ =>
      -- it goes out now, or it is the next that does
      have hnext : ∃ zs, out s i ++ (outputs step out (step s i) is ++
          held (run step (step s i) is)) = x :: zs ∧
          Stutters (x :: zs) (outputs step sample (step s i) is) := by
        rcases h s i with ⟨hout, hheld⟩ | hout
        · rw [hheld, hx] at hfirst
          obtain ⟨zs, hzs⟩ := hfirst
          rw [← hzs] at hrest
          exact ⟨zs, by rw [hout, ← hzs]; rfl, hrest⟩
        · rw [hout, hx]
          exact ⟨_, rfl, hrest.skip⟩
      obtain ⟨zs, hzs, hall⟩ := hnext
      rw [hzs]
      rcases hsample s i with hs | hs
      · rw [hs]
        exact hall
      · rw [hs, hx]
        exact hall.again

/-- **Sticky bits.**  A bit that a cycle sets, and that one that clears and does not set it
takes back, is up exactly when some cycle set it and no later one cleared it. -/
theorem sticky_iff (bit : σ → Bool) (set clear : σ → ι → Bool)
    (hstep : ∀ s i, bit (step s i) = (set s i || (bit s && !clear s i))) {s : σ} (is : List ι)
    (h0 : bit s = false) :
    bit (run step s is) = true ↔ ∃ xs c ys, cycles step s is = xs ++ c :: ys ∧
      set c.1 c.2 = true ∧ ∀ d ∈ ys, clear d.1 d.2 = false := by
  induction is using List.reverseRecOn with
  | nil => simp [h0]
  | append_singleton is i ih =>
    rw [run_append, cycles_append]
    show bit (step (run step s is) i) = true ↔ ∃ xs c ys,
      cycles step s is ++ [(run step s is, i)] = xs ++ c :: ys ∧ _
    rw [hstep]
    cases hset : set (run step s is) i with
    | true =>
      refine ⟨fun _ => ⟨cycles step s is, _, [], rfl, hset, by simp⟩, fun _ => by simp⟩
    | false =>
      rw [Bool.false_or, Bool.and_eq_true, ih, Bool.not_eq_true']
      constructor
      · rintro ⟨⟨xs, c, ys, he, hc, hd⟩, hclear⟩
        refine ⟨xs, c, ys ++ [(run step s is, i)], by rw [he]; simp, hc, ?_⟩
        intro d hmem
        rcases List.mem_append.1 hmem with hmem | hmem
        · exact hd d hmem
        · rw [List.mem_singleton.1 hmem]
          exact hclear
      · rintro ⟨xs, c, ys, he, hc, hd⟩
        rcases List.eq_nil_or_concat ys with rfl | ⟨zs, z, rfl⟩
        · -- the last cycle does not set the bit
          obtain ⟨-, rfl⟩ := List.append_singleton_inj.1 he
          exact absurd (hset.symm.trans hc) Bool.false_ne_true
        · rw [List.concat_eq_append] at he hd
          rw [← List.cons_append, ← List.append_assoc] at he
          obtain ⟨hcs, rfl⟩ := List.append_singleton_inj.1 he
          exact ⟨⟨xs, c, zs, hcs, hc, fun d hmem => hd d (List.mem_append_left _ hmem)⟩,
            hd _ (List.mem_append_right _ (List.mem_singleton_self _))⟩

theorem Always.take {s : σ} {is : List ι} (h : Always step ok s is) (n : Nat) :
    Always step ok s (is.take n) := by
  rw [← List.take_append_drop n is, always_append] at h
  exact h.1

/-! ### Parts of a machine

A part `p` of the state that steps by itself, on the inputs `q` that the whole gives it, makes
its own run inside the run of the whole. -/

section Part

variable {τ κ : Type} {step' : τ → κ → τ} (p : σ → τ) (q : σ → ι → κ)
  (hstep : ∀ s i, p (step s i) = step' (p s) (q s i))
include hstep

theorem run_part (s : σ) (is : List ι) :
    p (run step s is) = run step' (p s) (outputs step (fun s i => [q s i]) s is) := by
  induction is generalizing s with
  | nil => rfl
  | cons i is ih => rw [run_cons, outputs_cons, ih, hstep]; rfl

theorem outputs_part (f : τ → κ → List ο) (s : σ) (is : List ι) :
    outputs step (fun s i => f (p s) (q s i)) s is =
      outputs step' f (p s) (outputs step (fun s i => [q s i]) s is) := by
  induction is generalizing s with
  | nil => rfl
  | cons i is ih => rw [outputs_cons, outputs_cons, ih, hstep]; simp

theorem always_part (ok' : τ → κ → Prop) (s : σ) (is : List ι) :
    Always step (fun s i => ok' (p s) (q s i)) s is ↔
      Always step' ok' (p s) (outputs step (fun s i => [q s i]) s is) := by
  induction is generalizing s with
  | nil => simp
  | cons i is ih =>
    rw [outputs_cons, List.singleton_append, always_cons, always_cons, ih, hstep]

end Part

end Run

section Sim

variable {σ ι α ε ο : Type}

/-- A scheduled simulation: in an allowed cycle the concrete machine takes one step, and
the abstract machine the steps that the cycle schedules. -/
structure Sim (cstep : σ → ι → σ) (astep : α → ε → α) (ok : σ → ι → Prop)
    (sched : σ → ι → List ε) (R : σ → α → Prop) : Prop where
  step : ∀ s a i, R s a → ok s i → R (cstep s i) (Sync.run astep a (sched s i))

variable {cstep : σ → ι → σ} {astep : α → ε → α} {ok : σ → ι → Prop} {sched : σ → ι → List ε}
  {R : σ → α → Prop}

/-- **Simulation rule.** -/
theorem Sim.run (h : Sim cstep astep ok sched R) {s : σ} {a : α} {is : List ι} (h0 : R s a)
    (hok : Always cstep ok s is) :
    R (Sync.run cstep s is) (Sync.run astep a (outputs cstep sched s is)) := by
  induction is generalizing s a with
  | nil => exact h0
  | cons i is ih =>
    rw [always_cons] at hok
    rw [outputs_cons, run_append]
    exact ih (h.step s a i h0 hok.1) hok.2

/-- What holds in each step that a cycle schedules holds in the run of the abstract machine. -/
theorem Sim.always (h : Sim cstep astep ok sched R) {ok' : σ → ι → Prop} {aok : α → ε → Prop}
    (hcycle : ∀ s a i, R s a → ok' s i → Always astep aok a (sched s i)) {s : σ} {a : α}
    {is : List ι} (h0 : R s a) (hok : Always cstep ok s is) (hok' : Always cstep ok' s is) :
    Always astep aok a (outputs cstep sched s is) := by
  induction is generalizing s a with
  | nil => simp
  | cons i is ih =>
    rw [always_cons] at hok hok'
    rw [outputs_cons, always_append]
    exact ⟨hcycle s a i h0 hok'.1, ih (h.step s a i h0 hok.1) hok.2 hok'.2⟩

/-- **Pending outputs.**  If in every cycle what is shown plus what is pending afterwards
is what was pending plus what the abstract machine shows, the same holds of whole runs. -/
theorem Sim.outputs_pending (h : Sim cstep astep ok sched R) (out : σ → ι → List ο)
    (aout : α → ε → List ο) (pend : σ → List ο)
    (hout : ∀ s a i, R s a → ok s i →
      out s i ++ pend (cstep s i) = pend s ++ outputs astep aout a (sched s i))
    {s : σ} {a : α} {is : List ι} (h0 : R s a) (hok : Always cstep ok s is) :
    outputs cstep out s is ++ pend (Sync.run cstep s is) =
      pend s ++ outputs astep aout a (outputs cstep sched s is) := by
  induction is generalizing s a with
  | nil => simp
  | cons i is ih =>
    rw [always_cons] at hok
    have hi := hout s a i h0 hok.1
    have ht := ih (h.step s a i h0 hok.1) hok.2
    rw [outputs_cons, outputs_cons, run_cons, outputs_append, List.append_assoc, ht,
      ← List.append_assoc, hi, List.append_assoc]

end Sim

end Sync

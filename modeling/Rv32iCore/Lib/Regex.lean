import Mathlib.Data.List.Basic

/-!
# Regular expressions with captures

`run` is a backtracking engine, anchored at the start of the subject: all its successes in
the order it finds them, each with the groups captured and the subject left over.
`Denotes r m t` says that the pattern `r` can stand for the text `t` with the captures `m`.

    mem_run             the successes are the ways to split off a text the pattern denotes
    tryMatch_eq_none    no match means that the pattern denotes no beginning of the subject
    tryMatch_captured   what the first success captured is what the pattern can capture
-/

inductive Regex (α : Type) where
  | eps
  /-- one character of a class -/
  | cls (p : α → Bool)
  | seq (r₁ r₂ : Regex α)
  /-- any number of characters of a class, as many as possible -/
  | star (p : α → Bool)
  /-- `(?:r)?`, taken if possible -/
  | opt (r : Regex α)
  /-- the capturing group number `n` -/
  | group (n : Nat) (r : Regex α)

namespace Regex

variable {α : Type}

/-- The groups that took part in a match, with what they captured. -/
abbrev Captures (α : Type) := List (Nat × List α)

def plus (p : α → Bool) : Regex α := .seq (.cls p) (.star p)

def seqs (rs : List (Regex α)) : Regex α := rs.foldr .seq .eps

def lit [BEq α] (s : List α) : Regex α := seqs (s.map fun c => .cls (· == c))

/-! ## The engine -/

/-- What can be left after characters of a class, the most characters first. -/
def starRun (p : α → Bool) : List α → List (List α)
  | [] => [[]]
  | c :: s => if p c then starRun p s ++ [c :: s] else [c :: s]

def run : Regex α → List α → List (Captures α × List α)
  | eps, s => [([], s)]
  | cls _, [] => []
  | cls p, c :: s => if p c then [([], s)] else []
  | seq r₁ r₂, s =>
    (r₁.run s).flatMap fun (m, u) => (r₂.run u).map fun (m', u') => (m ++ m', u')
  | star p, s => (starRun p s).map fun u => ([], u)
  | opt r, s => r.run s ++ [([], s)]
  | group n r, s => (r.run s).map fun (m, u) => ((n, s.take (s.length - u.length)) :: m, u)

/-- The captures of the first success. -/
def tryMatch (r : Regex α) (s : List α) : Option (Captures α) := (r.run s).head?.map (·.1)

/-! ## What a pattern denotes -/

def Denotes : Regex α → Captures α → List α → Prop
  | eps, m, t => m = [] ∧ t = []
  | cls p, m, t => m = [] ∧ ∃ c, p c = true ∧ t = [c]
  | seq r₁ r₂, m, t =>
    ∃ m₁ t₁ m₂ t₂, r₁.Denotes m₁ t₁ ∧ r₂.Denotes m₂ t₂ ∧ m = m₁ ++ m₂ ∧ t = t₁ ++ t₂
  | star p, m, t => m = [] ∧ ∀ c ∈ t, p c = true
  | opt r, m, t => (m = [] ∧ t = []) ∨ r.Denotes m t
  | group n r, m, t => ∃ m', r.Denotes m' t ∧ m = (n, t) :: m'

theorem mem_starRun {p : α → Bool} {s u : List α} :
    u ∈ starRun p s ↔ ∃ t, (∀ c ∈ t, p c = true) ∧ s = t ++ u := by
  induction s with
  | nil =>
    simp only [starRun, List.mem_singleton]
    constructor
    · rintro rfl
      exact ⟨[], by simp, rfl⟩
    · rintro ⟨t, -, h⟩
      exact (List.append_eq_nil_iff.1 h.symm).2
  | cons c s ih =>
    have hnil : u = c :: s → ∃ t, (∀ c ∈ t, p c = true) ∧ c :: s = t ++ u := by
      rintro rfl
      exact ⟨[], by simp, rfl⟩
    by_cases hc : p c = true
    · rw [starRun, if_pos hc, List.mem_append, List.mem_singleton, ih]
      constructor
      · rintro (⟨t, ht, rfl⟩ | h)
        · exact ⟨c :: t, by simpa [hc] using ht, rfl⟩
        · exact hnil h
      · rintro ⟨t, ht, h⟩
        cases t with
        | nil => exact .inr h.symm
        | cons d t =>
          obtain ⟨rfl, rfl⟩ := List.cons.inj h
          exact .inl ⟨t, fun e he => ht e (List.mem_cons_of_mem _ he), rfl⟩
    · rw [starRun, if_neg hc, List.mem_singleton]
      constructor
      · exact hnil
      · rintro ⟨t, ht, h⟩
        cases t with
        | nil => exact h.symm
        | cons d t =>
          obtain ⟨rfl, -⟩ := List.cons.inj h
          exact absurd (ht c List.mem_cons_self) hc

/-- **Soundness and completeness** of the engine. -/
theorem mem_run {r : Regex α} {s u : List α} {m : Captures α} :
    (m, u) ∈ r.run s ↔ ∃ t, r.Denotes m t ∧ s = t ++ u := by
  induction r generalizing s u m with
  | eps => simp [run, Denotes, and_comm, eq_comm]
  | cls p =>
    simp only [Denotes]
    constructor
    · intro h
      cases s with
      | nil => cases h
      | cons c s =>
        rw [run] at h
        split_ifs at h with hc
        · obtain ⟨rfl, rfl⟩ := Prod.mk.inj (List.mem_singleton.1 h)
          exact ⟨[c], ⟨rfl, c, hc, rfl⟩, rfl⟩
        · cases h
    · rintro ⟨_, ⟨rfl, c, hc, rfl⟩, rfl⟩
      rw [List.singleton_append, run, if_pos hc]
      exact List.mem_singleton_self _
  | seq r₁ r₂ ih₁ ih₂ =>
    simp only [run, Denotes, List.mem_flatMap, List.mem_map, Prod.exists, Prod.mk.injEq]
    constructor
    · rintro ⟨m₁, u₁, h₁, m₂, u₂, h₂, rfl, rfl⟩
      obtain ⟨t₁, hd₁, rfl⟩ := ih₁.1 h₁
      obtain ⟨t₂, hd₂, rfl⟩ := ih₂.1 h₂
      exact ⟨t₁ ++ t₂, ⟨m₁, t₁, m₂, t₂, hd₁, hd₂, rfl, rfl⟩, by simp⟩
    · rintro ⟨_, ⟨m₁, t₁, m₂, t₂, hd₁, hd₂, rfl, rfl⟩, rfl⟩
      exact ⟨m₁, t₂ ++ u, ih₁.2 ⟨t₁, hd₁, by simp⟩, m₂, u, ih₂.2 ⟨t₂, hd₂, rfl⟩, rfl, rfl⟩
  | star p =>
    simp only [run, Denotes, List.mem_map, Prod.mk.injEq]
    constructor
    · rintro ⟨u, hu, rfl, rfl⟩
      obtain ⟨t, ht, rfl⟩ := mem_starRun.1 hu
      exact ⟨t, ⟨rfl, ht⟩, rfl⟩
    · rintro ⟨t, ⟨rfl, ht⟩, rfl⟩
      exact ⟨u, mem_starRun.2 ⟨t, ht, rfl⟩, rfl, rfl⟩
  | opt r ih =>
    simp only [run, Denotes, List.mem_append, List.mem_singleton, Prod.mk.injEq, ih]
    constructor
    · rintro (⟨t, ht, rfl⟩ | ⟨rfl, rfl⟩)
      · exact ⟨t, .inr ht, rfl⟩
      · exact ⟨[], .inl ⟨rfl, rfl⟩, rfl⟩
    · rintro ⟨t, ⟨rfl, rfl⟩ | ht, rfl⟩
      · exact .inr ⟨rfl, rfl⟩
      · exact .inl ⟨t, ht, rfl⟩
  | group n r ih =>
    simp only [run, Denotes, List.mem_map, Prod.exists, Prod.mk.injEq]
    constructor
    · rintro ⟨m', u', h, rfl, rfl⟩
      obtain ⟨t, ht, rfl⟩ := ih.1 h
      exact ⟨t, ⟨m', ht, by simp⟩, rfl⟩
    · rintro ⟨t, ⟨m', ht, rfl⟩, rfl⟩
      exact ⟨m', u, ih.2 ⟨t, ht, rfl⟩, by simp, rfl⟩

/-- There is no match iff the pattern denotes no beginning of the subject. -/
theorem tryMatch_eq_none {r : Regex α} {s : List α} :
    r.tryMatch s = none ↔ ∀ m t u, s = t ++ u → ¬ r.Denotes m t := by
  rw [tryMatch, Option.map_eq_none_iff, List.head?_eq_none_iff, List.eq_nil_iff_forall_not_mem]
  constructor
  · intro h m t u hs hd
    exact h (m, u) (mem_run.2 ⟨t, hd, hs⟩)
  · rintro h ⟨m, u⟩ hmem
    obtain ⟨t, hd, hs⟩ := mem_run.1 hmem
    exact h m t u hs hd

theorem denotes_plus {p : α → Bool} {m : Captures α} {t : List α} :
    (plus p).Denotes m t ↔ m = [] ∧ t ≠ [] ∧ ∀ c ∈ t, p c = true := by
  simp only [plus, Denotes]
  constructor
  · rintro ⟨_, _, _, t, ⟨rfl, c, hc, rfl⟩, ⟨rfl, ht⟩, rfl, rfl⟩
    exact ⟨rfl, by simp, by simpa [hc] using ht⟩
  · rintro ⟨rfl, hne, ht⟩
    cases t with
    | nil => exact absurd rfl hne
    | cons c t =>
      rw [List.forall_mem_cons] at ht
      exact ⟨[], [c], [], t, ⟨rfl, c, ht.1, rfl⟩, ⟨rfl, ht.2⟩, rfl, rfl⟩

/-! ## What a match can have captured -/

/-- The captures of `r`, the texts between the groups left aside. -/
def Captured : Regex α → Captures α → Prop
  | eps, m => m = []
  | cls _, m => m = []
  | seq r₁ r₂, m => ∃ m₁ m₂, r₁.Captured m₁ ∧ r₂.Captured m₂ ∧ m = m₁ ++ m₂
  | star _, m => m = []
  | opt r, m => m = [] ∨ r.Captured m
  | group n r, m => ∃ m' t, r.Denotes m' t ∧ m = (n, t) :: m'

theorem Denotes.captured {r : Regex α} {m : Captures α} {t : List α} (h : r.Denotes m t) :
    r.Captured m := by
  induction r generalizing m t with
  | eps => exact h.1
  | cls p => exact h.1
  | seq r₁ r₂ ih₁ ih₂ =>
    obtain ⟨m₁, t₁, m₂, t₂, h₁, h₂, rfl, -⟩ := h
    exact ⟨m₁, m₂, ih₁ h₁, ih₂ h₂, rfl⟩
  | star p => exact h.1
  | opt r ih =>
    rcases h with ⟨rfl, -⟩ | h
    · exact .inl rfl
    · exact .inr (ih h)
  | group n r ih =>
    obtain ⟨m', h, rfl⟩ := h
    exact ⟨m', t, h, rfl⟩

theorem tryMatch_captured {r : Regex α} {s : List α} {m : Captures α} (h : r.tryMatch s = some m) :
    r.Captured m := by
  obtain ⟨⟨m, u⟩, hhead, rfl⟩ := Option.map_eq_some_iff.1 h
  obtain ⟨t, ht, -⟩ := mem_run.1 (List.mem_of_head? hhead)
  exact ht.captured

@[simp] theorem captured_seqs_nil {m : Captures α} : (seqs []).Captured m ↔ m = [] := Iff.rfl

@[simp] theorem captured_seqs_cons {r : Regex α} {rs : List (Regex α)} {m : Captures α} :
    (seqs (r :: rs)).Captured m ↔
      ∃ m₁ m₂, r.Captured m₁ ∧ (seqs rs).Captured m₂ ∧ m = m₁ ++ m₂ := Iff.rfl

@[simp] theorem captured_lit [BEq α] {s : List α} {m : Captures α} :
    (lit s).Captured m ↔ m = [] := by
  induction s generalizing m with
  | nil => rfl
  | cons c s ih =>
    change (∃ m₁ m₂, m₁ = [] ∧ (lit s).Captured m₂ ∧ m = m₁ ++ m₂) ↔ _
    simp [ih]

@[simp] theorem captured_star {p : α → Bool} {m : Captures α} :
    (star p).Captured m ↔ m = [] := Iff.rfl

@[simp] theorem captured_plus {p : α → Bool} {m : Captures α} :
    (plus p).Captured m ↔ m = [] := by
  simp [plus, Captured]

@[simp] theorem captured_opt {r : Regex α} {m : Captures α} :
    (opt r).Captured m ↔ m = [] ∨ r.Captured m := Iff.rfl

@[simp] theorem captured_group_plus {n : Nat} {p : α → Bool} {m : Captures α} :
    (group n (plus p)).Captured m ↔ ∃ t, t ≠ [] ∧ (∀ c ∈ t, p c = true) ∧ m = [(n, t)] := by
  simp only [Captured, denotes_plus]
  constructor
  · rintro ⟨_, t, ⟨rfl, hne, ht⟩, rfl⟩
    exact ⟨t, hne, ht, rfl⟩
  · rintro ⟨t, hne, ht, rfl⟩
    exact ⟨[], t, ⟨rfl, hne, ht⟩, rfl⟩

end Regex

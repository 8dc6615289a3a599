/-
Lists cut at the occurrences of another one, which are taken from the left and do not overlap.

- `Cuts d s ps`: `ps` are the pieces of `s` between these occurrences of `d`, also the empty ones. There is one such
  list for each `s` (`exists_cuts`, `Cuts.unique`), and `s` is its pieces joined with `d` (`Cuts.eq_intercalate`).
- `offset n ps i`: where the piece `i` starts when the occurrences have the length `n`. `Cuts.drop`: from there on the
  list is cut into the pieces that are left.
- `cuts_singleton_iff`: a delimiter of one element cuts where it stands; `Cuts.splitOn_eq`.
-/
import Mathlib.Tactic

namespace DreamHeroes.Lib

variable {α : Type*} {d s : List α} {ps : List (List α)}

inductive Cuts (d : List α) : List α → List (List α) → Prop
  | last {s : List α} (hnone : ¬d <:+: s) : Cuts d s [s]
  | cut {pre rest : List α} {ps : List (List α)} (hfirst : ∀ k < pre.length, ¬d <+: (pre ++ d ++ rest).drop k)
      (hrest : Cuts d rest ps) : Cuts d (pre ++ d ++ rest) (pre :: ps)

namespace Cuts

theorem ne_nil (h : Cuts d s ps) : ps ≠ [] := by
  cases h with
  | last => exact List.cons_ne_nil _ _
  | cut => exact List.cons_ne_nil _ _

theorem eq_intercalate (h : Cuts d s ps) : s = d.intercalate ps := by
  induction h with
  | last hnone => rw [List.intercalate_singleton]
  | @cut pre rest ps hfirst hrest ih =>
    obtain ⟨p, ps, rfl⟩ := List.exists_cons_of_ne_nil hrest.ne_nil
    rw [List.intercalate_cons_cons, ← ih, List.append_assoc]

theorem unique {ps' : List (List α)} (h : Cuts d s ps) (h' : Cuts d s ps') : ps = ps' := by
  induction h generalizing ps' with
  | last hnone =>
    cases h' with
    | last => rfl
    | cut => exact absurd (List.infix_append _ _ _) hnone
  | @cut pre rest ps hfirst hrest ih =>
    generalize hs : pre ++ d ++ rest = s at h'
    cases h' with
    | last hnone => exact absurd (hs ▸ List.infix_append _ _ _) hnone
    | @cut pre' rest' ps' hfirst' hrest' =>
      -- neither of the two first occurrences is before the other
      have hdrop : d <+: (pre ++ d ++ rest).drop pre.length := by
        rw [List.append_assoc, List.drop_left]
        exact List.prefix_append _ _
      have hdrop' : d <+: (pre' ++ d ++ rest').drop pre'.length := by
        rw [List.append_assoc, List.drop_left]
        exact List.prefix_append _ _
      have hlen : pre.length = pre'.length := by
        rcases lt_trichotomy pre.length pre'.length with hlt | heq | hgt
        · exact absurd (hs ▸ hdrop) (hfirst' _ hlt)
        · exact heq
        · exact absurd (hs ▸ hdrop') (hfirst _ hgt)
      rw [List.append_assoc, List.append_assoc] at hs
      obtain ⟨rfl, hrests⟩ := List.append_inj hs hlen
      rw [ih ((List.append_cancel_left hrests) ▸ hrest')]

end Cuts

theorem exists_cuts (hd : d ≠ []) (s : List α) : ∃ ps, Cuts d s ps := by
  classical
  induction hn : s.length using Nat.strong_induction_on generalizing s with
  | _ n ih =>
    by_cases hinfix : d <:+: s
    · have hex : ∃ k, d <+: s.drop k := by
        obtain ⟨pre, rest, rfl⟩ := hinfix
        refine ⟨pre.length, ?_⟩
        rw [List.append_assoc, List.drop_left]
        exact List.prefix_append _ _
      obtain ⟨rest, hrest⟩ := Nat.find_spec hex
      have hk : Nat.find hex ≤ s.length := by
        by_contra hlt
        rw [List.drop_of_length_le (by omega)] at hrest
        exact hd (List.append_eq_nil_iff.1 hrest).1
      have hs : s.take (Nat.find hex) ++ d ++ rest = s := by rw [List.append_assoc, hrest, List.take_append_drop]
      have hlen : (s.take (Nat.find hex)).length = Nat.find hex := by rw [List.length_take, min_eq_left hk]
      have hlt : rest.length < n := by
        have hlens := congrArg List.length hs
        have hpos := List.length_pos_of_ne_nil hd
        simp only [List.length_append] at hlens
        omega
      obtain ⟨ps, hps⟩ := ih _ hlt rest rfl
      refine ⟨s.take (Nat.find hex) :: ps, ?_⟩
      have hcut : Cuts d (s.take (Nat.find hex) ++ d ++ rest) (s.take (Nat.find hex) :: ps) := by
        refine Cuts.cut (fun k hlt => ?_) hps
        rw [hs]
        rw [hlen] at hlt
        exact Nat.find_min hex hlt
      rwa [hs] at hcut
    · exact ⟨[s], Cuts.last hinfix⟩

/-! ## Places -/

/-- where a piece starts -/
def offset (n : ℕ) : List (List α) → ℕ → ℕ
  | [], _ => 0
  | _, 0 => 0
  | p :: ps, i + 1 => p.length + n + offset n ps i

@[simp] theorem offset_zero (n : ℕ) (ps : List (List α)) : offset n ps 0 = 0 := by cases ps <;> rfl

theorem offset_succ (n : ℕ) {ps : List (List α)} {i : ℕ} (hi : i < ps.length) :
    offset n ps (i + 1) = offset n ps i + ps[i].length + n := by
  induction ps generalizing i with
  | nil => exact absurd hi (Nat.not_lt_zero i)
  | cons p ps ih =>
    cases i with
    | zero =>
      simp [offset]
    | succ i =>
      rw [offset, ih (Nat.lt_of_succ_lt_succ hi), offset, List.getElem_cons_succ]
      omega

theorem le_offset {n : ℕ} (hn : 0 < n) {ps : List (List α)} {i : ℕ} (hi : i ≤ ps.length) : i ≤ offset n ps i := by
  induction i with
  | zero => exact Nat.zero_le _
  | succ i ih =>
    have := ih (by omega)
    rw [offset_succ n hi]
    omega

namespace Cuts

/-- from the start of a piece on, the list is cut into the pieces that are left -/
theorem drop (h : Cuts d s ps) {i : ℕ} (hi : i < ps.length) :
    offset d.length ps i ≤ s.length ∧ Cuts d (s.drop (offset d.length ps i)) (ps.drop i) := by
  induction h generalizing i with
  | last hnone =>
    obtain rfl : i = 0 := by simpa using hi
    exact ⟨by simp, by simpa using Cuts.last hnone⟩
  | @cut pre rest ps hfirst hrest ih =>
    cases i with
    | zero => exact ⟨by simp, by simpa using Cuts.cut hfirst hrest⟩
    | succ i =>
      obtain ⟨hle, hdrop⟩ := ih (Nat.lt_of_succ_lt_succ hi)
      have hlen : (pre ++ d ++ rest).length = (pre ++ d).length + rest.length := List.length_append
      rw [offset, ← List.length_append]
      constructor
      · omega
      · rwa [List.drop_length_add_append, List.drop_succ_cons]

end Cuts

/-! ## A delimiter of one element -/

theorem cuts_singleton_iff {c : α} : Cuts [c] s ps ↔ ps ≠ [] ∧ (∀ p ∈ ps, c ∉ p) ∧ s = [c].intercalate ps := by
  constructor
  · intro h
    refine ⟨h.ne_nil, ?_, h.eq_intercalate⟩
    induction h with
    | last hnone =>
      rw [List.singleton_infix_iff] at hnone
      simpa using hnone
    | @cut pre rest ps hfirst hrest ih =>
      intro p hp
      rcases List.mem_cons.1 hp with rfl | hp
      · intro hmem
        obtain ⟨k, hk, hget⟩ := List.mem_iff_getElem.1 hmem
        refine hfirst k hk ⟨p.drop (k + 1) ++ [c] ++ rest, ?_⟩
        rw [List.append_assoc p, List.drop_append_of_le_length hk.le, List.drop_eq_getElem_cons hk, hget]
        simp
      · exact ih p hp
  · rintro ⟨hne, hfree, rfl⟩
    induction ps with
    | nil => exact absurd rfl hne
    | cons p ps ih =>
      have hp := hfree p List.mem_cons_self
      cases ps with
      | nil =>
        rw [List.intercalate_singleton]
        exact Cuts.last fun h => hp ((List.singleton_infix_iff _ _).1 h)
      | cons q ps =>
        have hrest := ih (List.cons_ne_nil q ps) fun p' hp' => hfree p' (List.mem_cons_of_mem p hp')
        rw [List.intercalate_cons_cons]
        refine Cuts.cut (fun k hk h => hp ?_) hrest
        rw [List.append_assoc, List.drop_append_of_le_length hk.le, List.drop_eq_getElem_cons hk] at h
        obtain ⟨t, ht⟩ := h
        rw [(List.cons_eq_cons.1 ht).1]
        exact List.getElem_mem hk

theorem Cuts.splitOn_eq [DecidableEq α] {c : α} (h : Cuts [c] s ps) : s.splitOn c = ps := by
  obtain ⟨hne, hfree, rfl⟩ := cuts_singleton_iff.1 h
  exact List.splitOn_intercalate c hfree hne

end DreamHeroes.Lib

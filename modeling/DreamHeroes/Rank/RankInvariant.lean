/-
The invariant of the rank list over every sequence of `updateHeroDailyRank` and `ClearRankList`.

- `RankInv`: the list is in the order of `notAfter` (score descending, then time ascending) and numbered 1, 2, .., each
  account occurs once, the map holds exactly the ranks of the entries, the list is not longer than its maximum, and the
  out parameter of a call is what `getHeroDailyRank` answers right after it.
- `Safe`: a score above the cached minimum is of an account in the list, or there is room; a score that is not above it
  is of an account without an entry, and the list is full or its last entry stays before the new one.
- `rankInv_iff`: the invariant holds all along a run exactly when every call is `Safe`, whatever the cached minimum is
  at the start. `lowered_breaks` is a run with a score that goes down.
-/
import Mathlib.Tactic
import DreamHeroes.Lib.Machine
import DreamHeroes.Rank.RankManager

namespace DreamHeroes.Rank

open DreamHeroes.Lib DreamHeroes.Config

/-! ## Runs -/

structure St where
  manager : RankManager
  /-- the account and the out parameter of the last call -/
  out : Option (ℕ × ℤ) := none

inductive Op where
  | updateHeroDailyRank (serverTime : ℤ) (acc : ℕ) (name : String) (score : ℤ)
  | clearRankList
deriving DecidableEq, Repr

def step (s : St) : Op → St
  | .updateHeroDailyRank serverTime acc name score =>
    let (m, rank) := updateHeroDailyRank s.manager serverTime acc name score
    { manager := m, out := some (acc, rank) }
  | .clearRankList => { manager := clearRankList s.manager }

def start (dailyMaxRankSize : ℕ) (minDailyScore : ℤ) : St where
  manager := { dailyMaxRankSize := dailyMaxRankSize, minDailyScore := minDailyScore }

structure RankInv (s : St) : Prop where
  sorted : s.manager.heroesDailyRank.Pairwise notAfter
  ranks : s.manager.heroesDailyRank.map DailyGameRankTg.rank =
    (List.range s.manager.heroesDailyRank.length).map fun i : ℕ => 1 + (i : ℤ)
  accounts : (s.manager.heroesDailyRank.map DailyGameRankTg.acc).Nodup
  map : ∀ acc, s.manager.heroesRank[acc]? = (entryOf s.manager.heroesDailyRank acc).map DailyGameRankTg.rank
  size : s.manager.heroesRank.size = s.manager.heroesDailyRank.length
  bound : s.manager.heroesDailyRank.length ≤ s.manager.dailyMaxRankSize
  out : ∀ acc rank, s.out = some (acc, rank) → rank = getHeroDailyRank s.manager acc

/-- the calls that keep the invariant -/
def Safe (s : St) : Op → Prop
  | .updateHeroDailyRank serverTime acc _ score =>
    if s.manager.minDailyScore < score then
      acc ∈ s.manager.heroesDailyRank.map DailyGameRankTg.acc ∨
        s.manager.heroesDailyRank.length < s.manager.dailyMaxRankSize
    else
      acc ∉ s.manager.heroesDailyRank.map DailyGameRankTg.acc ∧
        (s.manager.dailyMaxRankSize ≤ s.manager.heroesDailyRank.length ∨
          ∀ e ∈ s.manager.heroesDailyRank.getLast?, score < e.score ∨ (e.score = score ∧ e.time ≤ u32 serverTime))
  | .clearRankList => True

/-! ## The invariant -/

variable {s : St} {acc : ℕ} {score : ℤ} (serverTime : ℤ) (name : String)

theorem RankInv.rank_le (h : RankInv s) {e : DailyGameRankTg} (he : e ∈ s.manager.heroesDailyRank) :
    e.rank ≤ s.manager.heroesDailyRank.length := by
  have hmem := List.mem_map_of_mem (f := DailyGameRankTg.rank) he
  rw [h.ranks, List.mem_map] at hmem
  obtain ⟨i, hi, heq⟩ := hmem
  rw [List.mem_range] at hi
  omega

/-- after the sort and the loop that numbers the list only its length is left to check -/
theorem rankInv_ranked {l : List DailyGameRankTg} (m : RankManager) (min rank : ℤ)
    (hacc : (l.map DailyGameRankTg.acc).Nodup) (hmem : acc ∈ l.map DailyGameRankTg.acc) :
    RankInv ⟨{ m with heroesDailyRank := ranked l, heroesRank := rankMap (ranked l), minDailyScore := min },
        some (acc, rankOut acc (ranked l) rank)⟩ ↔ l.length ≤ m.dailyMaxRankSize := by
  have hnodup : ((ranked l).map DailyGameRankTg.acc).Nodup := (ranked_acc l).nodup_iff.2 hacc
  have hheld : acc ∈ (ranked l).map DailyGameRankTg.acc := (ranked_acc l).mem_iff.2 hmem
  constructor
  · intro h
    have hbound := h.bound
    rwa [ranked_length] at hbound
  · intro hle
    refine ⟨ranked_sorted l, ?_, hnodup, get_rankMap hnodup, rankMap_size hnodup, ?_, ?_⟩
    · simp only [ranked, numberFrom_rank, numberFrom_length]
    · rwa [ranked_length]
    · intro acc' rank' hout
      rw [Option.some.injEq, Prod.mk.injEq] at hout
      obtain ⟨rfl, rfl⟩ := hout
      rw [rankOut_eq hnodup]
      simp only [getHeroDailyRank, get_rankMap hnodup]
      cases hentry : entryOf (ranked l) acc with
      | none => exact absurd hheld (entryOf_eq_none.1 hentry)
      | some entry => rfl

/-- an account without an entry is appended -/
theorem rankInv_append (h : RankInv s) (hnew : acc ∉ s.manager.heroesDailyRank.map DailyGameRankTg.acc)
    (hroom : s.manager.heroesDailyRank.length < s.manager.dailyMaxRankSize) (min : ℤ) :
    RankInv ⟨{ s.manager with
          heroesDailyRank := s.manager.heroesDailyRank ++ [newEntry s.manager serverTime acc name score],
          heroesRank := s.manager.heroesRank.insert acc (s.manager.heroesDailyRank.length + 1), minDailyScore := min },
        some (acc, s.manager.heroesDailyRank.length + 1)⟩ ↔
      ∀ e ∈ s.manager.heroesDailyRank.getLast?, notAfter e (newEntry s.manager serverTime acc name score) := by
  have hmap : ∀ acc', (s.manager.heroesRank.insert acc (s.manager.heroesDailyRank.length + 1 : ℤ))[acc']? =
      (entryOf (s.manager.heroesDailyRank ++ [newEntry s.manager serverTime acc name score]) acc').map
        DailyGameRankTg.rank := by
    intro acc'
    rw [get_insert, h.map, entryOf_append]
    by_cases heq : acc' = acc
    · subst heq
      rw [entryOf_eq_none.2 hnew, if_pos rfl, Option.none_or]
      have hself := entryOf_cons_self (newEntry s.manager serverTime acc' name score) []
      exact (congrArg (Option.map DailyGameRankTg.rank) hself).symm
    · have hnone : entryOf [newEntry s.manager serverTime acc name score] acc' = none :=
        entryOf_cons_ne (Ne.symm heq) []
      rw [if_neg heq, hnone, Option.or_none]
  constructor
  · intro h'
    exact (sorted_concat h.sorted _).1 h'.sorted
  · intro hlast
    refine ⟨(sorted_concat h.sorted _).2 hlast, ?_, ?_, hmap, ?_, by simpa using hroom, ?_⟩
    · simp [h.ranks, List.range_succ, newEntry, add_comm]
    · rw [List.map_append, List.nodup_append]
      refine ⟨h.accounts, by simp, ?_⟩
      intro a ha b hb heq
      obtain rfl : b = acc := by simpa [newEntry] using hb
      exact hnew (heq ▸ ha)
    · have hnone : acc ∉ s.manager.heroesRank := by
        rw [Std.TreeMap.mem_iff_isSome_getElem?, h.map, entryOf_eq_none.2 hnew]
        exact Bool.false_ne_true
      rw [Std.TreeMap.size_insert, if_neg (by simpa using hnone), h.size, List.length_append, List.length_singleton]
    · intro acc' rank' hout
      rw [Option.some.injEq, Prod.mk.injEq] at hout
      obtain ⟨rfl, rfl⟩ := hout
      simp only [getHeroDailyRank, get_insert, if_pos]

/-- a score that is written into an entry without a sort leaves the wrong rank in the out parameter -/
theorem not_rankInv_low_held (h : RankInv s) (hheld : acc ∈ s.manager.heroesDailyRank.map DailyGameRankTg.acc)
    (l : List DailyGameRankTg) :
    ¬ RankInv ⟨{ s.manager with heroesDailyRank := l }, some (acc, s.manager.dailyMaxRankSize + 1)⟩ := by
  intro h'
  have hout := h'.out acc _ rfl
  cases hentry : entryOf s.manager.heroesDailyRank acc with
  | none => exact entryOf_eq_none.1 hentry hheld
  | some entry =>
    have hrank : getHeroDailyRank s.manager acc = entry.rank := by simp [getHeroDailyRank, h.map, hentry]
    have hle := h.rank_le (List.mem_of_find?_eq_some hentry)
    have hbound := h.bound
    have hsame : getHeroDailyRank { s.manager with heroesDailyRank := l } acc = getHeroDailyRank s.manager acc := rfl
    rw [hsame, hrank] at hout
    omega

/-- a call that changes nothing answers what `getHeroDailyRank` does for an account without an entry -/
theorem rankInv_full (h : RankInv s) (hnew : acc ∉ s.manager.heroesDailyRank.map DailyGameRankTg.acc) :
    RankInv ⟨s.manager, some (acc, s.manager.dailyMaxRankSize + 1)⟩ := by
  refine ⟨h.sorted, h.ranks, h.accounts, h.map, h.size, h.bound, ?_⟩
  intro acc' rank' hout
  rw [Option.some.injEq, Prod.mk.injEq] at hout
  obtain ⟨rfl, rfl⟩ := hout
  simp [getHeroDailyRank, h.map, entryOf_eq_none.2 hnew]

theorem rankInv_clear (s : St) : RankInv (step s .clearRankList) :=
  ⟨List.Pairwise.nil, rfl, List.nodup_nil, fun _ => rfl, rfl, Nat.zero_le _, fun _ _ hout => by cases hout⟩

/-- one call keeps the invariant exactly when it is safe -/
theorem safe_iff (h : RankInv s) (o : Op) : Safe s o ↔ RankInv (step s o) := by
  cases o with
  | clearRankList => exact iff_of_true trivial (rankInv_clear s)
  | updateHeroDailyRank serverTime acc name score =>
    by_cases hscore : s.manager.minDailyScore < score <;>
      by_cases hheld : acc ∈ s.manager.heroesDailyRank.map DailyGameRankTg.acc
    · have hacc := rewriteEntry_acc acc name score s.manager.heroesDailyRank
      simp only [Safe, if_pos hscore, hheld, true_or, step, update_held serverTime name hscore hheld]
      have hranked := rankInv_ranked s.manager s.manager.minDailyScore (s.manager.dailyMaxRankSize + 1)
        (by rw [hacc]; exact h.accounts) (by rw [hacc]; exact hheld)
      rw [rewriteEntry_length] at hranked
      exact iff_of_true trivial (hranked.2 h.bound)
    · simp only [Safe, if_pos hscore, hheld, false_or, step, update_new serverTime name hscore hheld]
      rw [rankInv_ranked]
      · simp
      · rw [List.map_append, List.nodup_append]
        refine ⟨h.accounts, by simp, ?_⟩
        intro a ha b hb heq
        obtain rfl : b = acc := by simpa [newEntry] using hb
        exact hheld (heq ▸ ha)
      · simp [newEntry]
    · simp only [Safe, if_neg hscore, hheld, not_true, false_and, step,
        update_low_held serverTime name (not_lt.1 hscore) hheld]
      exact iff_of_false not_false (not_rankInv_low_held h hheld _)
    · simp only [Safe, if_neg hscore, hheld, not_false_iff, true_and]
      by_cases hroom : s.manager.heroesDailyRank.length < s.manager.dailyMaxRankSize
      · have hsize : s.manager.heroesRank.size < s.manager.dailyMaxRankSize := by rw [h.size]; exact hroom
        simp only [step, update_low_new serverTime name (not_lt.1 hscore) hheld hsize]
        rw [rankInv_append serverTime name h hheld hroom]
        simp only [not_le.2 hroom, false_or, notAfter_iff, newEntry]
      · have hsize : s.manager.dailyMaxRankSize ≤ s.manager.heroesRank.size := by rw [h.size]; exact not_lt.1 hroom
        simp only [step, update_full serverTime name (not_lt.1 hscore) hheld hsize]
        exact iff_of_true (Or.inl (not_lt.1 hroom)) (rankInv_full h hheld)

theorem rankInv_start (max : ℕ) (min : ℤ) : RankInv (start max min) :=
  ⟨List.Pairwise.nil, rfl, List.nodup_nil, fun _ => rfl, rfl, Nat.zero_le _, fun _ _ hout => by cases hout⟩

/-- **The rank list.** From an empty list, with any maximum and any cached minimum, the invariant holds in every state
of a run if and only if every call of the run is safe. -/
theorem rankInv_iff (max : ℕ) (min : ℤ) (ops : List Op) :
    Along step Safe (start max min) ops ↔ ∀ pre, pre <+: ops → RankInv (run step (start max min) pre) :=
  along_iff (fun _ o _ h => safe_iff h o) (rankInv_start max min)

/-- Three games at one time: the first account falls below the second, and the list keeps it in front. -/
theorem lowered_breaks : ¬ ∀ (max : ℕ) (min : ℤ) (ops : List Op), RankInv (run step (start max min) ops) := by
  intro h
  have hsorted := (h 10 0 [.updateHeroDailyRank 100 1 "a" 10, .updateHeroDailyRank 100 2 "b" 5,
    .updateHeroDailyRank 100 1 "a" 3]).sorted
  revert hsorted
  decide

end DreamHeroes.Rank

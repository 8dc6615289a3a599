/-
The loop of `RankManager::removeHero`, which erases an entry, numbers the list anew and rebuilds the map.

- `Removed`: what the call is for. The list is the old one without the account, numbered from 1, and the map holds the
  rank of each entry that is left and nothing else.
- `removeHero_none_iff`: the loop steps over the end of the list exactly when the last entry is the one to remove.
- `removeHero_absent`: without an entry to remove the list is numbered, and the map is one ahead of it.
- `removeHero_iff`: only on an empty list does the call do what it is for. The map holds the first account with the rank
  behind its own, or with a rank although it has been removed.
-/
import Mathlib.Tactic
import DreamHeroes.Rank.RankManager

namespace DreamHeroes.Rank

open DreamHeroes.Lib

structure Removed (m : RankManager) (acc : ℕ) (m' : RankManager) : Prop where
  list : m'.heroesDailyRank = numberFrom 1 (m.heroesDailyRank.filter fun entry => entry.acc ≠ acc)
  ranks : ∀ a, m'.heroesRank[a]? = (entryOf m'.heroesDailyRank a).map DailyGameRankTg.rank

variable {acc a : ℕ} {l l' : List DailyGameRankTg} {tempRank : ℤ} {heroesRank heroesRank' : Std.TreeMap ℕ ℤ}

/-! ## The loop -/

theorem removeLoop_erase (entry next : DailyGameRankTg) (h : entry.acc = acc) :
    removeLoop acc (entry :: next :: l) tempRank heroesRank =
      (removeLoop acc l tempRank (heroesRank.insert entry.acc tempRank)).map fun r => (next :: r.1, r.2) := by
  rw [removeLoop, if_pos h]

theorem removeLoop_keep (entry : DailyGameRankTg) (h : entry.acc ≠ acc) :
    removeLoop acc (entry :: l) tempRank heroesRank =
      (removeLoop acc l (tempRank + 1)
        ((heroesRank.insert entry.acc tempRank).insert entry.acc (tempRank + 1))).map
          fun r => ({ entry with rank := tempRank } :: r.1, r.2) := by
  rw [removeLoop.eq_def]
  exact if_neg h

/-- no entry to remove: the ranks of the list, and the map one ahead of them -/
theorem removeLoop_absent (h : acc ∉ l.map DailyGameRankTg.acc) :
    removeLoop acc l tempRank heroesRank =
      some (numberFrom tempRank l,
        (numberFrom tempRank l).foldl (fun m entry => (m.insert entry.acc entry.rank).insert entry.acc (entry.rank + 1))
          heroesRank) := by
  induction l generalizing tempRank heroesRank with
  | nil => rfl
  | cons entry l ih =>
    rw [List.map_cons, List.mem_cons, not_or] at h
    rw [removeLoop_keep entry (Ne.symm h.1), ih h.2]
    rfl

/-- the accounts that are left stand in their order -/
theorem removeLoop_sublist (hrun : removeLoop acc l tempRank heroesRank = some (l', heroesRank')) :
    (l'.map DailyGameRankTg.acc).Sublist (l.map DailyGameRankTg.acc) := by
  fun_induction removeLoop acc l tempRank heroesRank generalizing l' with
  | case1 tempRank heroesRank =>
    obtain ⟨rfl, -⟩ := Prod.mk.inj (Option.some.inj hrun)
    exact List.Sublist.refl _
  | case2 => cases hrun
  | case3 =>
    rename_i ih
    obtain ⟨⟨rest, _⟩, hrest, heq⟩ := Option.map_eq_some_iff.1 hrun
    obtain ⟨rfl, rfl⟩ := Prod.mk.inj heq
    exact ((ih hrest).cons_cons _).cons _
  | case4 =>
    rename_i ih
    obtain ⟨⟨rest, _⟩, hrest, heq⟩ := Option.map_eq_some_iff.1 hrun
    obtain ⟨rfl, rfl⟩ := Prod.mk.inj heq
    exact (ih hrest).cons_cons _

/-- no account comes in -/
theorem removeLoop_accounts (hrun : removeLoop acc l tempRank heroesRank = some (l', heroesRank'))
    (ha : a ∉ l.map DailyGameRankTg.acc) : a ∉ l'.map DailyGameRankTg.acc :=
  fun hmem => ha ((removeLoop_sublist hrun).subset hmem)

/-- what the map says of an account that no entry has is not touched -/
theorem removeLoop_get (hrun : removeLoop acc l tempRank heroesRank = some (l', heroesRank'))
    (ha : a ∉ l.map DailyGameRankTg.acc) : heroesRank'[a]? = heroesRank[a]? := by
  fun_induction removeLoop acc l tempRank heroesRank generalizing l' with
  | case1 tempRank heroesRank =>
    obtain ⟨-, rfl⟩ := Prod.mk.inj (Option.some.inj hrun)
    rfl
  | case2 => cases hrun
  | case3 =>
    rename_i ih
    obtain ⟨⟨rest, _⟩, hrest, heq⟩ := Option.map_eq_some_iff.1 hrun
    obtain ⟨rfl, rfl⟩ := Prod.mk.inj heq
    simp only [List.map_cons, List.mem_cons, not_or] at ha
    rw [ih hrest ha.2.2, get_insert, if_neg ha.1]
  | case4 =>
    rename_i ih
    obtain ⟨⟨rest, _⟩, hrest, heq⟩ := Option.map_eq_some_iff.1 hrun
    obtain ⟨rfl, rfl⟩ := Prod.mk.inj heq
    rw [List.map_cons, List.mem_cons, not_or] at ha
    rw [ih hrest ha.2, get_insert, if_neg ha.1, get_insert, if_neg ha.1]

/-! ## The call -/

variable {m : RankManager}

/-- the loop steps over the end of the list exactly when the last entry is erased -/
theorem removeHero_none_iff (hnodup : (m.heroesDailyRank.map DailyGameRankTg.acc).Nodup) (acc : ℕ) :
    removeHero m acc = none ↔ ∃ entry, m.heroesDailyRank.getLast? = some entry ∧ entry.acc = acc := by
  rw [removeHero, Option.map_eq_none_iff]
  generalize m.heroesDailyRank = l at hnodup
  generalize (1 : ℤ) = tempRank
  generalize ({} : Std.TreeMap ℕ ℤ) = heroesRank
  induction l, tempRank, heroesRank using removeLoop.induct acc with
  | case1 tempRank heroesRank => simp [removeLoop]
  | case2 entry tempRank heroesRank h => simp [removeLoop, h]
  | case3 entry tempRank heroesRank m h next l ih =>
    -- the account is not in the rest, so the loop goes through and the last entry is another one
    subst h
    have habsent := (List.nodup_cons.1 hnodup).1
    have hrest : entry.acc ∉ l.map DailyGameRankTg.acc := fun hmem => habsent (List.mem_cons_of_mem _ hmem)
    rw [removeLoop_erase entry next rfl, removeLoop_absent hrest]
    simp only [Option.map_some, reduceCtorEq, false_iff, not_exists, not_and]
    intro last hlast heq
    rw [List.getLast?_cons_cons] at hlast
    exact habsent (List.mem_map.2 ⟨last, List.mem_of_getLast? hlast, heq⟩)
  | case4 entry l tempRank heroesRank m h m2 ih =>
    rw [removeLoop_keep entry h, Option.map_eq_none_iff, ih (List.nodup_cons.1 hnodup).2]
    cases l with
    | nil => simp [h]
    | cons next l => rw [List.getLast?_cons_cons]

theorem removeHero_sublist {m' : RankManager} (hrun : removeHero m acc = some m') :
    (m'.heroesDailyRank.map DailyGameRankTg.acc).Sublist (m.heroesDailyRank.map DailyGameRankTg.acc) := by
  obtain ⟨⟨l', _⟩, hloop, rfl⟩ := Option.map_eq_some_iff.1 hrun
  exact removeLoop_sublist hloop

/-- no entry to remove: every account is in the map with the rank behind its own -/
theorem removeHero_absent (hnodup : (m.heroesDailyRank.map DailyGameRankTg.acc).Nodup)
    (habsent : acc ∉ m.heroesDailyRank.map DailyGameRankTg.acc) :
    ∃ m', removeHero m acc = some m' ∧ m'.heroesDailyRank = numberFrom 1 m.heroesDailyRank ∧
      ∀ a, m'.heroesRank[a]? = (entryOf m'.heroesDailyRank a).map fun entry : DailyGameRankTg => entry.rank + 1 := by
  have hfold : ∀ (l : List DailyGameRankTg) (ranks : Std.TreeMap ℕ ℤ), (l.map DailyGameRankTg.acc).Nodup →
      ∀ a, (l.foldl (fun m entry => (m.insert entry.acc entry.rank).insert entry.acc (entry.rank + 1)) ranks)[a]? =
        ((entryOf l a).map fun entry : DailyGameRankTg => entry.rank + 1).or ranks[a]? := by
    intro l
    induction l with
    | nil => intro ranks _ a; rfl
    | cons entry l ih =>
      intro ranks hl a
      rw [List.map_cons, List.nodup_cons] at hl
      rw [List.foldl_cons, ih _ hl.2, get_insert, get_insert]
      by_cases ha : a = entry.acc
      · subst ha
        simp [entryOf_eq_none.2 hl.1, entryOf_cons_self]
      · simp [entryOf_cons_ne (Ne.symm ha), ha]
  rw [removeHero, removeLoop_absent habsent]
  refine ⟨_, rfl, rfl, ?_⟩
  intro a
  rw [hfold _ _ (by rwa [numberFrom_acc])]
  simp

/-- **Removing a hero.** On a list of different accounts, the call removes the account, numbers the list and leaves the
map of the ranks exactly when the list is empty. -/
theorem removeHero_iff (m : RankManager) (acc : ℕ) (hnodup : (m.heroesDailyRank.map DailyGameRankTg.acc).Nodup) :
    (∃ m', removeHero m acc = some m' ∧ Removed m acc m') ↔ m.heroesDailyRank = [] := by
  constructor
  · rintro ⟨m', hrun, hremoved⟩
    cases hl : m.heroesDailyRank with
    | nil => rfl
    | cons entry l =>
      exfalso
      rw [hl, List.map_cons, List.nodup_cons] at hnodup
      rw [removeHero, hl, Option.map_eq_some_iff] at hrun
      obtain ⟨⟨l', ranks⟩, hloop, rfl⟩ := hrun
      have hranks := hremoved.ranks entry.acc
      by_cases hacc : entry.acc = acc
      · -- the map keeps the account
        cases l with
        | nil =>
          rw [removeLoop, if_pos hacc] at hloop
          cases hloop
        | cons next l =>
          rw [removeLoop_erase entry next hacc, Option.map_eq_some_iff] at hloop
          obtain ⟨⟨rest, _⟩, hrest, heq⟩ := hloop
          obtain ⟨rfl, rfl⟩ := Prod.mk.inj heq
          simp only [List.map_cons, List.mem_cons, not_or] at hnodup
          have hnone : entryOf (next :: rest) entry.acc = none := by
            rw [entryOf_eq_none, List.map_cons, List.mem_cons, not_or]
            exact ⟨hnodup.1.1, removeLoop_accounts hrest hnodup.1.2⟩
          rw [removeLoop_get hrest hnodup.1.2, get_insert, if_pos rfl, hnone] at hranks
          cases hranks
      · -- the entry has the rank 1, the map has 2
        rw [removeLoop_keep entry hacc, Option.map_eq_some_iff] at hloop
        obtain ⟨⟨rest, _⟩, hrest, heq⟩ := hloop
        obtain ⟨rfl, rfl⟩ := Prod.mk.inj heq
        have hfirst := entryOf_cons_self { entry with rank := 1 } rest
        rw [removeLoop_get hrest hnodup.1, get_insert, if_pos rfl, hfirst] at hranks
        cases hranks
  · intro hnil
    refine ⟨{ m with heroesDailyRank := [], heroesRank := {} }, ?_, ?_, ?_⟩
    · rw [removeHero, hnil]
      rfl
    · rw [hnil]
      rfl
    · intro a
      simp [entryOf]

def topEntry : DailyGameRankTg where
  name := "Ann"
  acc := 7
  score := 12
  rank := 1
  time := 1767312000

def twoRanks : RankManager where
  heroesDailyRank := [topEntry, { topEntry with name := "Bob", acc := 8, rank := 2 }]
  dailyMaxRankSize := 100
  minDailyScore := 0

/-- an empty list, and a list of two accounts from which the first or a third is to be removed -/
theorem removeHero_iff_empty :
    (∃ m', removeHero { dailyMaxRankSize := 100, minDailyScore := 0 } 7 = some m' ∧
      Removed { dailyMaxRankSize := 100, minDailyScore := 0 } 7 m') ∧
    (¬∃ m', removeHero twoRanks 7 = some m' ∧ Removed twoRanks 7 m') ∧
    ¬∃ m', removeHero twoRanks 9 = some m' ∧ Removed twoRanks 9 m' :=
  ⟨(removeHero_iff { dailyMaxRankSize := 100, minDailyScore := 0 } 7 (by decide)).2 rfl,
    fun h => absurd ((removeHero_iff twoRanks 7 (by decide)).1 h) (List.cons_ne_nil _ _),
    fun h => absurd ((removeHero_iff twoRanks 9 (by decide)).1 h) (List.cons_ne_nil _ _)⟩

/-- one entry, and another account is removed: the map says the rank 2 -/
theorem not_removed_other :
    ¬∃ m', removeHero { heroesDailyRank := [topEntry], dailyMaxRankSize := 100, minDailyScore := 0 } 8 = some m' ∧
      Removed { heroesDailyRank := [topEntry], dailyMaxRankSize := 100, minDailyScore := 0 } 8 m' := by
  rintro ⟨m', hrun, hremoved⟩
  obtain rfl := Option.some.inj hrun
  have hranks := hremoved.ranks 7
  simp [entryOf, topEntry] at hranks

end DreamHeroes.Rank

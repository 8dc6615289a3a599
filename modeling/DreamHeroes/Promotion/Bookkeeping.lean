/-
The accumulators in every state that is reached.

`bookkeeping_iff`: after every run `getCheapGold` is the sum over the executing hero promotions. The two ratings are the
sums over the executing promotions of their kinds exactly when what the memory held makes up for the promotions that are
booked under another kind: the inner `switch` of `excute(bool)` books all of them as recharges of gold, and the
constructor of the manager sets only one of the three ratings. `jewel_booked_as_gold` is a run in which the memory held
zeros, and a promotion for jewels raises the rating for gold.
-/
import Mathlib.Tactic
import DreamHeroes.Promotion.Timers

namespace DreamHeroes.Promotion

open DreamHeroes.Lib DreamHeroes.Common

variable {cfg : Config} {gold jewel : ℤ}

/-- the rating of a recharge promotion that is of none of the kinds -/
def otherRating (cfg : Config) (kinds : List ℤ) (i : ℕ) : ℤ :=
  match (cfg.config i).promotion with
  | .recharge rechargeRatting rechagreType => if rechagreType ∈ kinds then 0 else rechargeRatting
  | _ => 0

theorem anyRating_eq (kinds : List ℤ) (i : ℕ) : anyRating cfg i = rating cfg kinds i + otherRating cfg kinds i := by
  unfold anyRating rating otherRating
  cases (cfg.config i).promotion with
  | hero cheapHero => rfl
  | recharge ratting kind =>
    dsimp only
    split_ifs
    · rw [add_zero]
    · rw [zero_add]
  | openHideHero ids => rfl

theorem total_anyRating (w : World) (kinds : List ℤ) :
    total cfg w (anyRating cfg) = total cfg w (rating cfg kinds) + total cfg w (otherRating cfg kinds) := by
  rw [total, total, total, ← Finset.sum_add_distrib]
  apply Finset.sum_congr rfl
  intro i _
  split_ifs
  · exact anyRating_eq kinds i
  · rfl

theorem getGoldRechargeRatting_booked {w : World} (hb : Booked cfg gold jewel w) :
    getGoldRechargeRatting w = total cfg w (rating cfg [rechargeAll, rechargeGold]) +
      (gold + total cfg w (otherRating cfg [rechargeAll, rechargeGold])) := by
  rw [getGoldRechargeRatting, hb.all, hb.gold, total_anyRating w [rechargeAll, rechargeGold]]
  ring

theorem getJewelRechargeRatting_booked {w : World} (hb : Booked cfg gold jewel w) :
    getJewelRechargeRatting w = jewel := by
  rw [getJewelRechargeRatting, hb.all, hb.jewel, zero_add]

/-- **The accumulators.** `gold` and `jewel` are what the memory of the two ratings held before the constructor. -/
theorem bookkeeping_iff (cfg : Config) (time : ℕ) (gold jewel : ℤ) (shopOpen : Std.TreeMap ℤ Bool) (ops : List Op) :
    let w := (run (step cfg) (start cfg time gold jewel shopOpen) ops).world
    (∀ grid, getCheapGold w grid = total cfg w (cheap cfg grid)) ∧
      ((getGoldRechargeRatting w = total cfg w (rating cfg [rechargeAll, rechargeGold]) ∧
          getJewelRechargeRatting w = total cfg w (rating cfg [rechargeAll, rechargeJewel])) ↔
        (gold + total cfg w (otherRating cfg [rechargeAll, rechargeGold]) = 0 ∧
          jewel = total cfg w (rating cfg [rechargeAll, rechargeJewel]))) := by
  intro w
  have hb : Booked cfg gold jewel w := (sound_reached cfg time gold jewel shopOpen ops).booked
  refine ⟨hb.cheap, ?_⟩
  rw [getGoldRechargeRatting_booked hb, getJewelRechargeRatting_booked hb, add_eq_left]

/-- one promotion, for jewels and for every day of the week -/
def jewelWeek : Config where
  size := 1
  config _ :=
    { time := { type := .week, showTime := 0, beginTime := 0, endTime := 6 }, promotion := .recharge 20 rechargeJewel }

theorem jewel_booked_as_gold :
    let w := (run (step jewelWeek) (start jewelWeek 0 0 0 {}) []).world
    w.type 0 = .excute ∧ getGoldRechargeRatting w = 20 ∧
      total jewelWeek w (rating jewelWeek [rechargeAll, rechargeGold]) = 0 ∧
      getJewelRechargeRatting w = 0 ∧ total jewelWeek w (rating jewelWeek [rechargeAll, rechargeJewel]) = 20 := by
  decide

end DreamHeroes.Promotion

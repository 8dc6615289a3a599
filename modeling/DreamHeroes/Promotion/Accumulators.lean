/-
The accumulators of the shop promotions: `_cheap_gold` and the three ratings.

- `total`: a sum over the promotions that execute. `cheap`, `rating`, `anyRating`: the terms of the sums.
- `excuteSwitch_cheap`, `excuteSwitch_ratings`: what `excute(bool)` adds to the accumulators. The inner `switch` is on
  the kind of the promotion, which is `RechargePromotionType`, so every recharge promotion is booked as one of `GOLD`.
- `Booked`: the accumulators are sums over the executing promotions. A promotion that begins (`Booked.excuteBool`), one
  that ends (`Booked.exited`) and one that does neither (`Booked.setType`) leave them so.
-/
import Mathlib.Tactic
import DreamHeroes.Promotion.ShopSales

namespace DreamHeroes.Promotion

open DreamHeroes.Lib DreamHeroes.Common

variable (cfg : Config)

/-! ## Sums -/

/-- the sum over the promotions that execute -/
def total (w : World) (f : ℕ → ℤ) : ℤ := ∑ i ∈ Finset.range cfg.size, if w.type i = .excute then f i else 0

theorem total_setType {w : World} {i : ℕ} (hi : i < cfg.size) (type : ShopSalesPromotionType) (f : ℕ → ℤ) :
    total cfg (w.setType i type) f =
      total cfg w f + (if type = .excute then f i else 0) - if w.type i = .excute then f i else 0 := by
  have hmem : i ∈ Finset.range cfg.size := Finset.mem_range.2 hi
  rw [total, total, ← Finset.add_sum_erase _ _ hmem, ← Finset.add_sum_erase _ _ hmem]
  have hrest : ∀ j ∈ (Finset.range cfg.size).erase i,
      (if (w.setType i type).type j = .excute then f j else 0) = if w.type j = .excute then f j else 0 := by
    intro j hj
    rw [setType_ne w (Finset.ne_of_mem_erase hj)]
  rw [Finset.sum_congr rfl hrest, setType_self]
  ring

theorem total_congr {w w' : World} (htype : w'.type = w.type) (f : ℕ → ℤ) : total cfg w' f = total cfg w f := by
  rw [total, total, htype]

/-- what a hero promotion takes from the price of a grid -/
def cheap (grid : ℤ) (i : ℕ) : ℤ :=
  match (cfg.config i).promotion with
  | .hero cheapHero => cheapHero.getD grid 0
  | _ => 0

/-- the rating of a recharge promotion of one of the kinds -/
def rating (kinds : List ℤ) (i : ℕ) : ℤ :=
  match (cfg.config i).promotion with
  | .recharge rechargeRatting rechagreType => if rechagreType ∈ kinds then rechargeRatting else 0
  | _ => 0

/-- the rating of a recharge promotion, whatever its kind -/
def anyRating (i : ℕ) : ℤ :=
  match (cfg.config i).promotion with
  | .recharge rechargeRatting _ => rechargeRatting
  | _ => 0

/-! ## The accumulators -/

/-- a promotion is booked, or taken back -/
def signed (b : Bool) (x : ℤ) : ℤ := if b then x else -x

@[simp] theorem getCheapGold_modifyCheapGold (w : World) (grid x grid' : ℤ) :
    getCheapGold (modifyCheapGold w grid x) grid' = getCheapGold w grid' + if grid' = grid then x else 0 := by
  simp only [getCheapGold, modifyCheapGold, Std.TreeMap.getD_insert, Std.compare_eq_iff_eq, @eq_comm _ grid]
  split_ifs with h
  · rw [h]
  · rw [add_zero]

theorem getCheapGold_foldl (b : Bool) {l : List (ℤ × ℤ)} (hl : (l.map Prod.fst).Nodup) (w : World) (grid : ℤ) :
    getCheapGold (l.foldl (fun w entry => modifyCheapGold w entry.1 (if b then entry.2 else -entry.2)) w) grid =
      getCheapGold w grid + signed b ((l.lookup grid).getD 0) := by
  induction l generalizing w with
  | nil => cases b <;> simp [signed]
  | cons entry l ih =>
    obtain ⟨hnew, hl⟩ := List.nodup_cons.1 hl
    rw [List.foldl_cons, ih hl, getCheapGold_modifyCheapGold, List.lookup_cons]
    by_cases hgrid : grid = entry.1
    · subst hgrid
      rw [lookup_eq_none hnew]
      cases b <;> simp [signed]
    · have hbeq : (grid == entry.1) = false := beq_eq_false_iff_ne.2 hgrid
      rw [if_neg hgrid, hbeq, add_zero]

/-- nothing but the accumulators and the flags of the shop -/
structure SameBut (w w' : World) : Prop where
  type : w'.type = w.type
  list : w'.shopSalesPromotions = w.shopSalesPromotions
  clock : w'.clock = w.clock
  lastDayPass : w'.lastDayPass = w.lastDayPass
  excuted : w'.excuted = w.excuted

theorem SameBut.foldl {α : Type} {f : World → α → World} (hf : ∀ w a, SameBut w (f w a)) (l : List α) (w : World) :
    SameBut w (l.foldl f w) := by
  induction l generalizing w with
  | nil => exact ⟨rfl, rfl, rfl, rfl, rfl⟩
  | cons a l ih =>
    have h1 := hf w a
    have h2 := ih (f w a)
    exact ⟨h2.type.trans h1.type, h2.list.trans h1.list, h2.clock.trans h1.clock, h2.lastDayPass.trans h1.lastDayPass,
      h2.excuted.trans h1.excuted⟩

theorem excuteSwitch_sameBut (promotion : BaseShopPromotion) (b : Bool) (w : World) :
    SameBut w (excuteSwitch promotion b w) := by
  cases promotion with
  | hero cheapHero =>
    apply SameBut.foldl
    intro w entry
    exact ⟨rfl, rfl, rfl, rfl, rfl⟩
  | recharge ratting kind => exact ⟨rfl, rfl, rfl, rfl, rfl⟩
  | openHideHero ids =>
    apply SameBut.foldl
    intro w gridId
    exact ⟨rfl, rfl, rfl, rfl, rfl⟩

/-- the ratings beside the one that is booked -/
structure SameRatings (w w' : World) : Prop where
  all : w'.rechargeRatting = w.rechargeRatting
  gold : w'.rechargeGoldRatting = w.rechargeGoldRatting
  jewel : w'.rechargeJewelRatting = w.rechargeJewelRatting

theorem SameRatings.foldl {α : Type} {f : World → α → World} (hf : ∀ w a, SameRatings w (f w a)) (l : List α)
    (w : World) : SameRatings w (l.foldl f w) := by
  induction l generalizing w with
  | nil => exact ⟨rfl, rfl, rfl⟩
  | cons a l ih =>
    have h1 := hf w a
    have h2 := ih (f w a)
    exact ⟨h2.all.trans h1.all, h2.gold.trans h1.gold, h2.jewel.trans h1.jewel⟩

variable (i : ℕ)

theorem excuteSwitch_cheap (b : Bool) (w : World) (grid : ℤ) :
    getCheapGold (excuteSwitch (cfg.config i).promotion b w) grid = getCheapGold w grid +
    signed b (cheap cfg grid i) := by
  rw [cheap]
  cases (cfg.config i).promotion with
  | hero cheapHero =>
    have hlookup : cheapHero.toList.lookup grid = cheapHero[grid]? := lookup_toList cheapHero grid
    rw [excuteSwitch, getCheapGold_foldl b (toList_keys_nodup cheapHero), hlookup, ← Std.TreeMap.getD_eq_getD_getElem?]
  | recharge ratting kind => cases b <;> simp [excuteSwitch, getCheapGold, signed, BaseShopPromotion.promotionType,
      rechargeAll, rechargeGold]
  | openHideHero ids =>
    have hsame : getCheapGold (ids.foldl (fun w gridId => setHeroShopConfig w gridId b) w) grid =
      getCheapGold w grid := by
      induction ids generalizing w with
      | nil => rfl
      | cons id ids ih => exact ih _
    rw [excuteSwitch, hsame]
    cases b <;> simp [signed]

/-- every recharge promotion is booked as one of `GOLD` -/
theorem excuteSwitch_ratings (b : Bool) (w : World) :
    (excuteSwitch (cfg.config i).promotion b w).rechargeRatting = w.rechargeRatting ∧
      (excuteSwitch (cfg.config i).promotion b w).rechargeGoldRatting = w.rechargeGoldRatting +
      signed b (anyRating cfg i) ∧
      (excuteSwitch (cfg.config i).promotion b w).rechargeJewelRatting = w.rechargeJewelRatting := by
  rw [anyRating]
  cases (cfg.config i).promotion with
  | hero cheapHero =>
    have hsame : SameRatings w (excuteSwitch (.hero cheapHero) b w) := by
      apply SameRatings.foldl
      intro w entry
      exact ⟨rfl, rfl, rfl⟩
    refine ⟨hsame.all, hsame.gold.trans ?_, hsame.jewel⟩
    cases b <;> simp [signed]
  | recharge ratting kind =>
    refine ⟨rfl, ?_, rfl⟩
    cases b <;> simp [excuteSwitch, signed, BaseShopPromotion.promotionType, rechargeAll, rechargeGold]
  | openHideHero ids =>
    have hsame : SameRatings w (excuteSwitch (.openHideHero ids) b w) := by
      apply SameRatings.foldl
      intro w gridId
      exact ⟨rfl, rfl, rfl⟩
    refine ⟨hsame.all, hsame.gold.trans ?_, hsame.jewel⟩
    cases b <;> simp [signed]

/-- the accumulators are sums over the executing promotions; `gold` and `jewel` are what the memory held -/
structure Booked (gold jewel : ℤ) (w : World) : Prop where
  cheap : ∀ grid, getCheapGold w grid = total cfg w (cheap cfg grid)
  all : w.rechargeRatting = 0
  gold : w.rechargeGoldRatting = gold + total cfg w (anyRating cfg)
  jewel : w.rechargeJewelRatting = jewel

variable {cfg} {i} {gold jewel : ℤ} {w : World}

/-- a world whose accumulators have changed by what the sums have changed by -/
theorem Booked.change (hb : Booked cfg gold jewel w) {w' : World} (b : Bool)
    (htotal : ∀ f, total cfg w' f = total cfg w f + signed b (f i))
    (hcheap : ∀ grid, getCheapGold w' grid = getCheapGold w grid + signed b (Promotion.cheap cfg grid i))
    (hratings : w'.rechargeRatting = w.rechargeRatting ∧
      w'.rechargeGoldRatting = w.rechargeGoldRatting + signed b (anyRating cfg i) ∧
      w'.rechargeJewelRatting = w.rechargeJewelRatting) : Booked cfg gold jewel w' := by
  constructor
  case cheap =>
    intro grid
    rw [hcheap, hb.cheap, htotal]
  case all => rw [hratings.1, hb.all]
  case gold => rw [hratings.2.1, hb.gold, htotal, add_assoc]
  case jewel => rw [hratings.2.2, hb.jewel]

/-- a promotion that does not execute, and does not begin to -/
theorem Booked.setType (hb : Booked cfg gold jewel w) (hi : i < cfg.size) (hold : w.type i ≠ .excute)
    {type : ShopSalesPromotionType} (hnew : type ≠ .excute) : Booked cfg gold jewel (w.setType i type) := by
  have htotal (f : ℕ → ℤ) : total cfg (w.setType i type) f = total cfg w f := by
    rw [total_setType cfg hi, if_neg hnew, if_neg hold, add_zero, sub_zero]
  constructor
  case cheap =>
    intro grid
    rw [htotal]
    exact hb.cheap grid
  case all => exact hb.all
  case gold =>
    rw [htotal]
    exact hb.gold
  case jewel => exact hb.jewel

theorem Booked.excuteBool (hb : Booked cfg gold jewel w) (hi : i < cfg.size) (hold : w.type i ≠ .excute) :
    Booked cfg gold jewel (excuteBool cfg i true w) := by
  refine hb.change (i := i) true ?_ (excuteSwitch_cheap cfg i true _) (excuteSwitch_ratings cfg i true _)
  intro f
  rw [Promotion.excuteBool, total_congr cfg (excuteSwitch_sameBut _ _ _).type, total_setType cfg hi, if_pos rfl,
    if_neg hold, sub_zero]
  rfl

/-- the world that `exit` leaves -/
def exited (cfg : Config) (i : ℕ) (w : World) : World :=
  (Promotion.excuteBool cfg i false (w.setType i .wait)).setType i .destroy

theorem exited_type : (exited cfg i w).type = Function.update w.type i .destroy := by
  have hswitch := (excuteSwitch_sameBut (cfg.config i).promotion false ((w.setType i .wait).setType i .excute)).type
  rw [exited, World.setType, Promotion.excuteBool, hswitch]
  simp [World.setType]

theorem Booked.exited (hb : Booked cfg gold jewel w) (hi : i < cfg.size) (hold : w.type i = .excute) :
    Booked cfg gold jewel (exited cfg i w) := by
  have hcheap := excuteSwitch_cheap cfg i false ((w.setType i .wait).setType i .excute)
  have hratings := excuteSwitch_ratings cfg i false ((w.setType i .wait).setType i .excute)
  refine hb.change (i := i) false ?_ hcheap hratings
  intro f
  have htotal : total cfg (Promotion.exited cfg i w) f = total cfg (w.setType i .destroy) f :=
    total_congr cfg exited_type f
  rw [htotal, total_setType cfg hi, if_neg (by decide), if_pos hold, add_zero, sub_eq_add_neg]
  rfl

end DreamHeroes.Promotion

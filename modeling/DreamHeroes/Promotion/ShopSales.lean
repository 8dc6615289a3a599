/-
The shop promotions of the game server (`gameserver/ShopSalesPromotionManager.cpp`), and the timers that drive them.

- `TimeShopSalesPromotionConfig`: when a promotion runs, and what it changes. Promotions are numbered in the order of
  the map of the configuration, and a number stands for the object and for its id.
- `excuteSwitch`, `exit`, `excute`, `apply`, `dayPass`: the methods of `TimeShopPromotion`. `DayPass` is called again
  inside `apply` and `excute`; at a promotion that has been applied it is `dayPassApply`, at one that executes
  `dayPassExcute`.
- `dayPassAll`, `updateAll`, `initAll`: the methods of the manager. The constructor sets one of the three ratings;
  `gold` and `jewel` are what the memory of the other two held.
- `Op`, `step`: a round of the event holder, the call of `DayPass` and that of `update`.

Times are seconds, and the clock of the holder milliseconds. `lastDayPass` and `excuted` are not of the source: they say
when something was called. The other timers of the server do nothing to a promotion, and are left out; `behind` are the
places of the list that have one of them behind (`hasNext`).
-/
import Mathlib.Tactic
import DreamHeroes.Lib.LocalTime
import DreamHeroes.Lib.OrdMap
import DreamHeroes.Common.EventHolder

namespace DreamHeroes.Promotion

open DreamHeroes.Lib DreamHeroes.Common

/-! ## Configuration -/

inductive TimeEventType where
  | normal
  | week
  | openServerOffsetTime
deriving DecidableEq, Repr

/-- `TimeNormal`, `TimeWeek` and `TimeOpenServerOffsetTime` -/
structure EventTimeBase where
  type : TimeEventType
  showTime : ℤ
  beginTime : ℤ
  endTime : ℤ
deriving DecidableEq, Repr

inductive BaseShopPromotion where
  | hero (cheapHero : Std.TreeMap ℤ ℤ)
  | recharge (rechargeRatting rechagreType : ℤ)
  | openHideHero (hideGridIds : List ℤ)

/-- `PromotionType_`, as the number it is in a `switch` -/
def BaseShopPromotion.promotionType : BaseShopPromotion → ℤ
  | .hero _ => 0
  | .recharge _ _ => 1
  | .openHideHero _ => 2

/-- the values `ALL`, `GOLD` and `JEWEL` of `RechargeRattingPromotion` -/
def rechargeAll : ℤ := 0

def rechargeGold : ℤ := 1

def rechargeJewel : ℤ := 2

structure TimeShopSalesPromotionConfig where
  time : EventTimeBase
  promotion : BaseShopPromotion

/-- `off` is the offset of the local time of the host, `openTime` the time of `setServerOpenTime` -/
structure Config where
  off : ℤ := 0
  openTime : ℤ := 0
  size : ℕ
  config : ℕ → TimeShopSalesPromotionConfig

def Config.getOpenServerPassedDay (cfg : Config) (curTime : ℤ) : ℤ :=
  let p1 := { localtime cfg.off cfg.openTime with min := 0, sec := 0, hour := 0 }
  (curTime - mktime cfg.off p1).tdiv (24 * 60 * 60)

/-! ## State -/

inductive ShopSalesPromotionType where
  | wait
  | apply
  | excute
  | destroy
deriving DecidableEq, Repr

structure World where
  /-- milliseconds -/
  clock : ℕ
  type : ℕ → ShopSalesPromotionType := fun _ => .wait
  shopSalesPromotions : List ℕ := []
  cheapGold : Std.TreeMap ℤ ℤ := {}
  rechargeRatting : ℤ := 0
  rechargeGoldRatting : ℤ
  rechargeJewelRatting : ℤ
  /-- the `open` of the heroes in the shop -/
  shopOpen : Std.TreeMap ℤ Bool := {}
  /-- the time of the last call of `DayPass`, or of the start -/
  lastDayPass : ℕ
  /-- the calls of `excute` -/
  excuted : List (ℕ × ℕ) := []

inductive CallbackKind where
  | apply
  | excute
  | exit
deriving DecidableEq, Repr

structure Callback where
  kind : CallbackKind
  promotion : ℕ
deriving DecidableEq, Repr

abbrev Holder := Timed World Callback

/-- `EVENT_SHOP_SALES_PROMOTION_APPLY` -/
def eventApply : ℕ := 8

/-- `EVENT_SHOP_SALES_PROMOTION_EXIT` -/
def eventExit : ℕ := 9

def serverTime (w : World) : ℤ := (w.clock / 1000 : ℕ)

/-- the milliseconds of a delay, as the `u32` that `addEvent` takes -/
def armed (delayTime : ℤ) : ℕ := (delayTime * 1000 % 2 ^ 32).toNat

def World.setType (w : World) (i : ℕ) (type : ShopSalesPromotionType) : World :=
  { w with type := Function.update w.type i type }

@[simp] theorem setType_self (w : World) (i : ℕ) (type : ShopSalesPromotionType) :
    (w.setType i type).type i = type := by
  simp [World.setType]

theorem setType_ne (w : World) {i j : ℕ} (h : j ≠ i) (type : ShopSalesPromotionType) :
    (w.setType i type).type j = w.type j := by
  simp [World.setType, h]

/-! ## The accumulators -/

def modifyCheapGold (w : World) (grid cheapGold : ℤ) : World :=
  { w with cheapGold := w.cheapGold.insert grid (w.cheapGold.getD grid 0 + cheapGold) }

def getCheapGold (w : World) (grid : ℤ) : ℤ := w.cheapGold.getD grid 0

def getGoldRechargeRatting (w : World) : ℤ := w.rechargeRatting + w.rechargeGoldRatting

def getJewelRechargeRatting (w : World) : ℤ := w.rechargeRatting + w.rechargeJewelRatting

def setHeroShopConfig (w : World) (gridId : ℤ) (isOpen : Bool) : World :=
  { w with shopOpen := if gridId ∈ w.shopOpen then w.shopOpen.insert gridId isOpen else w.shopOpen }

/-- the `switch` of `excute(bool)` -/
def excuteSwitch (promotion : BaseShopPromotion) (b : Bool) (w : World) : World :=
  match promotion with
  | .hero cheapHero =>
    cheapHero.toList.foldl (fun w entry => modifyCheapGold w entry.1 (if b then entry.2 else -entry.2)) w
  | .recharge rechargeRatting _ =>
    let modify := if b then rechargeRatting else -rechargeRatting
    -- the inner `switch` is on the kind of the promotion again, and not on the kind of the recharge
    if promotion.promotionType = rechargeAll then { w with rechargeRatting := w.rechargeRatting + modify }
    else if promotion.promotionType = rechargeGold then { w with rechargeGoldRatting := w.rechargeGoldRatting + modify }
    else if promotion.promotionType = rechargeJewel then
      { w with rechargeJewelRatting := w.rechargeJewelRatting + modify }
    else w
  | .openHideHero hideGridIds => hideGridIds.foldl (fun w gridId => setHeroShopConfig w gridId b) w

/-! ## One promotion -/

variable (cfg : Config) (i : ℕ)

def mapWorld (s : Holder) (f : World → World) : Holder := { s with world := f s.world }

/-- `excute(bool)` -/
def excuteBool (b : Bool) (w : World) : World := excuteSwitch (cfg.config i).promotion b (w.setType i .excute)

def exit (s : Holder) : Holder :=
  let s := if hasEvent s i eventExit then removeEvents s i eventExit else s
  mapWorld s fun w => (excuteBool cfg i false (w.setType i .wait)).setType i .destroy

/-- the days from `show_time_` on, as the first block of `DayPass` has them for a week -/
def weekShows (time : EventTimeBase) (weekTime : ℤ) : Bool :=
  if time.showTime ≤ time.endTime then weekTime ≥ time.showTime && weekTime ≤ time.endTime
  else weekTime ≤ time.showTime || weekTime ≥ time.endTime

def weekBegins (time : EventTimeBase) (weekTime : ℤ) : Bool :=
  if time.beginTime ≤ time.endTime then weekTime ≥ time.beginTime && weekTime ≤ time.endTime
  else weekTime ≤ time.beginTime || weekTime ≥ time.endTime

def weekEnds (time : EventTimeBase) (weekTime : ℤ) : Bool :=
  if time.beginTime ≤ time.endTime then weekTime < time.beginTime || weekTime > time.endTime
  else weekTime > time.beginTime && weekTime < time.endTime

/-- the third block of `DayPass` -/
def dayPassExcute (s : Holder) : Holder :=
  let curTime := (cfg.config i).time
  if s.world.type i = .excute then
    match curTime.type with
    | .week => if weekEnds curTime (wday cfg.off (serverTime s.world)) then exit cfg i s else s
    | .openServerOffsetTime =>
      let passedDay := cfg.getOpenServerPassedDay (serverTime s.world)
      if passedDay < curTime.beginTime ∨ passedDay > curTime.endTime then exit cfg i s else s
    | .normal => s
  else s

def excute (s : Holder) : Holder :=
  let s := mapWorld s fun w => { excuteBool cfg i true w with excuted := w.excuted ++ [(i, w.clock)] }
  match (cfg.config i).time.type with
  | .normal =>
    let delayTime := (cfg.config i).time.endTime - serverTime s.world
    if delayTime > 0 then addEvent s (some i) ⟨.exit, i⟩ eventExit (armed delayTime) 1 else exit cfg i s
  | .week | .openServerOffsetTime => dayPassExcute cfg i s

/-- the second block of `DayPass`, and the third -/
def dayPassApply (s : Holder) : Holder :=
  let curTime := (cfg.config i).time
  let s :=
    if s.world.type i = .apply then
      match curTime.type with
      | .week => if weekBegins curTime (wday cfg.off (serverTime s.world)) then excute cfg i s else s
      | .openServerOffsetTime =>
        let passedDay := cfg.getOpenServerPassedDay (serverTime s.world)
        if passedDay ≥ curTime.beginTime ∧ passedDay ≤ curTime.endTime then excute cfg i s else s
      | .normal => s
    else s
  dayPassExcute cfg i s

def apply (s : Holder) : Holder :=
  let s := if hasEvent s i eventApply then removeEvents s i eventApply else s
  let s := mapWorld s fun w => w.setType i .apply
  match (cfg.config i).time.type with
  | .normal =>
    let delayTime := (cfg.config i).time.beginTime - serverTime s.world
    if delayTime ≤ 0 then excute cfg i s
    else addEvent s (some i) ⟨.excute, i⟩ eventApply (armed delayTime) 1
  | .week | .openServerOffsetTime => dayPassApply cfg i s

def dayPass (s : Holder) : Holder :=
  let curTime := (cfg.config i).time
  if s.world.type i = .wait then
    match curTime.type with
    | .week =>
      dayPassApply cfg i (if weekShows curTime (wday cfg.off (serverTime s.world)) then apply cfg i s else s)
    | .openServerOffsetTime =>
      let passedDay := cfg.getOpenServerPassedDay (serverTime s.world)
      if curTime.showTime > curTime.endTime then s
      else
        dayPassApply cfg i
          (if passedDay ≥ curTime.showTime ∧ passedDay ≤ curTime.endTime then apply cfg i s else s)
    | .normal => dayPassApply cfg i s
  else dayPassApply cfg i s

/-- `init`, and whether the object is kept -/
def init (s : Holder) : Holder × Bool :=
  let curTime := (cfg.config i).time
  let s := mapWorld s fun w => w.setType i .wait
  match curTime.type with
  | .normal =>
    if curTime.showTime > curTime.endTime then (s, false)
    else
      let delayTime := curTime.showTime - serverTime s.world
      if delayTime ≤ 0 then (apply cfg i s, true)
      else (addEvent s (some i) ⟨.apply, i⟩ eventApply (armed delayTime) 1, true)
  | .week | .openServerOffsetTime => (dayPass cfg i s, true)

/-! ## The manager -/

/-- `ShopSalesPromotionManager::DayPass` -/
def dayPassAll (s : Holder) : Holder :=
  let s := s.world.shopSalesPromotions.foldl (fun s i => dayPass cfg i s) s
  mapWorld s fun w => { w with lastDayPass := w.clock }

/-- `ShopSalesPromotionManager::update` -/
def updateAll (s : Holder) : Holder :=
  mapWorld s fun w => { w with shopSalesPromotions := w.shopSalesPromotions.filter fun i => w.type i ≠ .destroy }

/-- one round of the loop of `ShopSalesPromotionManager::init` -/
def initOne (s : Holder) (i : ℕ) : Holder :=
  let r := init cfg i s
  if r.2 then mapWorld r.1 fun w => { w with shopSalesPromotions := w.shopSalesPromotions ++ [i] } else r.1

def initAll (s : Holder) : Holder := (List.range cfg.size).foldl (initOne cfg) s

/-- the server starts at `start` milliseconds; `shopOpen` are the flags of the shop as they are loaded -/
def start (start : ℕ) (gold jewel : ℤ) (shopOpen : Std.TreeMap ℤ Bool) : Holder :=
  initAll cfg
    { world := { clock := start, rechargeGoldRatting := gold, rechargeJewelRatting := jewel, shopOpen := shopOpen,
                 lastDayPass := start } }

def execute (cb : Callback) : Holder → Holder :=
  match cb.kind with
  | .apply => apply cfg cb.promotion
  | .excute => excute cfg cb.promotion
  | .exit => exit cfg cb.promotion

/-- a round of `ServerFrame::run` without the manager's `update`. A timer arms another one at most, and the chain ends
with `exit`, so three rounds of the loop for each event are enough (`tick_loop`). -/
def tick (s : Holder) (timeSpawn : ℕ) (behind : List ℕ) : Holder :=
  let s := mapWorld s fun w => { w with clock := w.clock + timeSpawn }
  if timeSpawn = 0 then s
  else (updateLoop (execute cfg) (timeSpawn % 2 ^ 32) behind (3 * s.events.length + 1) 0 s).getD s

inductive Op where
  | tick (timeSpawn : ℕ) (behind : List ℕ)
  | dayPass
  | update
deriving DecidableEq, Repr

def step (s : Holder) : Op → Holder
  | .tick timeSpawn behind => tick cfg s timeSpawn behind
  | .dayPass => dayPassAll cfg s
  | .update => updateAll s

end DreamHeroes.Promotion

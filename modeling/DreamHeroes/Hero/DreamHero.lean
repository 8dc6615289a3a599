/-
A hero in the memory of the game server (`gameserver/DreamHero.h`) and what `DreamHero::SaveHero` writes of it.

- `DreamHero`: the fields of the object, `_info` as the message it is.
- `characterRow`: the 37 columns of the REPLACE of `character`, lists and maps as the text the loops of `SaveHero`
  build.
- `dealRows`: the rows of the REPLACE of `deal_wait_to_pay`, one for each deal the hero holds.
- `saveHero`: the statements, in the order they are sent. The loop that is meant to drop the complete deals afterwards
  starts at the end of the map and drops none, so the hero stays as it is.

Times are Unix times; `time` stands for `build_unix_time_to_string`. A statement is modelled by its columns.
-/
import Mathlib.Tactic
import DreamHeroes.Lib.OrdMap

namespace DreamHeroes.Hero

/-! ## State -/

structure MsgTaskInfo where
  taskid : ℤ
  argument1 : ℤ
  usetime : ℤ
deriving DecidableEq, Repr

structure MsgObjConfig where
  id : ℤ
  type : ℤ
deriving DecidableEq, Repr

structure MsgHeroData where
  name : String := "test"
  gold : ℤ := 0
  records : List (ℤ × ℤ) := []
  heroes : List Bool := []
  tasks : List MsgTaskInfo := []
  currentHero : ℤ := 0
  completeTaskCount : ℤ := 0
  newTutorial : ℤ := 0
  jewel : ℤ := 0
  spirit : ℤ := 0
  dayBuySpirit : ℤ := 0
  lotions : List ℤ := []
  dailyGameProgress : ℤ := 0
  dailyGameGold : ℤ := 0
  dailyGameScore : ℤ := 0
  dailyGameHpPct : ℤ := 0
  dailyGameRecordProgress : ℤ := 0
  dailyResetGameCount : ℤ := 0
  dailyTopGrogress : ℤ := 0
  dailyGameAnger : ℤ := 0
  concernWeixin : Bool := false
  gridNotifyState : List (ℤ × Bool) := []
deriving DecidableEq, Repr

inductive DealStatusType where
  | waitToPay
  | waitPrepareToPay
  | complete
  | waitPrepareToVerify
  | failed
deriving DecidableEq, Repr

structure DealWaitToPay where
  keyCode : String
  status : ℤ
  price : ℤ
  orderId : ℤ
  receipt : String := ""
  type : DealStatusType
deriving DecidableEq, Repr

/-- the order of `std::pair` -/
instance ordPair : Ord (ℤ × ℤ) := lexOrd

/-- the object -/
structure DreamHero where
  account : ℕ := 0
  info : MsgHeroData := {}
  currentChapter : ℤ := -1
  currentSection : ℤ := -1
  currentTaskCount : ℤ := 0
  gmLevel : ℤ := 0
  channel : ℤ := 0
  online : Bool := false
  lastTaskAdvertisementTime : ℕ := 0
  lastRecoverSpiritTime : ℕ := 0
  lastBuySpiritTime : ℕ := 0
  lastDayLotteryTime : ℕ := 0
  dailyGameTime : ℕ := 0
  dailyGamePrizeTime : ℕ := 0
  lastDailyResetGameTime : ℕ := 0
  specialKills : Std.TreeMap (ℤ × ℤ) (List MsgObjConfig) := {}
  specialCreatures : Std.TreeMap ℤ ℤ := {}
  dealsWaitToPay : Std.TreeMap ℤ DealWaitToPay := {}

/-! ## The row of `character` -/

structure CharacterRow where
  accountId : ℕ
  name : String
  gold : ℤ
  recordHis : String
  heroesState : String
  tasks : String
  specialKill : String
  currentHero : ℤ
  currentChapter : ℤ
  currentSection : ℤ
  completeTaskCount : ℤ
  specialCreatures : String
  freeTaskCount : ℤ
  lastTaskAdvertisementTime : String
  gmLevel : ℤ
  currentTaskCount : ℤ
  tutorialFlag : ℤ
  jewel : ℤ
  spirit : ℤ
  lastRecoverSpiritTime : String
  dayBuySpirit : ℤ
  lastBuySpiritTime : String
  lotions : String
  lastLotteryTime : String
  dailyGameProgress : ℤ
  dailyGameScore : ℤ
  dailyGameGold : ℤ
  dailyGameTime : String
  dailyGamePrizeTime : String
  dailyGameHpPct : ℤ
  dailyGameRecordProgress : ℤ
  dailyResetGameCount : ℤ
  lastDailyResetGameTime : String
  dailyTopGrogress : ℤ
  dailyGameAnger : ℤ
  concernWeixin : ℤ
  gridStateNotify : String
deriving DecidableEq, Repr

/-- `%d,%d` -/
def pairText (a b : ℤ) : String := toString a ++ "," ++ toString b

/-- the flag of a hero or a grid, as `%d` -/
def flag (b : Bool) : ℤ := if b then 1 else 0

def recordText (l : List (ℤ × ℤ)) : String := ";".intercalate (l.map fun p => pairText p.1 p.2)

def heroesText (l : List Bool) : String := ";".intercalate (l.map fun b => toString (flag b))

def tasksText (l : List MsgTaskInfo) : String :=
  ";".intercalate (l.map fun t => pairText t.taskid t.argument1 ++ "," ++ toString t.usetime)

/-- a map without a kill is left out -/
def specialKillText (l : List ((ℤ × ℤ) × List MsgObjConfig)) : String :=
  ";".intercalate ((l.filter fun e => !e.2.isEmpty).map fun e =>
    pairText e.1.1 e.1.2 ++ String.join (e.2.map fun k => ":" ++ pairText k.id k.type))

def gridText (l : List (ℤ × Bool)) : String := ";".intercalate (l.map fun p => pairText p.1 (flag p.2))

def lotionText (l : List ℤ) : String := ",".intercalate (l.map toString)

variable (time : ℕ → String)

/-- the values of the first statement of `SaveHero` -/
def characterRow (h : DreamHero) : CharacterRow where
  accountId := h.account
  name := h.info.name
  gold := h.info.gold
  recordHis := recordText h.info.records
  heroesState := heroesText h.info.heroes
  tasks := tasksText h.info.tasks
  specialKill := specialKillText h.specialKills.toList
  currentHero := h.info.currentHero
  currentChapter := h.currentChapter
  currentSection := h.currentSection
  completeTaskCount := h.info.completeTaskCount
  specialCreatures := recordText h.specialCreatures.toList
  freeTaskCount := h.currentTaskCount
  lastTaskAdvertisementTime := time h.lastTaskAdvertisementTime
  gmLevel := h.gmLevel
  currentTaskCount := h.currentTaskCount
  tutorialFlag := h.info.newTutorial
  jewel := h.info.jewel
  spirit := h.info.spirit
  lastRecoverSpiritTime := time h.lastRecoverSpiritTime
  dayBuySpirit := h.info.dayBuySpirit
  lastBuySpiritTime := time h.lastBuySpiritTime
  lotions := lotionText h.info.lotions
  lastLotteryTime := time h.lastDayLotteryTime
  dailyGameProgress := h.info.dailyGameProgress
  dailyGameScore := h.info.dailyGameScore
  dailyGameGold := h.info.dailyGameGold
  dailyGameTime := time h.dailyGameTime
  dailyGamePrizeTime := time h.dailyGamePrizeTime
  dailyGameHpPct := h.info.dailyGameHpPct
  dailyGameRecordProgress := h.info.dailyGameRecordProgress
  dailyResetGameCount := h.info.dailyResetGameCount
  lastDailyResetGameTime := time h.lastDailyResetGameTime
  dailyTopGrogress := h.info.dailyTopGrogress
  dailyGameAnger := h.info.dailyGameAnger
  concernWeixin := flag h.info.concernWeixin
  gridStateNotify := gridText h.info.gridNotifyState

/-! ## The rows of `deal_wait_to_pay` -/

/-- the columns both `SaveHero` and `OfflineHeroDealWaitToPay` list -/
structure DealValues where
  orderId : ℤ
  accountId : ℕ
  keyCode : String
  status : ℤ
  price : ℤ
  dealTime : String
  completeStatus : DealStatusType
deriving DecidableEq, Repr

/-- the values of the second statement of `SaveHero` -/
def dealRows (h : DreamHero) (now : ℕ) : List DealValues :=
  h.dealsWaitToPay.toList.map fun e =>
    { orderId := e.2.orderId, accountId := h.account, keyCode := e.2.keyCode, status := e.2.status,
      price := e.2.price, dealTime := time now, completeStatus := e.2.type }

/-- the statements on the two tables -/
inductive Stmt where
  | character (row : CharacterRow)
  | deals (rows : List DealValues)
  /-- the columns `ReqVerifyDeal` lists -/
  | verify (orderId : ℤ) (completeStatus : DealStatusType) (receipt : String)
deriving DecidableEq, Repr

def saveHero (h : DreamHero) (now : ℕ) : List Stmt :=
  .character (characterRow time h) ::
    if h.dealsWaitToPay.isEmpty then [] else [.deals (dealRows time h now)]

end DreamHeroes.Hero

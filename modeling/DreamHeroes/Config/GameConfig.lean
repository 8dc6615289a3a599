/-
What the handlers of a hero read of the configuration (`gameserver/GameConfig.h`).

Of each message and record only the fields that a handler reads are kept, and the number of sections of a chapter. A map
that is only looked up is a function; the tasks are a map in the order of their keys, because `RadnomTaskInfo` walks
over them, and the drop boxes a list in the order in which `EnterGame` walks over theirs.
-/
import Mathlib.Tactic
import DreamHeroes.Config.GameDay

namespace DreamHeroes.Config

structure MsgTaskConfigInfo where
  taskid : ℤ := 0
  requireUnlockChapter : ℤ := 0
  requireUnlockSection : ℤ := 0
  requireUnlockCompleteTaskCount : ℤ := 0
  giftGold : ℤ := 0
deriving DecidableEq, Repr

structure MsgChapterConfigInfo where
  requiredChapterId : ℤ
  requiredSectionId : ℤ
  requiredTaskCompleteCount : ℤ
  requireGold : ℤ
  /-- sent to the client; no handler compares a section with it -/
  maxSectionCount : ℤ := 0
deriving DecidableEq, Repr

structure MsgShopConfigInfo where
  requireGold : ℤ
  requireChapterId : ℤ
  requireSectionId : ℤ
deriving DecidableEq, Repr

structure MsgSpiritShopInfo where
  spirit : ℤ
  needJewel : ℤ
deriving DecidableEq, Repr

inductive LotionUseType where
  | gold
  | jewel
deriving DecidableEq, Repr

structure MsgLotionShopConfigInfo where
  useType : LotionUseType
  useCount : ℤ
deriving DecidableEq, Repr

inductive EnLotteryBox where
  | jewel
  | gold
  | lotion
deriving DecidableEq, Repr

structure LotteryDrawBoxConfig where
  lotteryType : EnLotteryBox
  subIndex : ℤ
  baseCount : ℤ
  randomCount : ℤ
  rating : ℤ
deriving DecidableEq, Repr

structure MsgDropBoxConfig where
  objId : ℤ
  objType : ℤ
  baseGold : ℤ
  randomGold : ℤ
deriving DecidableEq, Repr

structure DailyGamePrizeConfig where
  beginRank : ℤ
  endRank : ℤ
  prizeGold : ℤ
deriving DecidableEq, Repr

structure GlobalConfig where
  configGold : ℤ := 0
  heroUnlockCount : ℕ := 0
  dayRefreshTime : ℤ := 0
  dayFreeTaskCount : ℤ := 0
  dayTaskAdvertisementTaskCd : ℤ := 0
  heroMaxTasksCount : ℤ := 0
  refreshTaskGold : ℤ := 0
  reliveGold : ℤ := 0
  configMaxSpirit : ℤ := 0
  configJewel : ℤ := 0
  configRecoverSpirit : ℤ := 0
  configEnterGameUseSpirit : ℤ := 0
  configDayBuySpirit : ℤ := 0
  configWeixinGold : ℤ := 0
  dailyGameResetJewelConfig : List ℤ := []
  configWeixinCdKey : String := ""
deriving DecidableEq, Repr

/-- `utcOffset` is that of the host -/
structure GameConfig where
  globalConfig : GlobalConfig := {}
  utcOffset : ℤ := 0
  tasks : Std.TreeMap ℤ MsgTaskConfigInfo := {}
  getChapterConfigInfo : ℤ → Option MsgChapterConfigInfo := fun _ => none
  getShopConfig : ℤ → Option MsgShopConfigInfo := fun _ => none
  getSpiritShop : ℤ → Option MsgSpiritShopInfo := fun _ => none
  getLotionShop : ℤ → Option MsgLotionShopConfigInfo := fun _ => none
  lotteryDrawConfigs : List LotteryDrawBoxConfig := []
  dropBoxes : List MsgDropBoxConfig := []
  dailyGamePrizeConfigs : List DailyGamePrizeConfig := []
  canConcernWeixin : Bool := false

def GameConfig.getMapTask (cfg : GameConfig) (id : ℤ) : Option MsgTaskConfigInfo := cfg.tasks[id]?

/-- `isInToday` with the values of the configuration -/
def GameConfig.today (cfg : GameConfig) (serverTime : ℤ) (time : ℕ) : Bool :=
  GameConfig.isInToday cfg.utcOffset cfg.globalConfig.dayRefreshTime serverTime time

end DreamHeroes.Config

/-
How a hero gets into the memory of the game server: from the row of `character` (`DBQuestManager::dbDoQueryHeroInfo` on
the database server, `DreamHero::set_info` on the game server), or from the configuration (`DreamHero::LoadFromConfig`).

- `exactPair`, `leadingPair`: the two checks the loops make on the pieces of `SplitStringA` (`pieces`). An entry that
  fails its check is skipped.
- `dbDoQueryHeroInfo`: the message for the game server, from the columns of the row.
- `tryToGetGamePrize`, `setInfo`: the hero from the message. The deals come from another query and are left out here;
  the recovery of the spirit is float arithmetic and is a parameter.
- `loadFromConfig`: a new hero, and a hero after `ResetGame`. `day_buy_spirit` is not among the fields it sets.

`unixTimestamp` stands for `UNIX_TIMESTAMP` of a time column.
-/
import Mathlib.Tactic
import DreamHeroes.Lib.Text
import DreamHeroes.Config.GameConfig
import DreamHeroes.Rank.RankManager
import DreamHeroes.Hero.DreamHero

namespace DreamHeroes.Hero

open DreamHeroes.Lib DreamHeroes.Config DreamHeroes.Rank

/-! ## The message -/

structure MsgMapSpecialKill where
  chapterId : ℤ
  sectionId : ℤ
  kills : List MsgObjConfig
deriving DecidableEq, Repr

structure MsgHeroDataDB2GS where
  account : ℕ
  data : MsgHeroData
  currentChapter : ℤ
  currentSection : ℤ
  freeTaskCount : ℤ
  lastTaskAdvertisementTime : ℕ
  specialKills : List MsgMapSpecialKill
  gmLevel : ℤ
  specialCreatures : List (ℤ × ℤ)
  lastRecoverSpiritTime : ℕ
  lastBuySpiritTime : ℕ
  lastLotteryTime : ℕ
  dailyGameTime : ℕ
  dailyGamePrizeTime : ℕ
  lastDailyResetGameTime : ℕ
deriving DecidableEq, Repr

/-- exactly two pieces -/
def exactPair (s : String) : Option (ℤ × ℤ) :=
  match pieces ',' s with
  | [a, b] => some (atoi a, atoi b)
  | _ => none

/-- at least two pieces -/
def leadingPair (s : String) : Option (ℤ × ℤ) :=
  match pieces ',' s with
  | a :: b :: _ => some (atoi a, atoi b)
  | _ => none

def readRecords (s : String) : List (ℤ × ℤ) := (pieces ';' s).filterMap exactPair

def readHeroes (s : String) : List Bool := (pieces ';' s).map fun t => decide (atoi t ≠ 0)

def readTask (s : String) : Option MsgTaskInfo :=
  match pieces ',' s with
  | [a, b, c] => some { taskid := atoi a, argument1 := atoi b, usetime := atoi c }
  | _ => none

def readTasks (s : String) : List MsgTaskInfo := (pieces ';' s).filterMap readTask

def readSpecialKill (s : String) : Option MsgMapSpecialKill :=
  match pieces ':' s with
  | key :: kill :: kills =>
    (exactPair key).map fun p =>
      { chapterId := p.1, sectionId := p.2,
        kills := ((kill :: kills).filterMap exactPair).map fun k => { id := k.1, type := k.2 } }
  | _ => none

def readSpecialKills (s : String) : List MsgMapSpecialKill := (pieces ';' s).filterMap readSpecialKill

def readLotions (s : String) : List ℤ := (pieces ',' s).map atoi

def readSpecialCreatures (s : String) : List (ℤ × ℤ) := (pieces ';' s).filterMap leadingPair

def readGridState (s : String) : List (ℤ × Bool) :=
  ((pieces ';' s).filterMap leadingPair).map fun p => (p.1, decide (p.2 ≠ 0))

def dbDoQueryHeroInfo (unixTimestamp : String → ℕ) (row : CharacterRow) : MsgHeroDataDB2GS where
  account := row.accountId
  data :=
    { name := row.name, gold := row.gold, currentHero := row.currentHero, completeTaskCount := row.completeTaskCount,
      newTutorial := row.tutorialFlag, jewel := row.jewel, spirit := row.spirit, dayBuySpirit := row.dayBuySpirit,
      dailyGameGold := row.dailyGameGold, dailyGameProgress := row.dailyGameProgress,
      dailyGameScore := row.dailyGameScore, dailyGameHpPct := row.dailyGameHpPct,
      dailyGameRecordProgress := row.dailyGameRecordProgress, dailyResetGameCount := row.dailyResetGameCount,
      dailyTopGrogress := row.dailyTopGrogress, dailyGameAnger := row.dailyGameAnger,
      concernWeixin := decide (row.concernWeixin ≠ 0),
      records := readRecords row.recordHis, heroes := readHeroes row.heroesState, tasks := readTasks row.tasks,
      lotions := readLotions row.lotions, gridNotifyState := readGridState row.gridStateNotify }
  currentSection := row.currentSection
  currentChapter := row.currentChapter
  freeTaskCount := row.freeTaskCount
  lastTaskAdvertisementTime := unixTimestamp row.lastTaskAdvertisementTime
  lastBuySpiritTime := unixTimestamp row.lastBuySpiritTime
  lastRecoverSpiritTime := unixTimestamp row.lastRecoverSpiritTime
  gmLevel := row.gmLevel
  lastLotteryTime := unixTimestamp row.lastLotteryTime
  dailyGameTime := unixTimestamp row.dailyGameTime
  dailyGamePrizeTime := unixTimestamp row.dailyGamePrizeTime
  lastDailyResetGameTime := unixTimestamp row.lastDailyResetGameTime
  specialKills := readSpecialKills row.specialKill
  specialCreatures := readSpecialCreatures row.specialCreatures

/-! ## The hero -/

/-- `RankManager::GetDailyGamePrize` -/
def getDailyGamePrize (cfg : GameConfig) (rank : ℤ) : ℤ :=
  match cfg.dailyGamePrizeConfigs.find? fun c => rank ≥ c.beginRank && rank ≤ c.endRank with
  | some c => c.prizeGold
  | none => 0

def tryToGetGamePrize (cfg : GameConfig) (serverRankTime : ℕ) (h : DreamHero) : DreamHero :=
  if serverRankTime ≠ h.dailyGameTime then
    if h.dailyGameTime ≠ 0 ∧ h.dailyGameTime ≠ h.dailyGamePrizeTime then
      let rank := h.info.dailyGameProgress + 1
      { h with info := { h.info with dailyGameGold := getDailyGamePrize cfg rank },
               dailyGamePrizeTime := h.dailyGameTime }
    else h
  else h

/-- `_special_kills[pair_entry].push_back(entry_config)` for the kills of an entry -/
def addSpecialKills (m : Std.TreeMap (ℤ × ℤ) (List MsgObjConfig)) (entry : MsgMapSpecialKill) :
    Std.TreeMap (ℤ × ℤ) (List MsgObjConfig) :=
  entry.kills.foldl (fun m k => m.insert (entry.chapterId, entry.sectionId)
    (m.getD (entry.chapterId, entry.sectionId) [] ++ [k])) m

/-- `spiritRecovery` is the number of recoveries since the last one, and the new time of the last one -/
def recoverOffline (cfg : GameConfig) (spiritRecovery : ℕ → ℕ → ℤ × ℕ) (serverTime : ℕ) (h : DreamHero) : DreamHero :=
  if serverTime > h.lastRecoverSpiritTime then
    let (times, last) := spiritRecovery serverTime h.lastRecoverSpiritTime
    let tempSpirit := cfg.globalConfig.configRecoverSpirit * times + h.info.spirit
    let tempSpirit := if tempSpirit > cfg.globalConfig.configMaxSpirit then cfg.globalConfig.configMaxSpirit
      else tempSpirit
    { h with info := { h.info with spirit := tempSpirit },
             lastRecoverSpiritTime := if times ≠ 0 then last else h.lastRecoverSpiritTime }
  else h

/-- another period of the daily game has begun -/
def newDailyGame (beginTime : ℕ) (h : DreamHero) : DreamHero :=
  if beginTime ≠ h.dailyGameTime then
    { h with info := { h.info with dailyGameProgress := 0, dailyGameScore := 0, dailyResetGameCount := 0,
                                   dailyGameHpPct := 100, dailyGameAnger := 0 } }
  else h

/-- `set_info` of a new object, with `begin` the time `getDailyGameBeginTime` gives -/
def setInfo (cfg : GameConfig) (spiritRecovery : ℕ → ℕ → ℤ × ℕ) (serverTime beginTime : ℕ)
    (info : MsgHeroDataDB2GS) (channel : ℤ) : DreamHero :=
  let h : DreamHero :=
    { channel := channel, account := info.account, info := info.data, currentChapter := info.currentChapter,
      currentSection := info.currentSection, lastTaskAdvertisementTime := info.lastTaskAdvertisementTime,
      currentTaskCount := info.freeTaskCount, lastRecoverSpiritTime := info.lastRecoverSpiritTime,
      lastBuySpiritTime := info.lastBuySpiritTime, lastDayLotteryTime := info.lastLotteryTime, gmLevel := info.gmLevel,
      dailyGameTime := info.dailyGameTime, dailyGamePrizeTime := info.dailyGamePrizeTime,
      lastDailyResetGameTime := info.lastDailyResetGameTime,
      specialKills := info.specialKills.foldl addSpecialKills {},
      specialCreatures := info.specialCreatures.foldl (fun m entry => m.insert entry.1 entry.2) {} }
  let h := newDailyGame beginTime (recoverOffline cfg spiritRecovery serverTime h)
  let h := { h with info := { h.info with dailyGameRecordProgress := 0 } }
  tryToGetGamePrize cfg beginTime h

/-- `name` is the one that `generateName` gives -/
def loadFromConfig (cfg : GameConfig) (name : String) (channel : ℤ) (h : DreamHero) : DreamHero :=
  { h with
    specialKills := {}, specialCreatures := {}, currentChapter := 0, currentSection := 0, currentTaskCount := 0,
    lastTaskAdvertisementTime := 0, channel := channel, lastRecoverSpiritTime := 0, lastBuySpiritTime := 0,
    lastDayLotteryTime := 0, dailyGameTime := 0, dailyGamePrizeTime := 0, lastDailyResetGameTime := 0, gmLevel := 1,
    info :=
      { h.info with
        tasks := [], records := [(1, 1), (0, 0)], lotions := [],
        heroes := List.replicate cfg.globalConfig.heroUnlockCount true, gold := cfg.globalConfig.configGold,
        completeTaskCount := 0, dailyGameProgress := 0, dailyGameGold := 0, dailyGameScore := 0, dailyGameHpPct := 100,
        dailyGameAnger := 0, dailyGameRecordProgress := 0, dailyResetGameCount := 0, dailyTopGrogress := 0,
        currentHero := 0, concernWeixin := false, name := name, newTutorial := 0, jewel := cfg.globalConfig.configJewel,
        spirit := cfg.globalConfig.configMaxSpirit, gridNotifyState := [] } }

end DreamHeroes.Hero

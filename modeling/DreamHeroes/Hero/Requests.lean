/-
The requests that `DreamHero` answers from the hero and the configuration alone (`gameserver/DreamHero.cpp`).

- `GameError`, `Ack`: the codes, and the messages the handlers send.
- `Env`: what a handler reads of the server besides the configuration.
- a definition for each handler, under its name. It gives the hero it leaves and the messages it has sent, in order;
  `none` is an access in front of a repeated field, which has no defined result.
- `Request`, `handle`: the requests as one type.

Amounts are exact integers. `rand` gives the draws of one request, first draw first.
-/
import Mathlib.Tactic
import DreamHeroes.Config.GameConfig
import DreamHeroes.Hero.DreamHero

namespace DreamHeroes.Hero.Requests

open DreamHeroes.Config

/-! ## Messages -/

/-- the codes of `message::GameError` the handlers use -/
inductive GameError where
  | no
  | canNotEnterGameNotEnoughSpirit
  | notEnterTheExitGame
  | unlockChapterFailedNotFoundTheUnlockChapter
  | unlockChapterFailedTheRequiredSectionNotPass
  | unlockChapterFailedYouHaveToCompleteEnoughTasks
  | unlockChapterFailedYouNotHaveEnoughGold
  | refreshAdvertisementTaskFailedInCD
  | refreshAdvertisementTaskFailedNotFoundGiveUpTaskID
  | refreshAdvertisementTaskFailedUnknow
  | refreshAdvertisementTaskFailedNotEnoughGold
  | buyHeroFailedNotEnoughGold
  | buyHeroFailedThePriceIsOld
  | buyHeroFailedNotFoundGrid
  | buyHeroFailedNotPassRequiredSection
  | modifyCurrentFailedTheCharacterIsLock
  | buySpiritFailedNotEnoughJewel
  | buySpiritFailedCanNotBuyMoreSpirit
  | buySpiritFailedNotFoundConfig
  | reliveFailedNotEnoughGod
  | failedToBuyLotionNotEnoughGold
  | failedToBuyLotionNotEnoughJewel
  | failedToBuyLotionAlreadyHaveLotion
  | failedToBuyNotFoundThisLotion
  | failedExitGameNotFoundTheUseLotion
  | failedToLotteryTodayHaveBeenLotteried
  | failedToLotteryNothingCanBeLotteried
  | failedToLotteryErrorRating
  | failedToLotteryErrorLotionConfig
  | failedToUpdateDailyProgressErrorProgress
  | failedToUpdateDailyProgressNoHp
  | failedToUpdateDailyProgressIsMaxProgress
  | failedToReceivedDailyGamePrizeNOPrize
  | failedToResetDailyGameNotEnoughJewel
  | failedToResetDailyGameUseOut
  | failedToResetDailyGameTheProgressIsZero
  | failedToResetDailyGameTheTheHpIsFull
  | failedToConcernWeiXinHaveBeenConcernedWeiXin
  | failedToConcernWeiXinErrorCdkey
  | failedToConcernWeiXinErrorCanNotConcernWeiXin
deriving DecidableEq, Repr

/-- the answers, with the fields of the messages -/
inductive Ack where
  | unlockChapter (chapterId currentGold : ℤ) (error : GameError)
  | advertisementRefreshTask (giveUpTaskId : ℤ) (infos : List MsgTaskConfigInfo) (currentGold : ℤ) (error : GameError)
  | advertisementApplyTask (infos : List MsgTaskConfigInfo) (currentGold : ℤ) (error : GameError)
  | relive (currentGold : ℤ) (error : GameError)
  | modifyCurrentHero (currentGrid : ℤ) (error : GameError)
  | buyHero (grid currentGold : ℤ) (error : GameError)
  | enterGame (chapterId sectionId : ℤ) (killList : List MsgObjConfig) (dropBoxConfigs : List MsgDropBoxConfig)
      (spirit : ℤ) (error : GameError)
  | concernWeiXin (gold currentGold : ℤ) (error : GameError)
  | buySpirit (index jewel spirit : ℤ) (error : GameError)
  | receiveDailyGamePrize (currentGold : ℤ) (error : GameError)
  | dayLottery (type : EnLotteryBox) (index count currentJewel currentGold : ℤ) (currentLotions : List ℤ)
      (lastLotteryTime : ℕ) (error : GameError)
  | buyLotion (lotionId currentGold currentJewel : ℤ) (error : GameError)
  | resetDailyGameProgress (dailyGameProgress dailyResetGameCount : ℤ) (lastResetDailyGameTime : ℕ)
      (currentJewel : ℤ) (error : GameError)
deriving DecidableEq, Repr

def Ack.error : Ack → GameError
  | .unlockChapter _ _ e => e
  | .advertisementRefreshTask _ _ _ e => e
  | .advertisementApplyTask _ _ e => e
  | .relive _ e => e
  | .modifyCurrentHero _ e => e
  | .buyHero _ _ e => e
  | .enterGame _ _ _ _ _ e => e
  | .concernWeiXin _ _ e => e
  | .buySpirit _ _ _ e => e
  | .receiveDailyGamePrize _ e => e
  | .dayLottery _ _ _ _ _ _ _ e => e
  | .buyLotion _ _ _ e => e
  | .resetDailyGameProgress _ _ _ _ e => e

/-- `cheapGold` is `ShopSalesPromotionManager::getCheapGold` -/
structure Env where
  serverTime : ℕ := 0
  rand : ℕ → ℕ := fun _ => 0
  cheapGold : ℤ → ℤ := fun _ => 0

variable (cfg : GameConfig) (env : Env)

/-! ## Chapters and tasks -/

/-- the loop over the records; `none` is the `return` in it -/
def unlockLoop (config : MsgChapterConfigInfo) (chapterId : ℤ) : List (ℤ × ℤ) → GameError → Option GameError
  | [], enError => some enError
  | pairEntry :: records, enError =>
    if pairEntry.1 = chapterId then none
    else if config.requiredChapterId = pairEntry.1 ∧ pairEntry.2 ≥ config.requiredSectionId then
      unlockLoop config chapterId records .no
    else unlockLoop config chapterId records enError

def reqUnlockChapter (h : DreamHero) (chapterId : ℤ) : DreamHero × List Ack :=
  match cfg.getChapterConfigInfo chapterId with
  | none => (h, [.unlockChapter chapterId h.info.gold .unlockChapterFailedNotFoundTheUnlockChapter])
  | some infoConfig =>
    if h.info.completeTaskCount < infoConfig.requiredTaskCompleteCount then
      (h, [.unlockChapter chapterId h.info.gold .unlockChapterFailedYouHaveToCompleteEnoughTasks])
    else
      match unlockLoop infoConfig chapterId h.info.records .unlockChapterFailedTheRequiredSectionNotPass with
      | none => (h, [])
      | some .no =>
        let goldCurrent := h.info.gold - infoConfig.requireGold
        if goldCurrent < 0 then
          (h, [.unlockChapter chapterId h.info.gold .unlockChapterFailedYouNotHaveEnoughGold])
        else
          ({ h with info := { h.info with records := h.info.records ++ [(chapterId, 0)], gold := goldCurrent } },
            [.unlockChapter chapterId goldCurrent .no])
      | some enError => (h, [.unlockChapter chapterId h.info.gold enError])

/-- the tests of `RadnomTaskInfo` on an entry of the configuration -/
def taskOpen (h : DreamHero) (giveUpTask : ℤ) (configEntry : MsgTaskConfigInfo) : Bool :=
  !(h.info.tasks.any fun t => t.taskid == configEntry.taskid || giveUpTask == configEntry.taskid) &&
    decide (configEntry.requireUnlockCompleteTaskCount ≤ h.info.completeTaskCount) &&
    (configEntry.requireUnlockChapter == 0 ||
      -- the first record of the chapter decides
      match h.info.records.find? fun p => p.1 == configEntry.requireUnlockChapter with
      | some pairEntry => decide (configEntry.requireUnlockSection ≤ pairEntry.2)
      | none => false)

/-- `taskid` is 0 when there is none -/
def radnomTaskInfo (h : DreamHero) (giveUpTask : ℤ) : MsgTaskConfigInfo :=
  let vcTemp := ((cfg.tasks.toList.map Prod.snd).filter (taskOpen h giveUpTask)).map (·.taskid)
  match vcTemp[env.rand 0 % vcTemp.length]? with
  | some idTask => (cfg.getMapTask idTask).getD {}
  | none => {}

/-- the tests before anything is changed -/
def refreshTaskError (h : DreamHero) (gold : Bool) : GameError :=
  if h.info.gold < cfg.globalConfig.refreshTaskGold ∧ gold = true then .refreshAdvertisementTaskFailedNotEnoughGold
  else if h.currentTaskCount > cfg.globalConfig.dayFreeTaskCount then
    if (env.serverTime : ℤ) - h.lastTaskAdvertisementTime < cfg.globalConfig.dayTaskAdvertisementTaskCd then
      .refreshAdvertisementTaskFailedInCD
    else .no
  else .no

def giveUpTask (h : DreamHero) (giveUpTaskId : ℤ) : DreamHero × GameError :=
  if giveUpTaskId = 0 then (h, .no)
  else if h.info.tasks.any (·.taskid == giveUpTaskId) then
    ({ h with info := { h.info with tasks := h.info.tasks.eraseP (·.taskid == giveUpTaskId) } }, .no)
  else (h, .refreshAdvertisementTaskFailedNotFoundGiveUpTaskID)

def countTask (h : DreamHero) : DreamHero × GameError :=
  if (h.info.tasks.length : ℤ) ≤ cfg.globalConfig.heroMaxTasksCount - 1 then
    ({ h with currentTaskCount := h.currentTaskCount + 1, lastTaskAdvertisementTime := u32 env.serverTime }, .no)
  else (h, .refreshAdvertisementTaskFailedUnknow)

/-- what is done before the new task is drawn -/
def prepareTask (h : DreamHero) (giveUpTaskId : ℤ) (gold : Bool) : DreamHero × GameError :=
  match refreshTaskError cfg env h gold with
  | .no =>
    match giveUpTask h giveUpTaskId with
    | (h, .no) => countTask cfg env h
    | r => r
  | msgError => (h, msgError)

def refreshTask (h : DreamHero) (giveUpTaskId : ℤ) (gold : Bool) : DreamHero × List Ack :=
  let prepared := prepareTask cfg env h giveUpTaskId gold
  let infoTaskConfig := radnomTaskInfo cfg env prepared.1 giveUpTaskId
  if infoTaskConfig.taskid ≠ 0 ∧ prepared.2 = .no then
    -- the price is taken whatever the flag says
    let currentGold := prepared.1.info.gold - cfg.globalConfig.refreshTaskGold
    let entry : MsgTaskInfo := { taskid := infoTaskConfig.taskid, argument1 := 0, usetime := 0 }
    ({ prepared.1 with
        info := { prepared.1.info with
          tasks := prepared.1.info.tasks ++ [entry]
          gold := currentGold } },
      [if giveUpTaskId ≠ 0 then .advertisementRefreshTask giveUpTaskId [infoTaskConfig] currentGold prepared.2
        else .advertisementApplyTask [infoTaskConfig] currentGold prepared.2])
  else
    (prepared.1,
      [if giveUpTaskId ≠ 0 then .advertisementRefreshTask giveUpTaskId [] prepared.1.info.gold prepared.2
        else .advertisementApplyTask [] prepared.1.info.gold prepared.2])

def reqAdvertisementApplyTask (h : DreamHero) (gold : Bool) : DreamHero × List Ack := refreshTask cfg env h 0 gold

def reqAdvertisementRefreshTask (h : DreamHero) (giveUpTaskId : ℤ) (gold : Bool) : DreamHero × List Ack :=
  refreshTask cfg env h giveUpTaskId gold

/-! ## Heroes and instances -/

def reqReliveReq (h : DreamHero) : DreamHero × List Ack :=
  if h.info.gold ≥ cfg.globalConfig.reliveGold then
    let currentGold := h.info.gold - cfg.globalConfig.reliveGold
    ({ h with info := { h.info with gold := currentGold } }, [.relive currentGold .no])
  else (h, [.relive h.info.gold .reliveFailedNotEnoughGod])

/-- a negative grid passes the test of the length -/
def reqModifyCurrentHero (h : DreamHero) (gridId : ℤ) : Option (DreamHero × List Ack) :=
  if (h.info.heroes.length : ℤ) > gridId then
    if gridId < 0 then none
    else if h.info.heroes.getD gridId.toNat false then
      some ({ h with info := { h.info with currentHero := gridId } }, [.modifyCurrentHero gridId .no])
    else some (h, [.modifyCurrentHero h.info.currentHero .modifyCurrentFailedTheCharacterIsLock])
  else some (h, [.modifyCurrentHero h.info.currentHero .modifyCurrentFailedTheCharacterIsLock])

/-- whether the hero has passed the section the grid requires -/
def sectionPassed (h : DreamHero) (config : MsgShopConfigInfo) : Bool :=
  if config.requireChapterId ≠ 0 ∧ config.requireSectionId ≠ 0 then
    h.info.records.any fun r => r.1 == config.requireChapterId && decide (config.requireSectionId ≤ r.2)
  else true

/-- the loop that adds locked heroes until the grid exists, and the flag of the grid -/
def setHero (heroes : List Bool) (grid : ℤ) : Option (List Bool) :=
  let length : ℤ := heroes.length
  let heroes := if length ≤ grid + 1 then heroes ++ List.replicate (grid + 1 - length + 1).toNat false else heroes
  if grid < 0 then none else some (heroes.set grid.toNat true)

def reqBuyHero (h : DreamHero) (grid gold : ℤ) : Option (DreamHero × List Ack) :=
  let reject (en : GameError) : Option (DreamHero × List Ack) := some (h, [.buyHero grid h.info.gold en])
  match cfg.getShopConfig grid with
  | none => reject .buyHeroFailedNotFoundGrid
  | some buyGridConfig =>
    if sectionPassed h buyGridConfig = false then reject .buyHeroFailedNotPassRequiredSection
    else
      let currentRequireGold := max (buyGridConfig.requireGold - env.cheapGold grid) 0
      if currentRequireGold ≠ gold then reject .buyHeroFailedThePriceIsOld
      else
        let modifyGold := h.info.gold - currentRequireGold
        if modifyGold < 0 then reject .buyHeroFailedNotEnoughGold
        else (setHero h.info.heroes grid).map fun heroes =>
          ({ h with info := { h.info with gold := modifyGold, heroes := heroes } }, [.buyHero grid modifyGold .no])

/-- `EnterGame`; `admin` is set for the command of a game master -/
def enterGame (h : DreamHero) (chapterId sectionId : ℤ) (admin : Bool) : DreamHero × List Ack :=
  let useSpirit := cfg.globalConfig.configEnterGameUseSpirit
  if admin = false ∧ ¬(chapterId = -1 ∧ sectionId = -1) ∧ useSpirit ≠ 0 ∧ h.info.spirit < useSpirit then
    (h, [.enterGame chapterId sectionId [] [] h.info.spirit .canNotEnterGameNotEnoughSpirit])
  else
    let spirit := max (h.info.spirit - useSpirit) 0
    ({ h with currentChapter := chapterId, currentSection := sectionId, info := { h.info with spirit := spirit } },
      [.enterGame chapterId sectionId (h.specialKills.getD (chapterId, sectionId) []) cfg.dropBoxes spirit .no])

def reqEnterGame (h : DreamHero) (chapterId sectionId : ℤ) : DreamHero × List Ack :=
  enterGame cfg h chapterId sectionId false

def reqConcernWeiXin (h : DreamHero) (cdKey : String) : DreamHero × List Ack :=
  if cfg.canConcernWeixin = false then
    (h, [.concernWeiXin 0 h.info.gold .failedToConcernWeiXinErrorCanNotConcernWeiXin])
  else if h.info.concernWeixin = true then
    (h, [.concernWeiXin 0 h.info.gold .failedToConcernWeiXinHaveBeenConcernedWeiXin])
  else if cfg.globalConfig.configWeixinCdKey = cdKey then
    let addGold := cfg.globalConfig.configWeixinGold
    ({ h with info := { h.info with concernWeixin := true, gold := h.info.gold + addGold } },
      [.concernWeiXin addGold (h.info.gold + addGold) .no])
  else (h, [.concernWeiXin 0 h.info.gold .failedToConcernWeiXinErrorCdkey])

/-! ## Spirit, lotions and the lottery -/

def reqBuySpirit (h : DreamHero) (index : ℤ) : DreamHero × List Ack :=
  let reject (error : GameError) : DreamHero × List Ack := (h, [.buySpirit index h.info.jewel h.info.spirit error])
  if h.info.dayBuySpirit ≥ cfg.globalConfig.configDayBuySpirit then reject .buySpiritFailedCanNotBuyMoreSpirit
  else
    match cfg.getSpiritShop index with
    | none => reject .buySpiritFailedNotFoundConfig
    | some configInfo =>
      if configInfo.needJewel ≤ h.info.jewel then
        let jewel := h.info.jewel - configInfo.needJewel
        let spirit := h.info.spirit + configInfo.spirit
        ({ h with info := { h.info with jewel := jewel, spirit := spirit, dayBuySpirit := h.info.dayBuySpirit + 1 },
                  lastBuySpiritTime := u32 env.serverTime }, [.buySpirit index jewel spirit .no])
      else reject .buySpiritFailedNotEnoughJewel

def reqReceiveDailyGamePrize (h : DreamHero) : DreamHero × List Ack :=
  if h.info.dailyGameGold = 0 then
    (h, [.receiveDailyGamePrize h.info.gold .failedToReceivedDailyGamePrizeNOPrize])
  else
    let gold := h.info.gold + h.info.dailyGameGold
    ({ h with info := { h.info with gold := gold, dailyGameGold := 0 } }, [.receiveDailyGamePrize gold .no])

def reqBuyLotion (h : DreamHero) (lotionId : ℤ) : DreamHero × List Ack :=
  let reject (error : GameError) : DreamHero × List Ack :=
    (h, [.buyLotion lotionId h.info.gold h.info.jewel error])
  if lotionId ≥ 0 ∧ lotionId ≤ 3 then
    match cfg.getLotionShop lotionId with
    | none => reject .failedToBuyNotFoundThisLotion
    | some shopConfig =>
      if lotionId ∈ h.info.lotions then reject .failedToBuyLotionAlreadyHaveLotion
      else
        match shopConfig.useType with
        | .jewel =>
          if h.info.jewel < shopConfig.useCount then reject .failedToBuyLotionNotEnoughJewel
          else
            let jewel := h.info.jewel - shopConfig.useCount
            ({ h with info := { h.info with jewel := jewel, lotions := h.info.lotions ++ [lotionId] } },
              [.buyLotion lotionId h.info.gold jewel .no])
        | .gold =>
          if h.info.gold < shopConfig.useCount then reject .failedToBuyLotionNotEnoughGold
          else
            let gold := h.info.gold - shopConfig.useCount
            ({ h with info := { h.info with gold := gold, lotions := h.info.lotions ++ [lotionId] } },
              [.buyLotion lotionId gold h.info.jewel .no])
  else reject .failedToBuyNotFoundThisLotion

/-- the boxes that can be drawn: a lotion that the hero holds is left out -/
def lotteryBoxes (h : DreamHero) : List LotteryDrawBoxConfig :=
  cfg.lotteryDrawConfigs.filter fun c => !(c.lotteryType == .lotion && h.info.lotions.contains c.subIndex)

/-- the boxes by the sum of the ratings before them, and the sum of all -/
def ratedBoxes (boxes : List LotteryDrawBoxConfig) : Std.TreeMap ℤ LotteryDrawBoxConfig × ℤ :=
  boxes.foldl (fun s entry => (s.1.insert s.2 entry, s.2 + entry.rating)) ({}, 0)

/-- the last entry of the map whose key is at most the draw -/
def drawBox (entry : LotteryDrawBoxConfig) (m : Std.TreeMap ℤ LotteryDrawBoxConfig) (currentRating : ℤ) :
    LotteryDrawBoxConfig :=
  (m.toList.takeWhile fun e => e.1 ≤ currentRating).foldl (fun _ e => e.2) entry

/-- the prize of a box that has been drawn, `h` the hero whose lottery time is set -/
def lotteryPrize (h : DreamHero) (entry : LotteryDrawBoxConfig) : DreamHero × List Ack :=
  let ack (h : DreamHero) (index count : ℤ) (error : GameError) : Ack :=
    .dayLottery entry.lotteryType index count h.info.jewel h.info.gold h.info.lotions h.lastDayLotteryTime error
  let randomCount : ℤ := if entry.randomCount > 0 then env.rand 1 % entry.randomCount else 0
  let addCount := entry.baseCount + randomCount
  match entry.lotteryType with
  | .lotion =>
    if entry.subIndex ≥ 0 ∧ entry.subIndex ≤ 3 then
      let h := { h with info := { h.info with lotions := h.info.lotions ++ [entry.subIndex] } }
      (h, [ack h entry.subIndex 0 .no])
    else (h, [ack h 0 0 .failedToLotteryErrorLotionConfig])
  | .gold =>
    let h := { h with info := { h.info with gold := h.info.gold + addCount } }
    (h, [ack h 0 addCount .no])
  | .jewel =>
    let h := { h with info := { h.info with jewel := h.info.jewel + addCount } }
    (h, [ack h 0 addCount .no])

def reqDayLottery (h : DreamHero) : DreamHero × List Ack :=
  let reject (error : GameError) : DreamHero × List Ack :=
    (h, [.dayLottery .jewel 0 0 h.info.jewel h.info.gold h.info.lotions h.lastDayLotteryTime error])
  if cfg.today env.serverTime h.lastDayLotteryTime = false then
    match lotteryBoxes cfg h with
    | [] => reject .failedToLotteryNothingCanBeLotteried
    | entry :: boxes =>
      let (mapRandomLottery, rating) := ratedBoxes (entry :: boxes)
      if rating > 0 then
        let currentRating : ℤ := env.rand 0 % rating
        lotteryPrize env { h with lastDayLotteryTime := u32 env.serverTime }
          (drawBox entry mapRandomLottery currentRating)
      else reject .failedToLotteryErrorRating
  else reject .failedToLotteryTodayHaveBeenLotteried

/-! ## The daily game -/

/-- the count of resets that the request makes -/
def nextResetCount (h : DreamHero) : ℤ :=
  if cfg.today env.serverTime h.lastDailyResetGameTime = false then 1 else h.info.dailyResetGameCount + 1

/-- `count - 1` is compared with the size as an unsigned number -/
def resetJewel (count : ℤ) : Option ℤ :=
  if count - 1 < 0 then none else cfg.globalConfig.dailyGameResetJewelConfig[(count - 1).toNat]?

def reqResetDailyGameProgress (h : DreamHero) : DreamHero × List Ack :=
  let ack (h : DreamHero) (error : GameError) : Ack :=
    .resetDailyGameProgress h.info.dailyGameProgress h.info.dailyResetGameCount h.lastDailyResetGameTime
      h.info.jewel error
  if cfg.today env.serverTime h.dailyGameTime = false ∨ h.info.dailyGameProgress = 0 then
    (h, [ack h .failedToResetDailyGameTheProgressIsZero])
  else
    let resetGameCount := nextResetCount cfg env h
    match resetJewel cfg resetGameCount with
    | none => (h, [ack h .failedToResetDailyGameUseOut])
    | some jewel =>
      if jewel > h.info.jewel then (h, [ack h .failedToResetDailyGameNotEnoughJewel])
      else if h.info.dailyGameHpPct ≠ 100 ∨ h.info.dailyGameProgress ≠ 0 then
        let h := { h with
          info := { h.info with dailyGameProgress := 0, dailyGameRecordProgress := 0, dailyGameHpPct := 100,
                                dailyGameAnger := 0, jewel := h.info.jewel - jewel,
                                dailyResetGameCount := resetGameCount },
          lastDailyResetGameTime := u32 env.serverTime }
        (h, [ack h .no])
      else (h, [ack h .failedToResetDailyGameTheTheHpIsFull])

/-! ## The requests as one type -/

inductive Request where
  | unlockChapter (chapterId : ℤ)
  | advertisementApplyTask (gold : Bool)
  | advertisementRefreshTask (giveUpTaskId : ℤ) (gold : Bool)
  | relive
  | modifyCurrentHero (gridId : ℤ)
  | buyHero (grid gold : ℤ)
  | enterGame (chapterId sectionId : ℤ) (admin : Bool)
  | concernWeiXin (cdKey : String)
  | buySpirit (index : ℤ)
  | receiveDailyGamePrize
  | dayLottery
  | buyLotion (lotionId : ℤ)
  | resetDailyGameProgress
deriving DecidableEq, Repr

def handle (h : DreamHero) : Request → Option (DreamHero × List Ack)
  | .unlockChapter chapterId => some (reqUnlockChapter cfg h chapterId)
  | .advertisementApplyTask gold => some (reqAdvertisementApplyTask cfg env h gold)
  | .advertisementRefreshTask giveUpTaskId gold => some (reqAdvertisementRefreshTask cfg env h giveUpTaskId gold)
  | .relive => some (reqReliveReq cfg h)
  | .modifyCurrentHero gridId => reqModifyCurrentHero h gridId
  | .buyHero grid gold => reqBuyHero cfg env h grid gold
  | .enterGame chapterId sectionId admin => some (enterGame cfg h chapterId sectionId admin)
  | .concernWeiXin cdKey => some (reqConcernWeiXin cfg h cdKey)
  | .buySpirit index => some (reqBuySpirit cfg env h index)
  | .receiveDailyGamePrize => some (reqReceiveDailyGamePrize h)
  | .dayLottery => some (reqDayLottery cfg env h)
  | .buyLotion lotionId => some (reqBuyLotion cfg h lotionId)
  | .resetDailyGameProgress => some (reqResetDailyGameProgress cfg env h)

end DreamHeroes.Hero.Requests

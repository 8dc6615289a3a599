/-
The gold and the jewel of a hero never become negative: along which runs of client requests.

- `Solvent`: both amounts are at least 0.
- `Covered`: what a request must find. Most requests test the price themselves; a task that is taken without the gold
  flag, an accepted exit and a received prize do not.
- `handleClient_solvent_iff`: from a solvent hero, a request leaves a solvent one if and only if it is covered.
- `solvent_along_iff`: along a run of requests the hero stays solvent if and only if every request is covered.
  `unpaid_task` is a task taken with no gold.

An access in front of a repeated field ends the run; nothing is known of the hero after it.
-/
import Mathlib.Tactic
import DreamHeroes.Lib.Machine
import DreamHeroes.Hero.Answers
import DreamHeroes.Hero.ClientRequests

namespace DreamHeroes.Hero.Requests

open DreamHeroes.Lib DreamHeroes.Config DreamHeroes.Rank

structure Solvent (h : DreamHero) : Prop where
  gold : 0 ≤ h.info.gold
  jewel : 0 ≤ h.info.jewel

/-- what the configuration gives away -/
structure PrizesNonNeg (cfg : GameConfig) : Prop where
  lottery : ∀ box ∈ cfg.lotteryDrawConfigs, 0 ≤ box.baseCount
  weixin : 0 ≤ cfg.globalConfig.configWeixinGold

/-- every price, gift and prize of the configuration -/
structure AmountsNonNeg (cfg : GameConfig) : Prop extends PrizesNonNeg cfg where
  refreshTask : 0 ≤ cfg.globalConfig.refreshTaskGold
  relive : 0 ≤ cfg.globalConfig.reliveGold
  chapter : ∀ id config, cfg.getChapterConfigInfo id = some config → 0 ≤ config.requireGold
  shop : ∀ grid config, cfg.getShopConfig grid = some config → 0 ≤ config.requireGold
  spirit : ∀ index config, cfg.getSpiritShop index = some config → 0 ≤ config.needJewel
  lotion : ∀ id config, cfg.getLotionShop id = some config → 0 ≤ config.useCount
  gift : ∀ id config, cfg.getMapTask id = some config → 0 ≤ config.giftGold
  reset : ∀ jewel ∈ cfg.globalConfig.dailyGameResetJewelConfig, 0 ≤ jewel
  dailyGame : ∀ config ∈ cfg.dailyGamePrizeConfigs, 0 ≤ config.prizeGold

theorem Solvent.of_eq {h h' : DreamHero} (hs : Solvent h) (hgold : h'.info.gold = h.info.gold)
    (hjewel : h'.info.jewel = h.info.jewel) : Solvent h' := ⟨hgold ▸ hs.gold, hjewel ▸ hs.jewel⟩

variable {cfg : GameConfig} {env : Env} {h : DreamHero}

/-! ## Tasks -/

/-- the tasks without the one that is given up -/
def keptTasks (h : DreamHero) (giveUpTaskId : ℤ) : List MsgTaskInfo :=
  if giveUpTaskId = 0 then h.info.tasks else h.info.tasks.eraseP (·.taskid == giveUpTaskId)

variable (cfg env h) in
/-- a task is taken: the tests pass, there is room for it, and one can be offered -/
structure TaskTaken (giveUpTaskId : ℤ) (gold : Bool) : Prop where
  price : cfg.globalConfig.refreshTaskGold ≤ h.info.gold ∨ gold = false
  time : h.currentTaskCount ≤ cfg.globalConfig.dayFreeTaskCount ∨
    cfg.globalConfig.dayTaskAdvertisementTaskCd ≤ (env.serverTime : ℤ) - h.lastTaskAdvertisementTime
  held : giveUpTaskId = 0 ∨ ∃ t ∈ h.info.tasks, t.taskid = giveUpTaskId
  room : ((keptTasks h giveUpTaskId).length : ℤ) ≤ cfg.globalConfig.heroMaxTasksCount - 1
  offered :
    (radnomTaskInfo cfg env
      { h with info := { h.info with tasks := keptTasks h giveUpTaskId } } giveUpTaskId).taskid ≠ 0

theorem prepareTask_eq_no_iff (giveUpTaskId : ℤ) (gold : Bool) :
    (prepareTask cfg env h giveUpTaskId gold).2 = .no ↔
      refreshTaskError cfg env h gold = .no ∧ (giveUpTaskId = 0 ∨ ∃ t ∈ h.info.tasks, t.taskid = giveUpTaskId) ∧
        ((keptTasks h giveUpTaskId).length : ℤ) ≤ cfg.globalConfig.heroMaxTasksCount - 1 := by
  rw [prepareTask, keptTasks]
  cases he : refreshTaskError cfg env h gold with
  | no =>
    simp only [giveUpTask, true_and]
    split_ifs with hzero hheld
    · simp only [countTask, hzero, true_or, true_and]
      split_ifs with hroom <;> simp [hroom]
    · have hmem : ∃ t ∈ h.info.tasks, t.taskid = giveUpTaskId := by simpa using hheld
      simp only [countTask, hzero, hmem, or_true, true_and]
      split_ifs with hroom <;> simp [hroom]
    · have hnone : ¬ ∃ t ∈ h.info.tasks, t.taskid = giveUpTaskId := by simpa using hheld
      simp [hzero, hnone]
  | _ => simp

/-- what is done before a task is drawn, when nothing is rejected -/
theorem prepareTask_of_no {giveUpTaskId : ℤ} {gold : Bool} (hno : (prepareTask cfg env h giveUpTaskId gold).2 = .no) :
    (prepareTask cfg env h giveUpTaskId gold).1 =
      { h with info := { h.info with tasks := keptTasks h giveUpTaskId }, currentTaskCount := h.currentTaskCount + 1,
               lastTaskAdvertisementTime := u32 env.serverTime } := by
  obtain ⟨herror, hheld, hroom⟩ := (prepareTask_eq_no_iff giveUpTaskId gold).1 hno
  rw [prepareTask, herror]
  by_cases hzero : giveUpTaskId = 0
  · simp only [keptTasks, hzero, if_true] at hroom
    simp [giveUpTask, countTask, keptTasks, hzero, hroom]
  · have hany : h.info.tasks.any (·.taskid == giveUpTaskId) = true := by simpa using hheld.resolve_left hzero
    simp only [keptTasks, hzero, if_false] at hroom
    simp [giveUpTask, countTask, keptTasks, hzero, hany, hroom]

variable (cfg env h) in
theorem prepareTask_purse (giveUpTaskId : ℤ) (gold : Bool) :
    (prepareTask cfg env h giveUpTaskId gold).1.info.gold = h.info.gold ∧
      (prepareTask cfg env h giveUpTaskId gold).1.info.jewel = h.info.jewel := by
  rw [prepareTask]
  cases refreshTaskError cfg env h gold with
  | no =>
    rw [giveUpTask]
    split_ifs
    · simp [countTask_info]
    · simp [countTask_info]
    · exact ⟨rfl, rfl⟩
  | _ => exact ⟨rfl, rfl⟩

theorem taskTaken_iff (giveUpTaskId : ℤ) (gold : Bool) :
    (radnomTaskInfo cfg env (prepareTask cfg env h giveUpTaskId gold).1 giveUpTaskId).taskid ≠ 0 ∧
        (prepareTask cfg env h giveUpTaskId gold).2 = .no ↔
      TaskTaken cfg env h giveUpTaskId gold := by
  constructor
  · rintro ⟨hoffered, hno⟩
    obtain ⟨herror, hheld, hroom⟩ := (prepareTask_eq_no_iff giveUpTaskId gold).1 hno
    obtain ⟨hprice, htime⟩ := (refreshTaskError_eq_no_iff cfg env h gold).1 herror
    rw [prepareTask_of_no hno] at hoffered
    exact ⟨hprice, htime, hheld, hroom, hoffered⟩
  · rintro ⟨hprice, htime, hheld, hroom, hoffered⟩
    have herror := (refreshTaskError_eq_no_iff cfg env h gold).2 ⟨hprice, htime⟩
    have hno := (prepareTask_eq_no_iff giveUpTaskId gold).2 ⟨herror, hheld, hroom⟩
    refine ⟨?_, hno⟩
    rw [prepareTask_of_no hno]
    exact hoffered

variable (cfg env h) in
/-- the price is taken with the task -/
theorem refreshTask_purse (giveUpTaskId : ℤ) (gold : Bool) :
    (TaskTaken cfg env h giveUpTaskId gold →
        (refreshTask cfg env h giveUpTaskId gold).1.info.gold = h.info.gold - cfg.globalConfig.refreshTaskGold) ∧
      (¬ TaskTaken cfg env h giveUpTaskId gold →
        (refreshTask cfg env h giveUpTaskId gold).1.info.gold = h.info.gold) ∧
      (refreshTask cfg env h giveUpTaskId gold).1.info.jewel = h.info.jewel := by
  obtain ⟨hgold, hjewel⟩ := prepareTask_purse cfg env h giveUpTaskId gold
  rw [← taskTaken_iff, refreshTask]
  split
  case isTrue htaken => exact ⟨fun _ => by rw [← hgold], fun hnot => absurd htaken hnot, hjewel⟩
  case isFalse hnot => exact ⟨fun htaken => absurd htaken hnot, fun _ => hgold, hjewel⟩

theorem refreshTask_solvent_iff (hs : Solvent h) (giveUpTaskId : ℤ) (gold : Bool) :
    Solvent (refreshTask cfg env h giveUpTaskId gold).1 ↔
      (TaskTaken cfg env h giveUpTaskId gold → cfg.globalConfig.refreshTaskGold ≤ h.info.gold) := by
  obtain ⟨htaken, hnot, hjewel⟩ := refreshTask_purse cfg env h giveUpTaskId gold
  constructor
  · intro hs' ht
    have := hs'.gold
    rw [htaken ht] at this
    omega
  · intro hprice
    refine ⟨?_, hjewel.symm ▸ hs.jewel⟩
    by_cases ht : TaskTaken cfg env h giveUpTaskId gold
    · have := hprice ht
      rw [htaken ht]
      omega
    · rw [hnot ht]
      exact hs.gold

/-! ## The other requests -/

theorem reqUnlockChapter_solvent (hs : Solvent h) (chapterId : ℤ) : Solvent (reqUnlockChapter cfg h chapterId).1 := by
  rw [reqUnlockChapter]
  cases cfg.getChapterConfigInfo chapterId with
  | none => exact hs
  | some infoConfig =>
    dsimp only
    split
    · exact hs
    · cases unlockLoop infoConfig chapterId h.info.records .unlockChapterFailedTheRequiredSectionNotPass with
      | none => exact hs
      | some enError =>
        cases enError with
        | no =>
          dsimp only
          split
          · exact hs
          · exact ⟨by dsimp only; omega, hs.jewel⟩
        | _ => exact hs

theorem reqReliveReq_solvent (hs : Solvent h) : Solvent (reqReliveReq cfg h).1 := by
  rw [reqReliveReq]
  split
  · exact ⟨by dsimp only; omega, hs.jewel⟩
  · exact hs

/-- a solvent hero, where the result is defined -/
def SolventAfter {β : Type} (r : Option (DreamHero × β)) : Prop := ∃ h' b, r = some (h', b) ∧ Solvent h'

theorem solventAfter_some {β : Type} (r : DreamHero × β) : SolventAfter (some r) ↔ Solvent r.1 := by
  constructor
  · rintro ⟨h', b, heq, hs⟩
    obtain rfl : r = (h', b) := Option.some.inj heq
    exact hs
  · intro hs
    exact ⟨r.1, r.2, rfl, hs⟩

theorem not_solventAfter_none {β : Type} : ¬ SolventAfter (none : Option (DreamHero × β)) := by
  rintro ⟨_, _, heq, _⟩
  cases heq

theorem reqModifyCurrentHero_solvent_iff (hs : Solvent h) (gridId : ℤ) :
    SolventAfter (reqModifyCurrentHero h gridId) ↔ 0 ≤ gridId := by
  rw [reqModifyCurrentHero]
  split_ifs with hlen hneg
  · exact iff_of_false not_solventAfter_none (not_le.2 hneg)
  · exact iff_of_true ((solventAfter_some _).2 ⟨hs.gold, hs.jewel⟩) (not_lt.1 hneg)
  · exact iff_of_true ((solventAfter_some _).2 hs) (not_lt.1 hneg)
  · exact iff_of_true ((solventAfter_some _).2 hs) (by omega)

theorem reqBuyHero_solvent_iff (hs : Solvent h) (grid gold : ℤ) :
    SolventAfter (reqBuyHero cfg env h grid gold) ↔ GridSold cfg env h grid gold := by
  rw [← reqBuyHero_answered_iff]
  simp only [reqBuyHero]
  cases cfg.getShopConfig grid with
  | none => exact iff_of_true ((solventAfter_some _).2 hs) (answered_same h _)
  | some config =>
    dsimp only
    split_ifs with hpassed hprice hgold
    · exact iff_of_true ((solventAfter_some _).2 hs) (answered_same h _)
    · exact iff_of_true ((solventAfter_some _).2 hs) (answered_same h _)
    · exact iff_of_true ((solventAfter_some _).2 hs) (answered_same h _)
    · cases setHero h.info.heroes grid with
      | none => exact iff_of_false not_solventAfter_none (not_answered_none h)
      | some heroes =>
        refine iff_of_true ((solventAfter_some _).2 ⟨?_, hs.jewel⟩) (answered_no h _ rfl)
        dsimp only
        omega

theorem enterGame_solvent (hs : Solvent h) (chapterId sectionId : ℤ) (admin : Bool) :
    Solvent (enterGame cfg h chapterId sectionId admin).1 := by
  simp only [enterGame]
  split_ifs
  · exact hs
  · exact ⟨hs.gold, hs.jewel⟩

theorem reqConcernWeiXin_solvent (hprizes : PrizesNonNeg cfg) (hs : Solvent h) (cdKey : String) :
    Solvent (reqConcernWeiXin cfg h cdKey).1 := by
  simp only [reqConcernWeiXin]
  split_ifs
  · exact hs
  · exact hs
  · exact ⟨add_nonneg hs.gold hprizes.weixin, hs.jewel⟩
  · exact hs

theorem reqBuySpirit_solvent (hs : Solvent h) (index : ℤ) : Solvent (reqBuySpirit cfg env h index).1 := by
  simp only [reqBuySpirit]
  split
  · exact hs
  · cases cfg.getSpiritShop index with
    | none => exact hs
    | some configInfo =>
      dsimp only
      split
      · exact ⟨hs.gold, by dsimp only; omega⟩
      · exact hs

theorem reqReceiveDailyGamePrize_solvent_iff (hs : Solvent h) :
    Solvent (reqReceiveDailyGamePrize h).1 ↔ 0 ≤ h.info.gold + h.info.dailyGameGold := by
  rw [reqReceiveDailyGamePrize]
  split
  case isTrue hzero =>
    have := hs.gold
    exact iff_of_true hs (by omega)
  case isFalse =>
    constructor
    · intro hs'
      exact hs'.gold
    · intro hgold
      exact ⟨hgold, hs.jewel⟩

theorem lotteryPrize_solvent (hs : Solvent h) {entry : LotteryDrawBoxConfig} (hbase : 0 ≤ entry.baseCount) :
    Solvent (lotteryPrize env h entry).1 := by
  have hrandom : 0 ≤ if entry.randomCount > 0 then (env.rand 1 : ℤ) % entry.randomCount else 0 := by
    split_ifs with hpos
    · exact Int.emod_nonneg _ hpos.ne'
    · exact le_rfl
  have hgold := hs.gold
  have hjewel := hs.jewel
  simp only [lotteryPrize]
  cases entry.lotteryType with
  | lotion =>
    dsimp only
    split
    · exact ⟨hgold, hjewel⟩
    · exact hs
  | gold => exact ⟨by dsimp only; omega, hjewel⟩
  | jewel => exact ⟨hgold, by dsimp only; omega⟩

theorem reqDayLottery_solvent (hprizes : PrizesNonNeg cfg) (hs : Solvent h) : Solvent (reqDayLottery cfg env h).1 := by
  simp only [reqDayLottery]
  split
  · generalize hboxes : lotteryBoxes cfg h = boxes
    cases boxes with
    | nil => exact hs
    | cons entry boxes =>
      dsimp only
      split
      case isTrue hpos =>
        have hdraw := Int.emod_nonneg (env.rand 0 : ℤ) hpos.ne'
        obtain ⟨i, hi⟩ := drawn_exists (List.cons_ne_nil entry boxes) hdraw
        obtain ⟨box, hbox⟩ : ∃ box, (entry :: boxes)[i]? = some box := ⟨_, List.getElem?_eq_getElem hi.lt⟩
        rw [drawBox_eq hi hbox]
        have hmem : box ∈ lotteryBoxes cfg h := hboxes ▸ List.mem_of_getElem? hbox
        have hs' : Solvent { h with lastDayLotteryTime := u32 env.serverTime } := hs.of_eq rfl rfl
        exact lotteryPrize_solvent hs' (hprizes.lottery box (List.mem_of_mem_filter hmem))
      case isFalse => exact hs
  · exact hs

theorem reqBuyLotion_solvent (hs : Solvent h) (lotionId : ℤ) : Solvent (reqBuyLotion cfg h lotionId).1 := by
  simp only [reqBuyLotion]
  split
  · cases cfg.getLotionShop lotionId with
    | none => exact hs
    | some shopConfig =>
      obtain ⟨useType, useCount⟩ := shopConfig
      cases useType with
      | jewel =>
        dsimp only
        split_ifs
        · exact hs
        · exact hs
        · exact ⟨hs.gold, by dsimp only; omega⟩
      | gold =>
        dsimp only
        split_ifs
        · exact hs
        · exact hs
        · exact ⟨by dsimp only; omega, hs.jewel⟩
  · exact hs

theorem reqResetDailyGameProgress_solvent (hs : Solvent h) : Solvent (reqResetDailyGameProgress cfg env h).1 := by
  simp only [reqResetDailyGameProgress]
  split
  · exact hs
  · cases resetJewel cfg (nextResetCount cfg env h) with
    | none => exact hs
    | some jewel =>
      dsimp only
      split_ifs
      · exact hs
      · exact ⟨hs.gold, by dsimp only; omega⟩
      · exact hs

/-- what an accepted exit pays is what the message says and the gifts of the completed tasks -/
theorem reqExitGame_solvent_iff (hs : Solvent h) (msg : MsgC2SReqExitGame) :
    Solvent (reqExitGame cfg h msg).1 ↔
      (exitError h msg = .no →
        0 ≤ h.info.gold + msg.gold +
          ((paidTasks cfg (h.info.tasks.map (·.taskid)) msg.completeTasks).map (giftGold cfg)).sum) := by
  by_cases hno : exitError h msg = .no
  · have hgold := settle_gold cfg h msg
    rw [max_eq_left hs.gold] at hgold
    rw [reqExitGame_accepted hno]
    simp only [hno, true_imp_iff, ← hgold]
    constructor
    · intro hs'
      exact hs'.gold
    · intro hpos
      exact ⟨hpos, hs.jewel⟩
  · rw [reqExitGame_rejected hno]
    exact iff_of_true ⟨hs.gold, hs.jewel⟩ fun hno' => absurd hno' hno

theorem reqUpdateDailyGameProgress_solvent (hs : Solvent h) (serverTime : ℕ) (ranks : RankManager)
    (msg : MsgC2SReqUpdateDailyGameProgress) :
    Solvent (reqUpdateDailyGameProgress serverTime ranks h msg).1 := by
  have hbegin : Solvent (beginDailyGame ranks h) := by
    rw [beginDailyGame]
    split
    · exact hs.of_eq rfl rfl
    · exact hs
  simp only [reqUpdateDailyGameProgress]
  cases updateProgressError ranks (beginDailyGame ranks h) msg with
  | no => exact hbegin.of_eq rfl rfl
  | _ => exact hbegin

/-! ## Runs -/

/-- what each request must find -/
def Covered (cfg : GameConfig) (env : Env) (h : DreamHero) : ClientRequest → Prop
  | .request (.advertisementApplyTask gold) =>
    TaskTaken cfg env h 0 gold → cfg.globalConfig.refreshTaskGold ≤ h.info.gold
  | .request (.advertisementRefreshTask giveUpTaskId gold) =>
    TaskTaken cfg env h giveUpTaskId gold → cfg.globalConfig.refreshTaskGold ≤ h.info.gold
  | .request (.modifyCurrentHero gridId) => 0 ≤ gridId
  | .request (.buyHero grid gold) => GridSold cfg env h grid gold
  | .request .receiveDailyGamePrize => 0 ≤ h.info.gold + h.info.dailyGameGold
  | .exitGame msg => exitError h msg = .no →
    0 ≤ h.info.gold + msg.gold +
      ((paidTasks cfg (h.info.tasks.map (·.taskid)) msg.completeTasks).map (giftGold cfg)).sum
  | _ => True

theorem solventAfter_map {β γ : Type} (r : Option (DreamHero × β)) (f : DreamHero × β → γ) :
    SolventAfter (r.map fun x => (x.1, f x)) ↔ SolventAfter r := by
  cases r with
  | none => exact iff_of_false not_solventAfter_none not_solventAfter_none
  | some r => rw [Option.map_some, solventAfter_some, solventAfter_some]

theorem handleClient_solvent_iff (hprizes : PrizesNonNeg cfg) (hs : Solvent h) (ranks : RankManager)
    (req : ClientRequest) : SolventAfter (handleClient cfg env ranks h req) ↔ Covered cfg env h req := by
  cases req with
  | exitGame msg => exact (solventAfter_some _).trans (reqExitGame_solvent_iff hs msg)
  | updateDailyGameProgress msg =>
    exact iff_of_true ((solventAfter_some _).2 (reqUpdateDailyGameProgress_solvent hs _ ranks msg)) trivial
  | modifyNewTutorial flag => exact iff_of_true ((solventAfter_some _).2 (hs.of_eq rfl rfl)) trivial
  | modifyNotifyGridState state => exact iff_of_true ((solventAfter_some _).2 (hs.of_eq rfl rfl)) trivial
  | request req =>
    rw [handleClient, solventAfter_map]
    cases req with
    | unlockChapter chapterId =>
      exact iff_of_true ((solventAfter_some _).2 (reqUnlockChapter_solvent hs chapterId)) trivial
    | advertisementApplyTask gold => exact (solventAfter_some _).trans (refreshTask_solvent_iff hs 0 gold)
    | advertisementRefreshTask giveUpTaskId gold =>
      exact (solventAfter_some _).trans (refreshTask_solvent_iff hs giveUpTaskId gold)
    | relive => exact iff_of_true ((solventAfter_some _).2 (reqReliveReq_solvent hs)) trivial
    | modifyCurrentHero gridId => exact reqModifyCurrentHero_solvent_iff hs gridId
    | buyHero grid gold => exact reqBuyHero_solvent_iff hs grid gold
    | enterGame chapterId sectionId admin =>
      exact iff_of_true ((solventAfter_some _).2 (enterGame_solvent hs chapterId sectionId admin)) trivial
    | concernWeiXin cdKey =>
      exact iff_of_true ((solventAfter_some _).2 (reqConcernWeiXin_solvent hprizes hs cdKey)) trivial
    | buySpirit index => exact iff_of_true ((solventAfter_some _).2 (reqBuySpirit_solvent hs index)) trivial
    | receiveDailyGamePrize => exact (solventAfter_some _).trans (reqReceiveDailyGamePrize_solvent_iff hs)
    | dayLottery => exact iff_of_true ((solventAfter_some _).2 (reqDayLottery_solvent hprizes hs)) trivial
    | buyLotion lotionId => exact iff_of_true ((solventAfter_some _).2 (reqBuyLotion_solvent hs lotionId)) trivial
    | resetDailyGameProgress =>
      exact iff_of_true ((solventAfter_some _).2 (reqResetDailyGameProgress_solvent hs)) trivial

/-- a request, and what it finds at the server -/
structure ClientOp where
  env : Env
  ranks : RankManager
  req : ClientRequest

def clientStep (cfg : GameConfig) (s : Option DreamHero) (o : ClientOp) : Option DreamHero :=
  s.bind fun h => (handleClient cfg o.env o.ranks h o.req).map Prod.fst

/-- the state is a hero, and the hero is solvent -/
def SolventState (s : Option DreamHero) : Prop := ∃ h, s = some h ∧ Solvent h

def CoveredOp (cfg : GameConfig) (s : Option DreamHero) (o : ClientOp) : Prop :=
  ∀ h, s = some h → Covered cfg o.env h o.req

theorem solventState_step_iff (h : DreamHero) (o : ClientOp) :
    SolventState (clientStep cfg (some h) o) ↔ SolventAfter (handleClient cfg o.env o.ranks h o.req) := by
  simp only [clientStep, Option.bind_some]
  cases handleClient cfg o.env o.ranks h o.req with
  | none =>
    refine iff_of_false ?_ not_solventAfter_none
    rintro ⟨_, heq, _⟩
    cases heq
  | some r =>
    rw [solventAfter_some]
    simp [SolventState]

theorem clientStep_solvent_iff (hprizes : PrizesNonNeg cfg) {s : Option DreamHero} (hs : SolventState s)
    (o : ClientOp) :
    CoveredOp cfg s o ↔ SolventState (clientStep cfg s o) := by
  obtain ⟨h, rfl, hs⟩ := hs
  rw [solventState_step_iff, handleClient_solvent_iff hprizes hs]
  simp [CoveredOp]

/-- **Solvency.** From a solvent hero, and with a configuration that gives nothing negative, the hero stays solvent all
the way along a run of client requests if and only if every request of the run is covered. -/
theorem solvent_along_iff (cfg : GameConfig) (hprizes : PrizesNonNeg cfg) (h : DreamHero) (hgold : 0 ≤ h.info.gold)
    (hjewel : 0 ≤ h.info.jewel) (ops : List ClientOp) :
    Along (clientStep cfg) (CoveredOp cfg) (some h) ops ↔
      ∀ pre, pre <+: ops → SolventState (run (clientStep cfg) (some h) pre) :=
  along_iff (fun _ o _ hs => clientStep_solvent_iff hprizes hs o) ⟨h, rfl, hgold, hjewel⟩

/-- a hero with ten gold asks for a task at ten, and is relived -/
theorem solvent_along_task :
    let cfg : GameConfig := { globalConfig := { refreshTaskGold := 10, heroMaxTasksCount := 3 } }
    let h : DreamHero := { info := { gold := 10 } }
    let ranks : RankManager := { dailyMaxRankSize := 1, minDailyScore := 0 }
    let ops : List ClientOp := [⟨{}, ranks, .request (.advertisementApplyTask true)⟩, ⟨{}, ranks, .request .relive⟩]
    Along (clientStep cfg) (CoveredOp cfg) (some h) ops ↔
      ∀ pre, pre <+: ops → SolventState (run (clientStep cfg) (some h) pre) := by
  intro cfg h ranks ops
  exact solvent_along_iff cfg ⟨by decide, by decide⟩ h (by decide) (by decide) ops

/-- a task at ten gold is taken without the flag by a hero that has none -/
theorem unpaid_task :
    ¬ ∀ cfg : GameConfig, AmountsNonNeg cfg → ∀ h : DreamHero, 0 ≤ h.info.gold → 0 ≤ h.info.jewel →
      ∀ ops : List ClientOp, SolventState (run (clientStep cfg) (some h) ops) := by
  intro hall
  let cfg : GameConfig :=
    { globalConfig := { refreshTaskGold := 10, heroMaxTasksCount := 3 },
      tasks := Std.TreeMap.empty.insert 1 { taskid := 1 } }
  have hgift : ∀ id config, cfg.getMapTask id = some config → 0 ≤ config.giftGold := by
    intro id config hconfig
    simp only [cfg, GameConfig.getMapTask, get_insert] at hconfig
    split_ifs at hconfig
    · cases hconfig
      decide
    · simp at hconfig
  have hcfg : AmountsNonNeg cfg := by
    refine { lottery := by decide, weixin := by decide, refreshTask := by decide, relive := by decide, chapter := ?_,
             shop := ?_, spirit := ?_, lotion := ?_, gift := hgift, reset := by decide, dailyGame := by decide }
    all_goals
      intro _ _ hnone
      cases hnone
  obtain ⟨h', heq, hs⟩ := hall cfg hcfg {} (by decide) (by decide)
    [⟨{}, { dailyMaxRankSize := 1, minDailyScore := 0 }, .request (.advertisementApplyTask false)⟩]
  have hgold : (refreshTask cfg {} {} 0 false).1.info.gold = -10 := by decide
  obtain rfl : (refreshTask cfg {} {} 0 false).1 = h' := Option.some.inj heq
  have := hs.gold
  omega

end DreamHeroes.Hero.Requests

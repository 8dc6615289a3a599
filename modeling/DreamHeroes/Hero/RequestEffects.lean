/-
What a client request can do to the fields of a hero that remember an entry or a daily quota.

- `Marks`, `marks`: those fields.
- `Answer.entry`, `Answer.drawn`, `Answer.bought`, `Answer.reset`: the answers that say an entry, a lottery, a purchase
  of spirit or a reset of the daily game was accepted.
- `Effect`: what a request does, in seven cases. `handleClient_effect`: it does nothing else.
- `dayRefresh_marks`, `tryToGetGamePrize_marks` and the others: the same for what the server does.
- `Defined`: no access in front of a repeated field, which leaves no defined result (`handleClient_isSome_iff`).
-/
import Mathlib.Tactic
import DreamHeroes.Hero.Answers
import DreamHeroes.Hero.HeroRun

namespace DreamHeroes.Hero.Requests

open DreamHeroes.Config DreamHeroes.Rank

structure Marks where
  entry : ℤ × ℤ
  lastDayLotteryTime : ℕ
  dayBuySpirit : ℤ
  lastBuySpiritTime : ℕ
  dailyResetGameCount : ℤ
  lastDailyResetGameTime : ℕ
  dailyGameTime : ℕ
deriving DecidableEq, Repr

def marks (h : DreamHero) : Marks where
  entry := (h.currentChapter, h.currentSection)
  lastDayLotteryTime := h.lastDayLotteryTime
  dayBuySpirit := h.info.dayBuySpirit
  lastBuySpiritTime := h.lastBuySpiritTime
  dailyResetGameCount := h.info.dailyResetGameCount
  lastDailyResetGameTime := h.lastDailyResetGameTime
  dailyGameTime := h.dailyGameTime

/-! ## Accepted answers -/

def Answer.entry : Answer → Option (ℤ × ℤ)
  | .ack (.enterGame chapterId sectionId _ _ _ .no) => some (chapterId, sectionId)
  | _ => none

def Answer.exit : Answer → Option MsgS2CExitGameACK
  | .exitGame a => some a
  | _ => none

def Answer.drawn : Answer → Bool
  | .ack (.dayLottery _ _ _ _ _ _ _ .no) => true
  | _ => false

def Answer.bought : Answer → Bool
  | .ack (.buySpirit _ _ _ .no) => true
  | _ => false

def Answer.reset : Answer → Bool
  | .ack (.resetDailyGameProgress _ _ _ _ .no) => true
  | _ => false

/-- none of them -/
structure Answer.Plain (a : Answer) : Prop where
  entry : a.entry = none
  exit : a.exit = none
  drawn : a.drawn = false
  bought : a.bought = false
  reset : a.reset = false

/-! ## Effects -/

/-- the marks a request leaves, its answers, and the jewel that is spent -/
inductive Effect (cfg : GameConfig) (env : Env) (beginTime : ℕ) (h : DreamHero) (req : ClientRequest) :
    Marks → List Answer → ℤ → Prop
  | plain (answers : List Answer) (spent : ℤ) (hplain : ∀ a ∈ answers, a.Plain) :
    Effect cfg env beginTime h req (marks h) answers spent
  | enterGame (chapterId sectionId : ℤ) (a : Answer) (spent : ℤ) (hentry : a.entry = some (chapterId, sectionId))
      (hexit : a.exit = none) (hquota : a.drawn = false ∧ a.bought = false ∧ a.reset = false) :
    Effect cfg env beginTime h req { marks h with entry := (chapterId, sectionId) } [a] spent
  | exitGame (msg : MsgC2SReqExitGame) (ack : MsgS2CExitGameACK) (spent : ℤ) (hreq : req = .exitGame msg)
      (hids : (ack.chapterId, ack.sectionId) = (msg.chapterId, msg.sectionId))
      (haccepted : ack.error = .no →
        (marks h).entry = (msg.chapterId, msg.sectionId) ∧ (marks h).entry ≠ (-1, -1)) :
    Effect cfg env beginTime h req { marks h with entry := (-1, -1) } [.exitGame ack] spent
  /-- also when the box that is drawn is not a good one -/
  | dayLottery (a : Answer) (spent : ℤ) (hreq : req = .request .dayLottery)
      (htoday : cfg.today env.serverTime h.lastDayLotteryTime = false) (hentry : a.entry = none) (hexit : a.exit = none)
      (hquota : a.bought = false ∧ a.reset = false) :
    Effect cfg env beginTime h req { marks h with lastDayLotteryTime := u32 env.serverTime } [a] spent
  | buySpirit (a : Answer) (spent : ℤ) (hday : h.info.dayBuySpirit < cfg.globalConfig.configDayBuySpirit)
      (hentry : a.entry = none) (hexit : a.exit = none) (hquota : a.drawn = false ∧ a.reset = false) :
    Effect cfg env beginTime h req
      { marks h with dayBuySpirit := h.info.dayBuySpirit + 1, lastBuySpiritTime := u32 env.serverTime } [a] spent
  | resetDailyGame (a : Answer) (jewel : ℤ) (hreq : req = .request .resetDailyGameProgress)
      (htoday : cfg.today env.serverTime h.dailyGameTime = true)
      (hjewel : resetJewel cfg (nextResetCount cfg env h) = some jewel) (hentry : a.entry = none)
      (hexit : a.exit = none) (hquota : a.drawn = false ∧ a.bought = false) (hreset : a.reset = true) :
    Effect cfg env beginTime h req
      { marks h with
        dailyResetGameCount := nextResetCount cfg env h, lastDailyResetGameTime := u32 env.serverTime } [a] jewel
  | beginPeriod (msg : MsgC2SReqUpdateDailyGameProgress) (a : Answer) (spent : ℤ)
      (hreq : req = .updateDailyGameProgress msg) (hbegin : beginTime ≠ h.dailyGameTime) (hplain : a.Plain) :
    Effect cfg env beginTime h req { marks h with dailyGameTime := beginTime, dailyResetGameCount := 0 } [a] spent

variable {cfg : GameConfig} {env : Env} {beginTime : ℕ} {h : DreamHero} {req : ClientRequest}

/-- a request that leaves the marks alone and gives a plain answer -/
theorem Effect.of_plain {m : Marks} {a : Answer} {spent : ℤ} (hm : m = marks h) (hplain : a.Plain) :
    Effect cfg env beginTime h req m [a] spent := by
  subst hm
  refine .plain [a] spent ?_
  intro b hb
  rw [List.mem_singleton] at hb
  exact hb ▸ hplain

/-! ## One request -/

theorem reqUnlockChapter_effect (chapterId spent : ℤ) :
    Effect cfg env beginTime h req (marks (reqUnlockChapter cfg h chapterId).1)
      ((reqUnlockChapter cfg h chapterId).2.map .ack) spent := by
  rw [reqUnlockChapter]
  cases cfg.getChapterConfigInfo chapterId with
  | none => exact .of_plain rfl ⟨rfl, rfl, rfl, rfl, rfl⟩
  | some infoConfig =>
    dsimp only
    split
    · exact .of_plain rfl ⟨rfl, rfl, rfl, rfl, rfl⟩
    · cases unlockLoop infoConfig chapterId h.info.records .unlockChapterFailedTheRequiredSectionNotPass with
      | none => exact .plain [] spent (by simp)
      | some enError =>
        cases enError with
        | no =>
          dsimp only
          split <;> exact .of_plain rfl ⟨rfl, rfl, rfl, rfl, rfl⟩
        | _ => exact .of_plain rfl ⟨rfl, rfl, rfl, rfl, rfl⟩

variable (cfg env h) in
theorem prepareTask_marks (giveUpTaskId : ℤ) (gold : Bool) :
    marks (prepareTask cfg env h giveUpTaskId gold).1 = marks h := by
  rw [prepareTask]
  cases refreshTaskError cfg env h gold with
  | no =>
    rw [giveUpTask]
    split_ifs
    · simp only [countTask]
      split_ifs <;> rfl
    · simp only [countTask]
      split_ifs <;> rfl
    · rfl
  | _ => rfl

theorem refreshTask_effect (giveUpTaskId spent : ℤ) (gold : Bool) :
    Effect cfg env beginTime h req (marks (refreshTask cfg env h giveUpTaskId gold).1)
      ((refreshTask cfg env h giveUpTaskId gold).2.map .ack) spent := by
  have hmarks := prepareTask_marks cfg env h giveUpTaskId gold
  rw [refreshTask]
  split_ifs <;> exact .of_plain hmarks ⟨rfl, rfl, rfl, rfl, rfl⟩

theorem reqReliveReq_effect (spent : ℤ) :
    Effect cfg env beginTime h req (marks (reqReliveReq cfg h).1) ((reqReliveReq cfg h).2.map .ack) spent := by
  rw [reqReliveReq]
  split <;> exact .of_plain rfl ⟨rfl, rfl, rfl, rfl, rfl⟩

theorem reqModifyCurrentHero_effect {gridId spent : ℤ} {r : DreamHero × List Ack}
    (hr : reqModifyCurrentHero h gridId = some r) :
    Effect cfg env beginTime h req (marks r.1) (r.2.map .ack) spent := by
  rw [reqModifyCurrentHero] at hr
  split_ifs at hr
  all_goals
    cases hr
    exact .of_plain rfl ⟨rfl, rfl, rfl, rfl, rfl⟩

theorem reqBuyHero_effect {grid gold spent : ℤ} {r : DreamHero × List Ack}
    (hr : reqBuyHero cfg env h grid gold = some r) :
    Effect cfg env beginTime h req (marks r.1) (r.2.map .ack) spent := by
  simp only [reqBuyHero] at hr
  cases hconfig : cfg.getShopConfig grid with
  | none =>
    rw [hconfig] at hr
    cases hr
    exact .of_plain rfl ⟨rfl, rfl, rfl, rfl, rfl⟩
  | some config =>
    rw [hconfig] at hr
    dsimp only at hr
    split_ifs at hr
    · cases hr
      exact .of_plain rfl ⟨rfl, rfl, rfl, rfl, rfl⟩
    · cases hr
      exact .of_plain rfl ⟨rfl, rfl, rfl, rfl, rfl⟩
    · cases hr
      exact .of_plain rfl ⟨rfl, rfl, rfl, rfl, rfl⟩
    · obtain ⟨heroes, -, rfl⟩ := Option.map_eq_some_iff.1 hr
      exact .of_plain rfl ⟨rfl, rfl, rfl, rfl, rfl⟩

theorem enterGame_effect (chapterId sectionId spent : ℤ) (admin : Bool) :
    Effect cfg env beginTime h req (marks (enterGame cfg h chapterId sectionId admin).1)
      ((enterGame cfg h chapterId sectionId admin).2.map .ack) spent := by
  simp only [enterGame]
  split_ifs
  · exact .of_plain rfl ⟨rfl, rfl, rfl, rfl, rfl⟩
  · exact .enterGame chapterId sectionId _ spent rfl rfl ⟨rfl, rfl, rfl⟩

theorem reqConcernWeiXin_effect (cdKey : String) (spent : ℤ) :
    Effect cfg env beginTime h req (marks (reqConcernWeiXin cfg h cdKey).1) ((reqConcernWeiXin cfg h cdKey).2.map .ack)
      spent := by
  simp only [reqConcernWeiXin]
  split_ifs <;> exact .of_plain rfl ⟨rfl, rfl, rfl, rfl, rfl⟩

theorem reqBuySpirit_effect (index spent : ℤ) :
    Effect cfg env beginTime h req (marks (reqBuySpirit cfg env h index).1) ((reqBuySpirit cfg env h index).2.map .ack)
      spent := by
  simp only [reqBuySpirit]
  split
  case isTrue => exact .of_plain rfl ⟨rfl, rfl, rfl, rfl, rfl⟩
  case isFalse hday =>
    cases cfg.getSpiritShop index with
    | none => exact .of_plain rfl ⟨rfl, rfl, rfl, rfl, rfl⟩
    | some configInfo =>
      dsimp only
      split
      · exact .buySpirit _ spent (not_le.1 hday) rfl rfl ⟨rfl, rfl⟩
      · exact .of_plain rfl ⟨rfl, rfl, rfl, rfl, rfl⟩

theorem reqReceiveDailyGamePrize_effect (spent : ℤ) :
    Effect cfg env beginTime h req (marks (reqReceiveDailyGamePrize h).1) ((reqReceiveDailyGamePrize h).2.map .ack)
      spent := by
  rw [reqReceiveDailyGamePrize]
  split <;> exact .of_plain rfl ⟨rfl, rfl, rfl, rfl, rfl⟩

theorem reqBuyLotion_effect (lotionId spent : ℤ) :
    Effect cfg env beginTime h req (marks (reqBuyLotion cfg h lotionId).1) ((reqBuyLotion cfg h lotionId).2.map .ack)
      spent := by
  simp only [reqBuyLotion]
  split
  · cases cfg.getLotionShop lotionId with
    | none => exact .of_plain rfl ⟨rfl, rfl, rfl, rfl, rfl⟩
    | some shopConfig =>
      obtain ⟨useType, useCount⟩ := shopConfig
      cases useType with
      | _ =>
        dsimp only
        split_ifs <;> exact .of_plain rfl ⟨rfl, rfl, rfl, rfl, rfl⟩
  · exact .of_plain rfl ⟨rfl, rfl, rfl, rfl, rfl⟩

theorem lotteryPrize_effect {t : ℕ} (hnow : t = u32 env.serverTime)
    (htoday : cfg.today env.serverTime h.lastDayLotteryTime = false) (entry : LotteryDrawBoxConfig) (spent : ℤ) :
    Effect cfg env beginTime h (.request .dayLottery)
      (marks (lotteryPrize env { h with lastDayLotteryTime := t } entry).1)
      ((lotteryPrize env { h with lastDayLotteryTime := t } entry).2.map .ack) spent := by
  subst hnow
  simp only [lotteryPrize]
  cases entry.lotteryType with
  | lotion =>
    dsimp only
    split <;> exact .dayLottery _ spent rfl htoday rfl rfl ⟨rfl, rfl⟩
  | _ => exact .dayLottery _ spent rfl htoday rfl rfl ⟨rfl, rfl⟩

theorem reqDayLottery_effect (spent : ℤ) :
    Effect cfg env beginTime h (.request .dayLottery) (marks (reqDayLottery cfg env h).1)
      ((reqDayLottery cfg env h).2.map .ack) spent := by
  simp only [reqDayLottery]
  split
  case isTrue htoday =>
    cases lotteryBoxes cfg h with
    | nil => exact .of_plain rfl ⟨rfl, rfl, rfl, rfl, rfl⟩
    | cons entry boxes =>
      dsimp only
      split
      · exact lotteryPrize_effect rfl htoday _ spent
      · exact .of_plain rfl ⟨rfl, rfl, rfl, rfl, rfl⟩
  case isFalse => exact .of_plain rfl ⟨rfl, rfl, rfl, rfl, rfl⟩

theorem reqResetDailyGameProgress_effect :
    Effect cfg env beginTime h (.request .resetDailyGameProgress) (marks (reqResetDailyGameProgress cfg env h).1)
      ((reqResetDailyGameProgress cfg env h).2.map .ack)
      (h.info.jewel - (reqResetDailyGameProgress cfg env h).1.info.jewel) := by
  simp only [reqResetDailyGameProgress]
  split
  case isTrue => exact .of_plain rfl ⟨rfl, rfl, rfl, rfl, rfl⟩
  case isFalse htest =>
    rw [not_or, Bool.not_eq_false] at htest
    cases hjewel : resetJewel cfg (nextResetCount cfg env h) with
    | none => exact .of_plain rfl ⟨rfl, rfl, rfl, rfl, rfl⟩
    | some jewel =>
      dsimp only
      split_ifs
      · exact .of_plain rfl ⟨rfl, rfl, rfl, rfl, rfl⟩
      · have hspent : h.info.jewel - (h.info.jewel - jewel) = jewel := by omega
        rw [hspent]
        exact .resetDailyGame _ jewel rfl htest.1 hjewel rfl rfl ⟨rfl, rfl⟩ rfl
      · exact .of_plain rfl ⟨rfl, rfl, rfl, rfl, rfl⟩

theorem reqExitGame_effect (msg : MsgC2SReqExitGame) (spent : ℤ) :
    Effect cfg env beginTime h (.exitGame msg) (marks (reqExitGame cfg h msg).1) [.exitGame (reqExitGame cfg h msg).2]
      spent := by
  have hids : (reqExitGame cfg h msg).2.chapterId = msg.chapterId ∧ (reqExitGame cfg h msg).2.sectionId =
    msg.sectionId := by
    rw [reqExitGame]
    cases exitError h msg <;> exact ⟨rfl, rfl⟩
  have hmarks : marks (reqExitGame cfg h msg).1 = { marks h with entry := (-1, -1) } := by
    by_cases hno : exitError h msg = .no
    · rw [reqExitGame_accepted hno]
      rfl
    · rw [reqExitGame_rejected hno]
      rfl
  rw [hmarks]
  refine .exitGame msg _ spent rfl (Prod.ext hids.1 hids.2) ?_
  intro hno
  rw [reqExitGame_error] at hno
  obtain ⟨hchapter, hsection, hsentinel, -⟩ := exitError_eq_no hno
  rw [hchapter, hsection]
  exact ⟨rfl, fun heq => hsentinel (by simpa [marks, Prod.ext_iff] using heq)⟩

theorem reqUpdateDailyGameProgress_marks (serverTime : ℕ) (ranks : RankManager)
    (msg : MsgC2SReqUpdateDailyGameProgress) :
    marks (reqUpdateDailyGameProgress serverTime ranks h msg).1 = marks (beginDailyGame ranks h) := by
  rw [reqUpdateDailyGameProgress]
  cases updateProgressError ranks (beginDailyGame ranks h) msg <;> rfl

theorem reqUpdateDailyGameProgress_effect (serverTime : ℕ) (ranks : RankManager)
    (msg : MsgC2SReqUpdateDailyGameProgress) (spent : ℤ) :
    Effect cfg env ranks.dailyGameBeginTime h (.updateDailyGameProgress msg)
      (marks (reqUpdateDailyGameProgress serverTime ranks h msg).1)
      [.updateDailyGameProgress (reqUpdateDailyGameProgress serverTime ranks h msg).2.2] spent := by
  rw [reqUpdateDailyGameProgress_marks, beginDailyGame]
  split
  case isTrue hbegin => exact .beginPeriod msg _ spent rfl hbegin ⟨rfl, rfl, rfl, rfl, rfl⟩
  case isFalse => exact .of_plain rfl ⟨rfl, rfl, rfl, rfl, rfl⟩

/-- **What a request can do.** -/
theorem handleClient_effect {ranks : RankManager} {req : ClientRequest} {h' : DreamHero} {ranks' : RankManager}
    {answers : List Answer} (hr : handleClient cfg env ranks h req = some (h', ranks', answers)) :
    Effect cfg env ranks.dailyGameBeginTime h req (marks h') answers (h.info.jewel - h'.info.jewel) := by
  cases req with
  | exitGame msg =>
    cases hr
    exact reqExitGame_effect msg _
  | updateDailyGameProgress msg =>
    cases hr
    exact reqUpdateDailyGameProgress_effect env.serverTime ranks msg _
  | modifyNewTutorial flag =>
    cases hr
    exact .of_plain rfl ⟨rfl, rfl, rfl, rfl, rfl⟩
  | modifyNotifyGridState state =>
    cases hr
    exact .of_plain rfl ⟨rfl, rfl, rfl, rfl, rfl⟩
  | request req =>
    obtain ⟨r, hreq, heq⟩ := Option.map_eq_some_iff.1 hr
    cases heq
    cases req with
    | unlockChapter chapterId =>
      cases hreq
      exact reqUnlockChapter_effect chapterId _
    | advertisementApplyTask gold =>
      cases hreq
      exact refreshTask_effect 0 _ gold
    | advertisementRefreshTask giveUpTaskId gold =>
      cases hreq
      exact refreshTask_effect giveUpTaskId _ gold
    | relive =>
      cases hreq
      exact reqReliveReq_effect _
    | modifyCurrentHero gridId => exact reqModifyCurrentHero_effect hreq
    | buyHero grid gold => exact reqBuyHero_effect hreq
    | enterGame chapterId sectionId admin =>
      cases hreq
      exact enterGame_effect chapterId sectionId _ admin
    | concernWeiXin cdKey =>
      cases hreq
      exact reqConcernWeiXin_effect cdKey _
    | buySpirit index =>
      cases hreq
      exact reqBuySpirit_effect index _
    | receiveDailyGamePrize =>
      cases hreq
      exact reqReceiveDailyGamePrize_effect _
    | dayLottery =>
      cases hreq
      exact reqDayLottery_effect _
    | buyLotion lotionId =>
      cases hreq
      exact reqBuyLotion_effect lotionId _
    | resetDailyGameProgress =>
      cases hreq
      exact reqResetDailyGameProgress_effect

/-- no negative grid reaches the list of the heroes -/
def Defined (cfg : GameConfig) (env : Env) (h : DreamHero) : ClientRequest → Prop
  | .request (.modifyCurrentHero gridId) => 0 ≤ gridId
  | .request (.buyHero grid gold) => GridSold cfg env h grid gold
  | _ => True

theorem handleClient_isSome_iff (ranks : RankManager) :
    (handleClient cfg env ranks h req).isSome = true ↔ Defined cfg env h req := by
  cases req with
  | request req =>
    rw [handleClient, Option.isSome_map]
    cases req with
    | modifyCurrentHero gridId =>
      rw [handle, Defined, reqModifyCurrentHero]
      split_ifs with hlen hneg
      · simp [hneg]
      · simp [not_lt.1 hneg]
      · simp [not_lt.1 hneg]
      · simp only [Option.isSome_some, true_iff]
        omega
    | buyHero grid gold => exact reqBuyHero_isSome_iff cfg env h grid gold
    | _ => exact iff_of_true rfl trivial
  | _ => exact iff_of_true rfl trivial

/-! ## The server and the game masters -/

theorem refreshTasks_marks : marks (refreshTasks cfg env h) = marks h := by
  simp only [refreshTasks]
  split_ifs <;> rfl

theorem dayRefresh_marks :
    marks (dayRefresh cfg env h) =
      { marks h with dayBuySpirit := if canRefresh cfg env h.lastBuySpiritTime then 0 else h.info.dayBuySpirit } := by
  have hfirst : marks (if canRefresh cfg env h.lastTaskAdvertisementTime then refreshTasks cfg env h else h) =
    marks h := by
    split_ifs
    · exact refreshTasks_marks
    · rfl
  rw [dayRefresh]
  generalize (if canRefresh cfg env h.lastTaskAdvertisementTime then refreshTasks cfg env h else h) = h1 at hfirst
  have hlast : h1.lastBuySpiritTime = h.lastBuySpiritTime := congrArg Marks.lastBuySpiritTime hfirst
  dsimp only
  split_ifs with hspirit hspirit' hspirit'
  · rw [← hfirst]
    rfl
  · exact absurd (hlast ▸ hspirit) hspirit'
  · exact absurd (hlast ▸ hspirit') hspirit
  · exact hfirst

theorem tryToGetGamePrize_marks (serverRankTime : ℕ) : marks (tryToGetGamePrize cfg serverRankTime h) = marks h := by
  simp only [tryToGetGamePrize]
  split_ifs <;> rfl

/-- the game time is not among the marks an entry or a quota rests on by itself -/
theorem dailyGamePrize_marks (gold : ℤ) :
    marks (dailyGamePrize h gold) = { marks h with dailyGameTime := (dailyGamePrize h gold).dailyGameTime } := by
  rw [dailyGamePrize]
  split_ifs <;> rfl

/-- the commands that set a quota back, or make the hero anew, are there to do so -/
def Command.KeepsMarks : Command → Prop
  | .resetDailyLottery | .resetDailyGame | .resetGame _ => False
  | _ => True

theorem replaceTasks_marks (taskCount : ℕ) : marks (replaceTasks cfg env h taskCount) = marks h := by
  obtain ⟨tasks, htasks⟩ := replaceTasks_tasks cfg env h taskCount
  rw [htasks]
  rfl

theorem command_marks {cmd : Command} (hcmd : h.gmLevel > 0 → cmd.KeepsMarks) :
    marks (command cfg env h cmd) = marks h := by
  rw [command]
  split
  case isTrue hlevel =>
    cases cmd with
    | resetDailyLottery => exact (hcmd hlevel).elim
    | resetDailyGame => exact (hcmd hlevel).elim
    | resetGame name => exact (hcmd hlevel).elim
    | replaceTask taskCount => exact replaceTasks_marks _
    | _ => rfl
  case isFalse => rfl

/-- a command leaves the entry alone, or makes the hero anew -/
theorem command_entry (cmd : Command) :
    (marks (command cfg env h cmd)).entry = (marks h).entry ∨ (marks (command cfg env h cmd)).entry = (0, 0) := by
  rw [command]
  split
  · cases cmd with
    | resetGame name => exact .inr rfl
    | replaceTask taskCount => exact .inl (congrArg Marks.entry (replaceTasks_marks _))
    | _ => exact .inl rfl
  · exact .inl rfl

/-- a hero that is loaded -/
theorem setInfo_marks (spiritRecovery : ℕ → ℕ → ℤ × ℕ) (serverTime beginTime : ℕ) (info : MsgHeroDataDB2GS)
    (channel : ℤ) :
    marks (setInfo cfg spiritRecovery serverTime beginTime info channel) =
      { entry := (info.currentChapter, info.currentSection), lastDayLotteryTime := info.lastLotteryTime,
        dayBuySpirit := info.data.dayBuySpirit, lastBuySpiritTime := info.lastBuySpiritTime,
        dailyResetGameCount := if beginTime ≠ info.dailyGameTime then 0 else info.data.dailyResetGameCount,
        lastDailyResetGameTime := info.lastDailyResetGameTime, dailyGameTime := info.dailyGameTime } := by
  simp only [setInfo, tryToGetGamePrize_marks, newDailyGame, recoverOffline]
  split_ifs <;> rfl

end DreamHeroes.Hero.Requests

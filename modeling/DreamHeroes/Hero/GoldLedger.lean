/-
The gold of a hero and the rows of `modify_gold_record`: what each operation changes, and what it writes down.

- `GoldRow`, `goldModifyRecord` and the record functions that call it (`gameserver/RecordManager.cpp`).
- `exitGameRows` and the others: the rows of an operation, with the amounts its call site computes.
- `Running`, `GoldLedger`: each row is a signed change with the balance after it, and the rows add up to the change.
- `Operation`, `perform`, `Exact`: the nine operations, and when the rows of each are right.
- `gold_ledger_iff`: they are right exactly then. A sale is written as old minus new, the leaving of an instance repeats
  the sum of the two rows before it, the prize of the daily game is written as the new balance, and a task that is taken
  without the flag is written as free. `prize_row_wrong` is a prize.

The time of a row is left out.
-/
import Mathlib.Tactic
import DreamHeroes.Hero.ChapterProgress
import DreamHeroes.Hero.Deals
import DreamHeroes.Hero.HeroGrid
import DreamHeroes.Hero.TaskPrice

namespace DreamHeroes.Hero.Ledger

open DreamHeroes.Config DreamHeroes.Hero.Requests DreamHeroes.Hero.Grid

/-! ## The record functions -/

inductive GoldModifyType where
  | leaveGame
  | killMonster
  | completeTask
  | unlockChapter
  | buyHero
  | buyGold
  | acceptTask
  | reliveRecord
  | dailyGameReward
  | dailyLottery
  | dailyConcernWeiXin
deriving DecidableEq, Repr

structure GoldRow where
  account : ℕ
  nickName : String
  gold : ℤ
  currentGold : ℤ
  modifyType : GoldModifyType
deriving DecidableEq, Repr

/-- `h` has the account and the name -/
def goldModifyRecord (h : DreamHero) (gold currentGold : ℤ) (en : GoldModifyType) : List GoldRow :=
  [{ account := h.account, nickName := h.info.name, gold := gold, currentGold := currentGold, modifyType := en }]

def dailyLotteryRecord (h : DreamHero) (gold currentGold : ℤ) : List GoldRow :=
  if gold ≠ 0 then goldModifyRecord h gold currentGold .dailyLottery else []

def dailyGameRewardRecord (h : DreamHero) (dailyGold currentGold : ℤ) : List GoldRow :=
  if dailyGold ≠ 0 then goldModifyRecord h dailyGold currentGold .dailyGameReward else []

def chapterUnlockRecord (h : DreamHero) (gold currentGold : ℤ) : List GoldRow :=
  goldModifyRecord h gold currentGold .unlockChapter

def buyHeroRecord (h : DreamHero) (gold currentGold : ℤ) : List GoldRow := goldModifyRecord h gold currentGold .buyHero

/-! ## The call sites -/

/-- the error of the answer is `Error_NO` -/
def answeredNo (acks : List Ack) : Bool := acks.any fun ack => ack.error = .no

variable (cfg : GameConfig) (env : Env) (deals : Deals.Env) (h : DreamHero)

/-- `all_task_gold`; a task that is not paid has the gift 0 in the answer -/
def allTaskGold (msg : MsgC2SReqExitGame) : ℤ := ((settle cfg h msg).2.map Prod.snd).sum

def exitGameRows (msg : MsgC2SReqExitGame) : List GoldRow :=
  let r := reqExitGame cfg h msg
  if r.2.error = .no then
    let goldModifyLeaveRecord := r.1.info.gold - h.info.gold
    let monsterGold := goldModifyLeaveRecord - allTaskGold cfg h msg
    goldModifyRecord r.1 monsterGold (r.1.info.gold - allTaskGold cfg h msg) .killMonster ++
      goldModifyRecord r.1 (allTaskGold cfg h msg) r.1.info.gold .completeTask ++
      goldModifyRecord r.1 goldModifyLeaveRecord r.1.info.gold .leaveGame
  else []

/-- the row of the records `RefreshTask` makes -/
def taskRow : TaskRecord → Option GoldRow
  | .goldModify account nickName gold currentGold =>
    some { account := account, nickName := nickName, gold := gold, currentGold := currentGold,
           modifyType := .acceptTask }
  | _ => none

def refreshTaskRows (giveUpTaskId : ℤ) (gold : Bool) : List GoldRow :=
  (refreshTaskRecords cfg env h giveUpTaskId gold).filterMap taskRow

def reliveRows : List GoldRow :=
  let r := reqReliveReq cfg h
  if h.info.gold ≥ cfg.globalConfig.reliveGold then
    goldModifyRecord r.1 (-cfg.globalConfig.reliveGold) r.1.info.gold .reliveRecord
  else []

def unlockChapterRows (chapterId : ℤ) : List GoldRow :=
  let r := reqUnlockChapter cfg h chapterId
  if answeredNo r.2 then chapterUnlockRecord r.1 (h.info.gold - r.1.info.gold) r.1.info.gold else []

/-- `r` is what the purchase has left and answered -/
def buyHeroRows (r : DreamHero × List Ack) : List GoldRow :=
  if answeredNo r.2 then buyHeroRecord r.1 (h.info.gold - r.1.info.gold) r.1.info.gold else []

def receiveDailyGamePrizeRows : List GoldRow :=
  if h.info.dailyGameGold = 0 then []
  else
    let gold := h.info.gold + h.info.dailyGameGold
    let r := reqReceiveDailyGamePrize h
    dailyGameRewardRecord r.1 gold r.1.info.gold

/-- `add_gold` of the lottery -/
def lotteryGold (entry : LotteryDrawBoxConfig) : ℤ :=
  match entry.lotteryType with
  | .gold => entry.baseCount + if entry.randomCount > 0 then env.rand 1 % entry.randomCount else 0
  | _ => 0

/-- a row only when a box has been drawn -/
def dayLotteryRows : List GoldRow :=
  if cfg.today env.serverTime h.lastDayLotteryTime = false then
    match lotteryBoxes cfg h with
    | [] => []
    | entry :: boxes =>
      let (mapRandomLottery, rating) := ratedBoxes (entry :: boxes)
      if rating > 0 then
        let r := reqDayLottery cfg env h
        dailyLotteryRecord r.1 (lotteryGold env (drawBox entry mapRandomLottery (env.rand 0 % rating))) r.1.info.gold
      else []
  else []

def concernWeiXinRows (cdKey : String) : List GoldRow :=
  let r := reqConcernWeiXin cfg h cdKey
  if answeredNo r.2 then
    goldModifyRecord r.1 cfg.globalConfig.configWeixinGold r.1.info.gold .dailyConcernWeiXin else []

/-- the type is that of a purchase of a hero -/
def dealPayRows (r : Deals.PayResult) : List GoldRow :=
  if r.error = .no then goldModifyRecord r.hero r.addGold r.hero.info.gold .buyHero else []

/-! ## The ledger -/

/-- from a balance on, each row has the balance after its own change -/
def Running : ℤ → List GoldRow → Prop
  | _, [] => True
  | gold, row :: rows => row.currentGold = gold + row.gold ∧ Running row.currentGold rows

structure GoldLedger (before : ℤ) (rows : List GoldRow) (after : ℤ) : Prop where
  running : Running before rows
  total : (rows.map (·.gold)).sum = after - before

inductive Operation where
  | exitGame (msg : MsgC2SReqExitGame)
  | refreshTask (giveUpTaskId : ℤ) (gold : Bool)
  | relive
  | unlockChapter (chapterId : ℤ)
  | buyHero (grid gold : ℤ)
  | receiveDailyGamePrize
  | dayLottery
  | concernWeiXin (cdKey : String)
  | addDealPay (keyCode : String) (status orderId : ℤ) (error : Deals.GameError)

/-- the hero and the rows; `none` is an index outside of the list of the heroes -/
def perform : Operation → Option (DreamHero × List GoldRow)
  | .exitGame msg => some ((reqExitGame cfg h msg).1, exitGameRows cfg h msg)
  | .refreshTask giveUpTaskId gold =>
    some ((refreshTask cfg env h giveUpTaskId gold).1, refreshTaskRows cfg env h giveUpTaskId gold)
  | .relive => some ((reqReliveReq cfg h).1, reliveRows cfg h)
  | .unlockChapter chapterId => some ((reqUnlockChapter cfg h chapterId).1, unlockChapterRows cfg h chapterId)
  | .buyHero grid gold => (buyHero cfg env h grid gold).map fun r => (r.1, buyHeroRows h r)
  | .receiveDailyGamePrize => some ((reqReceiveDailyGamePrize h).1, receiveDailyGamePrizeRows h)
  | .dayLottery => some ((reqDayLottery cfg env h).1, dayLotteryRows cfg env h)
  | .concernWeiXin cdKey => some ((reqConcernWeiXin cfg h cdKey).1, concernWeiXinRows cfg h cdKey)
  | .addDealPay keyCode status orderId error =>
    let r := Deals.addDealPay deals env.serverTime h keyCode status orderId error
    some (r.hero, dealPayRows r)

def LedgerRight (op : Operation) : Prop :=
  ∀ h' rows, perform cfg env deals h op = some (h', rows) → GoldLedger h.info.gold rows h'.info.gold

/-- - An exit is rejected or leaves the gold as it was.
- A task is taken with the flag, or for nothing.
- A chapter or a hero is not sold, or for nothing.
- There is no prize of the daily game, or the hero has no gold. -/
def Exact : Operation → Prop
  | .exitGame msg =>
    exitError h msg = .no →
      max h.info.gold 0 + msg.gold +
      ((paidTasks cfg (taskIds h) msg.completeTasks).map (giftGold cfg)).sum = h.info.gold
  | .refreshTask giveUpTaskId gold =>
    TaskTaken cfg env h giveUpTaskId gold → gold = true ∨ cfg.globalConfig.refreshTaskGold = 0
  | .unlockChapter chapterId => ∀ config, Unlocks cfg h chapterId config → config.requireGold = 0
  | .buyHero grid gold => buyAccepted cfg env h grid gold = true → 0 ≤ grid → grid + 2 ≤ intMax → gold = 0
  | .receiveDailyGamePrize => h.info.dailyGameGold = 0 ∨ h.info.gold = 0
  | _ => True

/-! ## Rows -/

variable {cfg env deals h}

theorem ledger_none {before after : ℤ} : GoldLedger before [] after ↔ after = before := by
  constructor
  · intro hledger
    have htotal := hledger.total
    simp at htotal
    omega
  · rintro rfl
    exact ⟨trivial, by simp⟩

theorem ledger_one (h' : DreamHero) (gold : ℤ) (en : GoldModifyType) {before after : ℤ} :
    GoldLedger before (goldModifyRecord h' gold after en) after ↔ after = before + gold := by
  constructor
  · intro hledger
    exact hledger.running.1
  · intro hafter
    refine ⟨⟨hafter, trivial⟩, ?_⟩
    simp [goldModifyRecord, hafter]

/-- a row that is only written when there is something to write -/
theorem ledger_nonzero (h' : DreamHero) (gold : ℤ) (en : GoldModifyType) {before after : ℤ}
    (hafter : after = before + gold) :
    GoldLedger before (if gold ≠ 0 then goldModifyRecord h' gold after en else []) after := by
  by_cases hgold : gold = 0
  · rw [if_neg (not_not.2 hgold), ledger_none, hafter, hgold, add_zero]
  · rw [if_pos hgold]
    exact (ledger_one h' gold en).2 hafter

/-- old minus new is right only when nothing has changed -/
theorem ledger_reversed_iff (h' : DreamHero) (en : GoldModifyType) (written : Bool) {before after : ℤ} :
    GoldLedger before (if written then goldModifyRecord h' (before - after) after en else []) after ↔
      after = before := by
  cases written with
  | false => simpa using ledger_none
  | true =>
    rw [if_pos rfl, ledger_one]
    omega

theorem ledgerRight_some {op : Operation} {r : DreamHero × List GoldRow} (hr : perform cfg env deals h op = some r) :
    LedgerRight cfg env deals h op ↔ GoldLedger h.info.gold r.2 r.1.info.gold := by
  simp only [LedgerRight, hr, Option.some.injEq]
  exact ⟨fun hright => hright r.1 r.2 rfl, fun hledger h' rows heq => by subst heq; exact hledger⟩

/-! ## The operations -/

/-- the first two rows add up to the change, and the third is the change again -/
theorem exitGame_ledger_iff (msg : MsgC2SReqExitGame) :
    GoldLedger h.info.gold (exitGameRows cfg h msg) (reqExitGame cfg h msg).1.info.gold ↔
      Exact cfg env h (.exitGame msg) := by
  rw [exitGameRows, Exact, reqExitGame_error]
  by_cases hno : exitError h msg = .no
  · have hgold : (reqExitGame cfg h msg).1.info.gold = max h.info.gold 0 + msg.gold +
        ((paidTasks cfg (taskIds h) msg.completeTasks).map (giftGold cfg)).sum := by
      rw [reqExitGame_accepted hno]
      exact settle_gold cfg h msg
    simp only [hno, if_true, true_imp_iff, ← hgold]
    generalize (reqExitGame cfg h msg).1.info.gold = after
    constructor
    · intro hledger
      have htotal := hledger.total
      simp [goldModifyRecord] at htotal
      omega
    · rintro rfl
      refine ⟨⟨?_, ?_, ?_, trivial⟩, ?_⟩
      · ring
      · ring
      · ring
      · simp [goldModifyRecord]
  · rw [reqExitGame_rejected hno, if_neg hno, ledger_none]
    exact iff_of_true rfl fun hno' => absurd hno' hno

theorem refreshTaskRows_eq (giveUpTaskId : ℤ) (gold : Bool) :
    refreshTaskRows cfg env h giveUpTaskId gold =
      let prepared := prepareTask cfg env h giveUpTaskId gold
      let infoTaskConfig := radnomTaskInfo cfg env prepared.1 giveUpTaskId
      if infoTaskConfig.taskid ≠ 0 ∧ prepared.2 = .no then
        goldModifyRecord prepared.1 (-(if gold then cfg.globalConfig.refreshTaskGold else 0))
          (prepared.1.info.gold - cfg.globalConfig.refreshTaskGold) .acceptTask
      else [] := by
  have hgiveUp (account : ℕ) (nickName : String) :
      (if giveUpTaskId ≠ 0 then [TaskRecord.taskGiveUp account nickName giveUpTaskId]
        else []).filterMap taskRow = [] := by
    split_ifs <;> simp [taskRow]
  simp only [refreshTaskRows, refreshTaskRecords, List.filterMap_append, hgiveUp, List.append_nil]
  split_ifs <;> simp [taskRow, goldModifyRecord]

theorem refreshTask_ledger_iff (giveUpTaskId : ℤ) (gold : Bool) :
    GoldLedger h.info.gold (refreshTaskRows cfg env h giveUpTaskId gold)
        (refreshTask cfg env h giveUpTaskId gold).1.info.gold ↔
      Exact cfg env h (.refreshTask giveUpTaskId gold) := by
  have hprepared := (prepareTask_purse cfg env h giveUpTaskId gold).1
  obtain ⟨htaken, hnot, -⟩ := refreshTask_purse cfg env h giveUpTaskId gold
  rw [refreshTaskRows_eq, Exact]
  by_cases ht : TaskTaken cfg env h giveUpTaskId gold
  · simp only [taskTaken_iff, ht, if_true, true_imp_iff, hprepared, htaken ht, ledger_one]
    cases gold with
    | true => simp [sub_eq_add_neg]
    | false => simp
  · simp only [taskTaken_iff, ht, if_false, false_imp_iff, hnot ht, ledger_none]

theorem relive_ledger : GoldLedger h.info.gold (reliveRows cfg h) (reqReliveReq cfg h).1.info.gold := by
  rw [reliveRows, reqReliveReq]
  split_ifs
  · exact (ledger_one _ _ _).2 (by ring)
  · exact ledger_none.2 rfl

theorem unlockChapter_ledger_iff (chapterId : ℤ) :
    GoldLedger h.info.gold (unlockChapterRows cfg h chapterId) (reqUnlockChapter cfg h chapterId).1.info.gold ↔
      Exact cfg env h (.unlockChapter chapterId) := by
  rw [unlockChapterRows, Exact]
  simp only [chapterUnlockRecord, ledger_reversed_iff]
  by_cases hu : ∃ config, Unlocks cfg h chapterId config
  · obtain ⟨config, hu⟩ := hu
    rw [reqUnlockChapter_unlocks hu]
    constructor
    · intro hsame config' hu'
      obtain rfl := hu.unique hu'.configured
      dsimp only at hsame
      omega
    · intro hfree
      simp [hfree config hu]
  · push Not at hu
    rw [reqUnlockChapter_refused hu]
    exact iff_of_true rfl fun config hu' => absurd hu' (hu config)

theorem buyHero_ledger_iff (grid gold : ℤ) :
    LedgerRight cfg env deals h (.buyHero grid gold) ↔ Exact cfg env h (.buyHero grid gold) := by
  have hdefined : (buyHero cfg env h grid gold).isSome = true ↔
      (buyAccepted cfg env h grid gold = true → 0 ≤ grid ∧ grid + 2 ≤ intMax) := buyHero_isSome_iff
  rw [Exact]
  cases hr : buyHero cfg env h grid gold with
  | none =>
    have hundefined : ¬(buyAccepted cfg env h grid gold = true → 0 ≤ grid ∧ grid + 2 ≤ intMax) := by
      rw [← hdefined, hr]
      simp
    refine iff_of_true ?_ fun haccepted hgrid hmax => absurd (fun _ => ⟨hgrid, hmax⟩) hundefined
    intro h' rows heq
    simp [perform, hr] at heq
  | some r =>
    rw [hr] at hdefined
    rw [ledgerRight_some (r := (r.1, buyHeroRows h r)) (by rw [perform, hr]; rfl)]
    simp only [buyHeroRows, buyHeroRecord, ledger_reversed_iff]
    cases haccepted : buyAccepted cfg env h grid gold with
    | false =>
      obtain ⟨acks, hacks⟩ := reqBuyHero_rejected haccepted
      simp only [buyHero, haccepted, Bool.false_eq_true, false_and, if_false, hacks, Option.some.injEq] at hr
      subst hr
      simp
    | true =>
      obtain ⟨hgrid, hmax⟩ := hdefined.1 rfl haccepted
      simp only [buyHero, haccepted, true_and, not_lt.2 hmax, if_false, reqBuyHero_accepted haccepted,
        Option.map_eq_some_iff] at hr
      obtain ⟨heroes, -, rfl⟩ := hr
      simp only [true_imp_iff, hgrid, hmax]
      omega

theorem receiveDailyGamePrize_ledger_iff :
    GoldLedger h.info.gold (receiveDailyGamePrizeRows h) (reqReceiveDailyGamePrize h).1.info.gold ↔
      Exact cfg env h .receiveDailyGamePrize := by
  rw [receiveDailyGamePrizeRows, reqReceiveDailyGamePrize, Exact]
  split_ifs with hprize
  · simp [ledger_none, hprize]
  · simp only [dailyGameRewardRecord, hprize, false_or]
    split_ifs with hgold
    · rw [ledger_one]
      omega
    · rw [ledger_none]
      omega

theorem lotteryPrize_gold (h' : DreamHero) (entry : LotteryDrawBoxConfig) :
    (lotteryPrize env h' entry).1.info.gold = h'.info.gold + lotteryGold env entry := by
  simp only [lotteryPrize, lotteryGold]
  cases entry.lotteryType with
  | lotion =>
    dsimp only
    split_ifs <;> simp
  | gold => rfl
  | jewel => simp

theorem dayLottery_ledger :
    GoldLedger h.info.gold (dayLotteryRows cfg env h) (reqDayLottery cfg env h).1.info.gold := by
  simp only [dayLotteryRows, reqDayLottery]
  split_ifs
  · cases lotteryBoxes cfg h with
    | nil => exact ledger_none.2 rfl
    | cons entry boxes =>
      dsimp only
      split_ifs
      · exact ledger_nonzero _ _ _ (lotteryPrize_gold _ _)
      · exact ledger_none.2 rfl
  · exact ledger_none.2 rfl

theorem concernWeiXin_ledger (cdKey : String) :
    GoldLedger h.info.gold (concernWeiXinRows cfg h cdKey) (reqConcernWeiXin cfg h cdKey).1.info.gold := by
  rw [concernWeiXinRows, reqConcernWeiXin]
  split_ifs <;> simp_all [answeredNo, Ack.error, ledger_none, ledger_one]

/-- the result of `addDealPay` has the gold that was added, when it has no error -/
def Paid (h : DreamHero) (r : Deals.PayResult) : Prop :=
  r.hero.info.gold = h.info.gold + if r.error = .no then r.addGold else 0

theorem payEntry_paid (now : ℕ) (config : ℤ × ℤ) (entry : DealWaitToPay) (status orderId : ℤ) :
    Paid h (Deals.payEntry deals now h config entry status orderId) := by
  rw [Deals.payEntry]
  split_ifs with hstatus
  · cases entry.type <;> simp [Paid]
  · simp [Paid]

theorem addDealPay_paid (now : ℕ) (keyCode : String) (status orderId : ℤ) (error : Deals.GameError) :
    Paid h (Deals.addDealPay deals now h keyCode status orderId error) := by
  rw [Deals.addDealPay]
  split_ifs with herror
  · cases deals.goldShop h.channel keyCode with
    | none => simp [Paid]
    | some config =>
      cases h.dealsWaitToPay[orderId]? with
      | none => simp [Paid]
      | some entry => exact payEntry_paid now config entry status orderId
  · simp [Paid]

theorem Paid.ledger {r : Deals.PayResult} (hpaid : Paid h r) :
    GoldLedger h.info.gold (dealPayRows r) r.hero.info.gold := by
  rw [dealPayRows]
  rw [Paid] at hpaid
  split_ifs with herror
  · exact (ledger_one _ _ _).2 (by rw [hpaid, if_pos herror])
  · exact ledger_none.2 (by rw [hpaid, if_neg herror, add_zero])

/-! ## All operations -/

/-- **Ledger.** For every state and message, the rows of an operation are its signed changes with the balances after
them, and add up to the change of the gold, exactly when the operation is `Exact`. -/
theorem gold_ledger_iff (cfg : GameConfig) (env : Env) (deals : Deals.Env) (h : DreamHero) (op : Operation) :
    LedgerRight cfg env deals h op ↔ Exact cfg env h op := by
  cases op with
  | exitGame msg => exact (ledgerRight_some rfl).trans (exitGame_ledger_iff msg)
  | refreshTask giveUpTaskId gold => exact (ledgerRight_some rfl).trans (refreshTask_ledger_iff giveUpTaskId gold)
  | relive => exact iff_of_true ((ledgerRight_some rfl).2 relive_ledger) trivial
  | unlockChapter chapterId => exact (ledgerRight_some rfl).trans (unlockChapter_ledger_iff chapterId)
  | buyHero grid gold => exact buyHero_ledger_iff grid gold
  | receiveDailyGamePrize => exact (ledgerRight_some rfl).trans receiveDailyGamePrize_ledger_iff
  | dayLottery => exact iff_of_true ((ledgerRight_some rfl).2 dayLottery_ledger) trivial
  | concernWeiXin cdKey => exact iff_of_true ((ledgerRight_some rfl).2 (concernWeiXin_ledger cdKey)) trivial
  | addDealPay keyCode status orderId error =>
    exact iff_of_true
      ((ledgerRight_some rfl).2 (addDealPay_paid env.serverTime keyCode status orderId error).ledger) trivial

/-- a prize of 50 for a hero with 100 is written as 150 -/
theorem prize_row_wrong :
    ¬ ∀ (cfg : GameConfig) (env : Env) (deals : Deals.Env) (h : DreamHero) (op : Operation),
      LedgerRight cfg env deals h op := by
  intro hall
  have hledger := (ledgerRight_some rfl).1 (hall {}
    {} { time := fun _ => "", goldShop := fun _ _ => none, scaleGold := fun _ _ => 0, scaleJewel := fun _ _ => 0,
         dflt := { accountId := 0, keyCode := "", status := 0, price := 0, dealTime := "", completeStatus := .failed,
                   receipt := "" } }
    { account := 1, info := { name := "a", gold := 100, dailyGameGold := 50 } } .receiveDailyGamePrize)
  exact absurd hledger.total (by decide)

end DreamHeroes.Hero.Ledger

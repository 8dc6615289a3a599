/-
What a request that `handle` answers writes of the fields that most handlers leave alone, and which message answers it.

- `Steady`, `steady`: those fields. `Written`: what a request leaves in them, in five cases.
- `Ack.Answers`: the message belongs to the request, and names what was asked for.
- `handle_handled`: every request, by one case analysis of each handler. The frames of the later modules are read off
  it.
-/
import Mathlib.Tactic
import DreamHeroes.Hero.Requests

namespace DreamHeroes.Hero.Requests

open DreamHeroes.Config

/-! ## Statement -/

structure Steady where
  account : ℕ
  gmLevel : ℤ
  dailyGameTime : ℕ
  dailyGamePrizeTime : ℕ
  counters : ℤ × ℕ
  records : List (ℤ × ℤ)
  lotions : List ℤ
  dailyGameGold : ℤ

def steady (h : DreamHero) : Steady where
  account := h.account
  gmLevel := h.gmLevel
  dailyGameTime := h.dailyGameTime
  dailyGamePrizeTime := h.dailyGamePrizeTime
  counters := (h.currentTaskCount, h.lastTaskAdvertisementTime)
  records := h.info.records
  lotions := h.info.lotions
  dailyGameGold := h.info.dailyGameGold

/-- the task that a request for a new task gives up, 0 when there is none -/
def Request.givesUp : Request → Option ℤ
  | .advertisementApplyTask _ => some 0
  | .advertisementRefreshTask giveUpTaskId _ => some giveUpTaskId
  | _ => none

inductive Written (h : DreamHero) : Request → Steady → Prop
  | nothing (req : Request) : Written h req (steady h)
  | record (chapterId : ℤ) :
    Written h (.unlockChapter chapterId) { steady h with records := h.info.records ++ [(chapterId, 0)] }
  | counted (req : Request) (counters : ℤ × ℕ) (hreq : req.givesUp ≠ none) :
    Written h req { steady h with counters := counters }
  | lotion (req : Request) (lotionId : ℤ) (hreq : req = .dayLottery ∨ req = .buyLotion lotionId) :
    Written h req { steady h with lotions := h.info.lotions ++ [lotionId] }
  | received : Written h .receiveDailyGamePrize { steady h with dailyGameGold := 0 }

def Ack.Answers (req : Request) : Ack → Prop
  | .unlockChapter chapterId _ _ => req = .unlockChapter chapterId
  | .advertisementRefreshTask giveUpTaskId _ _ _ => giveUpTaskId ≠ 0 ∧ req.givesUp = some giveUpTaskId
  | .advertisementApplyTask _ _ _ => req.givesUp = some 0
  | .relive _ _ => req = .relive
  | .modifyCurrentHero _ _ => ∃ gridId, req = .modifyCurrentHero gridId
  | .buyHero grid _ _ => ∃ gold, req = .buyHero grid gold
  | .enterGame chapterId sectionId _ _ _ _ => ∃ admin, req = .enterGame chapterId sectionId admin
  | .concernWeiXin _ _ _ => ∃ cdKey, req = .concernWeiXin cdKey
  | .buySpirit index _ _ _ => req = .buySpirit index
  | .receiveDailyGamePrize _ _ => req = .receiveDailyGamePrize
  | .dayLottery _ _ _ _ _ _ _ _ => req = .dayLottery
  | .buyLotion lotionId _ _ _ => req = .buyLotion lotionId
  | .resetDailyGameProgress _ _ _ _ _ => req = .resetDailyGameProgress

structure Handled (h : DreamHero) (req : Request) (r : DreamHero × List Ack) : Prop where
  written : Written h req (steady r.1)
  answers : ∀ ack ∈ r.2, ack.Answers req

variable {cfg : GameConfig} {env : Env} {h : DreamHero} {req : Request}

theorem Written.gmLevel {s : Steady} (hw : Written h req s) : s.gmLevel = h.gmLevel := by
  cases hw <;> rfl

theorem Handled.single {h' : DreamHero} {ack : Ack} (hw : Written h req (steady h')) (ha : ack.Answers req) :
    Handled h req (h', [ack]) := by
  refine ⟨hw, ?_⟩
  intro ack' hack
  rw [List.mem_singleton.1 hack]
  exact ha

/-- nothing is written -/
theorem Handled.same {h' : DreamHero} {ack : Ack} (hs : steady h' = steady h) (ha : ack.Answers req) :
    Handled h req (h', [ack]) := by
  refine .single ?_ ha
  rw [hs]
  exact .nothing req

/-! ## Chapters and tasks -/

theorem reqUnlockChapter_handled (chapterId : ℤ) :
    Handled h (.unlockChapter chapterId) (reqUnlockChapter cfg h chapterId) := by
  rw [reqUnlockChapter]
  cases cfg.getChapterConfigInfo chapterId with
  | none => exact .same rfl rfl
  | some infoConfig =>
    dsimp only
    split
    · exact .same rfl rfl
    · cases unlockLoop infoConfig chapterId h.info.records .unlockChapterFailedTheRequiredSectionNotPass with
      | none => exact ⟨.nothing _, by simp⟩
      | some enError =>
        cases enError with
        | no =>
          dsimp only
          split
          · exact .same rfl rfl
          · exact .single (.record chapterId) rfl
        | _ => exact .same rfl rfl

variable (cfg env h) in
/-- before the new task is drawn, at most the counters are written -/
theorem prepareTask_steady (giveUpTaskId : ℤ) (gold : Bool) :
    ∃ counters, steady (prepareTask cfg env h giveUpTaskId gold).1 = { steady h with counters := counters } := by
  rw [prepareTask]
  cases refreshTaskError cfg env h gold with
  | no =>
    rw [giveUpTask]
    split_ifs
    · simp only [countTask]
      split_ifs <;> exact ⟨_, rfl⟩
    · simp only [countTask]
      split_ifs <;> exact ⟨_, rfl⟩
    · exact ⟨_, rfl⟩
  | _ => exact ⟨_, rfl⟩

theorem refreshTask_handled {giveUpTaskId : ℤ} (hreq : req.givesUp = some giveUpTaskId) (gold : Bool) :
    Handled h req (refreshTask cfg env h giveUpTaskId gold) := by
  obtain ⟨counters, hcounters⟩ := prepareTask_steady cfg env h giveUpTaskId gold
  have hwritten : Written h req (steady (prepareTask cfg env h giveUpTaskId gold).1) := by
    rw [hcounters]
    exact .counted req counters (by simp [hreq])
  have happly (hnone : ¬giveUpTaskId ≠ 0) : req.givesUp = some 0 := by rw [hreq, not_not.1 hnone]
  rw [refreshTask]
  split_ifs with _ hgive hgive
  · exact .single hwritten ⟨hgive, hreq⟩
  · exact .single hwritten (happly hgive)
  · exact .single hwritten ⟨hgive, hreq⟩
  · exact .single hwritten (happly hgive)

/-! ## Heroes and instances -/

theorem reqModifyCurrentHero_handled {gridId : ℤ} {r : DreamHero × List Ack}
    (hr : reqModifyCurrentHero h gridId = some r) :
    Handled h (.modifyCurrentHero gridId) r := by
  rw [reqModifyCurrentHero] at hr
  split_ifs at hr
  all_goals
    cases hr
    exact .same rfl ⟨gridId, rfl⟩

theorem reqBuyHero_handled {grid gold : ℤ} {r : DreamHero × List Ack} (hr : reqBuyHero cfg env h grid gold = some r) :
    Handled h (.buyHero grid gold) r := by
  simp only [reqBuyHero] at hr
  cases hconfig : cfg.getShopConfig grid with
  | none =>
    rw [hconfig] at hr
    cases hr
    exact .same rfl ⟨gold, rfl⟩
  | some config =>
    rw [hconfig] at hr
    dsimp only at hr
    split_ifs at hr
    · cases hr
      exact .same rfl ⟨gold, rfl⟩
    · cases hr
      exact .same rfl ⟨gold, rfl⟩
    · cases hr
      exact .same rfl ⟨gold, rfl⟩
    · obtain ⟨heroes, -, rfl⟩ := Option.map_eq_some_iff.1 hr
      exact .same rfl ⟨gold, rfl⟩

theorem enterGame_handled (chapterId sectionId : ℤ) (admin : Bool) :
    Handled h (.enterGame chapterId sectionId admin) (enterGame cfg h chapterId sectionId admin) := by
  simp only [enterGame]
  split_ifs <;> exact .same rfl ⟨admin, rfl⟩

theorem reqConcernWeiXin_handled (cdKey : String) :
    Handled h (.concernWeiXin cdKey) (reqConcernWeiXin cfg h cdKey) := by
  simp only [reqConcernWeiXin]
  split_ifs <;> exact .same rfl ⟨cdKey, rfl⟩

/-! ## Spirit, lotions and the lottery -/

theorem reqBuySpirit_handled (index : ℤ) : Handled h (.buySpirit index) (reqBuySpirit cfg env h index) := by
  simp only [reqBuySpirit]
  split
  · exact .same rfl rfl
  · cases cfg.getSpiritShop index with
    | none => exact .same rfl rfl
    | some configInfo =>
      dsimp only
      split_ifs <;> exact .same rfl rfl

theorem reqBuyLotion_handled (lotionId : ℤ) : Handled h (.buyLotion lotionId) (reqBuyLotion cfg h lotionId) := by
  have hlotion : Written h (.buyLotion lotionId) { steady h with lotions := h.info.lotions ++ [lotionId] } :=
    .lotion _ lotionId (.inr rfl)
  simp only [reqBuyLotion]
  split
  · cases cfg.getLotionShop lotionId with
    | none => exact .same rfl rfl
    | some shopConfig =>
      obtain ⟨useType, useCount⟩ := shopConfig
      cases useType with
      | _ =>
        dsimp only
        split_ifs
        · exact .same rfl rfl
        · exact .same rfl rfl
        · exact .single hlotion rfl
  · exact .same rfl rfl

theorem reqDayLottery_handled : Handled h .dayLottery (reqDayLottery cfg env h) := by
  simp only [reqDayLottery]
  split
  · cases lotteryBoxes cfg h with
    | nil => exact .same rfl rfl
    | cons entry boxes =>
      dsimp only
      split
      · simp only [lotteryPrize]
        generalize drawBox entry _ _ = box
        cases box.lotteryType with
        | lotion =>
          dsimp only
          split
          · exact .single (.lotion _ box.subIndex (.inl rfl)) rfl
          · exact .same rfl rfl
        | _ => exact .same rfl rfl
      · exact .same rfl rfl
  · exact .same rfl rfl

/-! ## The daily game -/

theorem reqReceiveDailyGamePrize_handled : Handled h .receiveDailyGamePrize (reqReceiveDailyGamePrize h) := by
  rw [reqReceiveDailyGamePrize]
  split
  · exact .same rfl rfl
  · exact .single .received rfl

theorem reqResetDailyGameProgress_handled :
    Handled h .resetDailyGameProgress (reqResetDailyGameProgress cfg env h) := by
  simp only [reqResetDailyGameProgress]
  split
  · exact .same rfl rfl
  · cases resetJewel cfg (nextResetCount cfg env h) with
    | none => exact .same rfl rfl
    | some jewel =>
      dsimp only
      split_ifs <;> exact .same rfl rfl

/-! ## Every request -/

/-- **What a request writes and how it is answered.** -/
theorem handle_handled {r : DreamHero × List Ack} (hr : handle cfg env h req = some r) : Handled h req r := by
  cases req with
  | modifyCurrentHero gridId => exact reqModifyCurrentHero_handled hr
  | buyHero grid gold => exact reqBuyHero_handled hr
  | unlockChapter chapterId =>
    cases hr
    exact reqUnlockChapter_handled chapterId
  | advertisementApplyTask gold =>
    cases hr
    exact refreshTask_handled rfl gold
  | advertisementRefreshTask giveUpTaskId gold =>
    cases hr
    exact refreshTask_handled rfl gold
  | relive =>
    cases hr
    rw [reqReliveReq]
    split_ifs <;> exact .same rfl rfl
  | enterGame chapterId sectionId admin =>
    cases hr
    exact enterGame_handled chapterId sectionId admin
  | concernWeiXin cdKey =>
    cases hr
    exact reqConcernWeiXin_handled cdKey
  | buySpirit index =>
    cases hr
    exact reqBuySpirit_handled index
  | receiveDailyGamePrize =>
    cases hr
    exact reqReceiveDailyGamePrize_handled
  | dayLottery =>
    cases hr
    exact reqDayLottery_handled
  | buyLotion lotionId =>
    cases hr
    exact reqBuyLotion_handled lotionId
  | resetDailyGameProgress =>
    cases hr
    exact reqResetDailyGameProgress_handled

end DreamHeroes.Hero.Requests

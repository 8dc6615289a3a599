/-
Every request is answered once, and a rejected request leaves the hero as it was: for which inputs.

- `Answered`: one message has been sent, and the hero is the old one unless the message says `Error_NO`.
- `Drawn`, `drawBox_eq_iff`: which box of the lottery a draw selects, in terms of the ratings alone.
- `Clean`: the condition on the hero, the configuration, the message and the draw, for each request.
- `handle_answered_iff`: the two are the same. `unlocked_again_silent` is a chapter that is unlocked already: the code
  for it is set and never sent.
-/
import Mathlib.Tactic
import DreamHeroes.Lib.OrdMap
import DreamHeroes.Hero.Requests

namespace DreamHeroes.Hero.Requests

open DreamHeroes.Lib DreamHeroes.Config

/-! ## Answers -/

def Answered (h : DreamHero) (r : Option (DreamHero × List Ack)) : Prop :=
  ∃ h' ack, r = some (h', [ack]) ∧ (ack.error ≠ .no → h' = h)

variable (cfg : GameConfig) (env : Env) (h : DreamHero)

theorem answered_some (h' : DreamHero) (ack : Ack) :
    Answered h (some (h', [ack])) ↔ (ack.error ≠ .no → h' = h) := by
  constructor
  · rintro ⟨h1, ack1, heq, hsame⟩
    obtain ⟨rfl, rfl⟩ : h' = h1 ∧ ack = ack1 := by simpa using heq
    exact hsame
  · intro hsame
    exact ⟨h', ack, rfl, hsame⟩

/-- a rejection that leaves the hero alone -/
theorem answered_same (ack : Ack) : Answered h (some (h, [ack])) := (answered_some h h ack).2 fun _ => rfl

theorem answered_no (h' : DreamHero) {ack : Ack} (hno : ack.error = .no) : Answered h (some (h', [ack])) :=
  (answered_some h h' ack).2 fun herr => absurd hno herr

theorem not_answered_none : ¬ Answered h none := by
  rintro ⟨_, _, heq, _⟩
  cases heq

theorem not_answered_silent (h' : DreamHero) : ¬ Answered h (some (h', [])) := by
  rintro ⟨_, _, heq, _⟩
  simp at heq

/-! ## Chapters and tasks -/

/-- the loop returns exactly when the chapter has a record -/
theorem unlockLoop_eq_none_iff (config : MsgChapterConfigInfo) (chapterId : ℤ) (records : List (ℤ × ℤ))
    (e : GameError) :
    unlockLoop config chapterId records e = none ↔ chapterId ∈ records.map Prod.fst := by
  induction records generalizing e with
  | nil => simp [unlockLoop]
  | cons pairEntry records ih =>
    rw [unlockLoop, List.map_cons, List.mem_cons]
    split_ifs with hsame hrequired
    · simp [hsame]
    · rw [ih, or_iff_right (Ne.symm hsame)]
    · rw [ih, or_iff_right (Ne.symm hsame)]

theorem reqUnlockChapter_answered_iff (chapterId : ℤ) :
    Answered h (some (reqUnlockChapter cfg h chapterId)) ↔
      ∀ config, cfg.getChapterConfigInfo chapterId = some config →
        config.requiredTaskCompleteCount ≤ h.info.completeTaskCount → chapterId ∉ h.info.records.map Prod.fst := by
  simp only [reqUnlockChapter]
  cases hconfig : cfg.getChapterConfigInfo chapterId with
  | none => simpa using answered_same h _
  | some config =>
    by_cases htasks : h.info.completeTaskCount < config.requiredTaskCompleteCount
    · simp only [htasks, if_true, Option.some.injEq, forall_eq', answered_same, true_iff]
      intro hle
      omega
    · have hle : config.requiredTaskCompleteCount ≤ h.info.completeTaskCount := not_lt.1 htasks
      have hnone := unlockLoop_eq_none_iff config chapterId h.info.records .unlockChapterFailedTheRequiredSectionNotPass
      simp only [htasks, if_false, Option.some.injEq, forall_eq', hle, true_imp_iff, ← hnone]
      cases hloop : unlockLoop config chapterId h.info.records .unlockChapterFailedTheRequiredSectionNotPass with
      | none => simpa using not_answered_silent h h
      | some enError =>
        simp only [reduceCtorEq, not_false_eq_true, iff_true]
        cases enError with
        | no =>
          dsimp only
          split_ifs
          · exact answered_same h _
          · exact answered_no h _ rfl
        | _ => exact answered_same h _

theorem refreshTask_answered_iff (giveUpTaskId : ℤ) (gold : Bool) :
    Answered h (some (refreshTask cfg env h giveUpTaskId gold)) ↔
      ((prepareTask cfg env h giveUpTaskId gold).2 ≠ .no → (prepareTask cfg env h giveUpTaskId gold).1 = h) := by
  simp only [refreshTask]
  split_ifs with hhave hgive hgive
  · simp [answered_some, Ack.error, hhave.2]
  · simp [answered_some, Ack.error, hhave.2]
  · simp [answered_some, Ack.error]
  · simp [answered_some, Ack.error]

theorem refreshTaskError_eq_no_iff (gold : Bool) :
    refreshTaskError cfg env h gold = .no ↔
      (cfg.globalConfig.refreshTaskGold ≤ h.info.gold ∨ gold = false) ∧
        (h.currentTaskCount ≤ cfg.globalConfig.dayFreeTaskCount ∨
          cfg.globalConfig.dayTaskAdvertisementTaskCd ≤ (env.serverTime : ℤ) - h.lastTaskAdvertisementTime) := by
  rw [refreshTaskError]
  by_cases hgold : h.info.gold < cfg.globalConfig.refreshTaskGold ∧ gold = true
  · simp [hgold]
  · have hyes : cfg.globalConfig.refreshTaskGold ≤ h.info.gold ∨ gold = false := by
      rw [not_and_or, not_lt, Bool.not_eq_true] at hgold
      exact hgold
    simp only [hgold, hyes, if_false, true_and]
    split_ifs with hcount htime
    · simp only [false_iff, not_or]
      exact ⟨not_le.2 hcount, not_le.2 htime⟩
    · simp [not_lt.1 htime]
    · simp [not_lt.1 hcount]

theorem countTask_info (h' : DreamHero) : (countTask cfg env h').1.info = h'.info := by
  rw [countTask]
  split_ifs <;> rfl

/-- a task is given up and not counted -/
theorem countTask_same_iff (h' : DreamHero) :
    ((countTask cfg env h').2 ≠ .no → (countTask cfg env h').1 = h) ↔
      ((h'.info.tasks.length : ℤ) ≤ cfg.globalConfig.heroMaxTasksCount - 1 ∨ h' = h) := by
  simp only [countTask]
  split_ifs with hroom <;> simp [hroom]

/-- the tasks fit when one is given up, unless the request is rejected before -/
def RoomWhenGivenUp (giveUpTaskId : ℤ) (gold : Bool) : Prop :=
  giveUpTaskId ≠ 0 → (cfg.globalConfig.refreshTaskGold ≤ h.info.gold ∨ gold = false) →
    (h.currentTaskCount ≤ cfg.globalConfig.dayFreeTaskCount ∨
      cfg.globalConfig.dayTaskAdvertisementTaskCd ≤ (env.serverTime : ℤ) - h.lastTaskAdvertisementTime) →
    (∃ t ∈ h.info.tasks, t.taskid = giveUpTaskId) → (h.info.tasks.length : ℤ) ≤ cfg.globalConfig.heroMaxTasksCount

theorem prepareTask_same_iff (giveUpTaskId : ℤ) (gold : Bool) :
    ((prepareTask cfg env h giveUpTaskId gold).2 ≠ .no → (prepareTask cfg env h giveUpTaskId gold).1 = h) ↔
      RoomWhenGivenUp cfg env h giveUpTaskId gold := by
  have herror := refreshTaskError_eq_no_iff cfg env h gold
  rw [prepareTask, RoomWhenGivenUp]
  cases he : refreshTaskError cfg env h gold with
  | no =>
    obtain ⟨hgold, htime⟩ := herror.1 he
    simp only [giveUpTask]
    split_ifs with hzero hheld
    · simp [hzero, countTask_same_iff]
    · obtain ⟨t, ht, hid⟩ : ∃ t ∈ h.info.tasks, t.taskid = giveUpTaskId := by simpa using hheld
      have hlen : (h.info.tasks.eraseP (·.taskid == giveUpTaskId)).length = h.info.tasks.length - 1 :=
        List.length_eraseP_of_mem ht (by simpa using hid)
      have hpos : 0 < h.info.tasks.length := List.length_pos_of_mem ht
      -- the hero has one task fewer
      have hne : { h with info := { h.info with tasks := h.info.tasks.eraseP (·.taskid == giveUpTaskId) } } ≠ h := by
        intro heq
        have := congrArg (fun x : DreamHero => x.info.tasks.length) heq
        simp only [hlen] at this
        omega
      simp only [countTask_same_iff, hne, or_false, hzero, hgold, htime, ne_eq, not_false_eq_true, true_imp_iff, hlen]
      constructor
      · intro hroom _
        omega
      · intro hroom
        have := hroom ⟨t, ht, hid⟩
        omega
    · have hnone : ¬ ∃ t ∈ h.info.tasks, t.taskid = giveUpTaskId := by simpa using hheld
      simp [hnone]
  | _ =>
    have hno : ¬ _ := fun hok => absurd (herror.2 hok) (by simp [he])
    simp only [ne_eq, reduceCtorEq, not_false_eq_true, true_imp_iff, true_iff]
    intro _ hgold htime
    exact absurd ⟨hgold, htime⟩ hno

/-! ## Heroes, instances and shops -/

theorem reqReliveReq_answered : Answered h (some (reqReliveReq cfg h)) := by
  simp only [reqReliveReq]
  split_ifs
  · exact answered_no h _ rfl
  · exact answered_same h _

theorem reqModifyCurrentHero_answered_iff (gridId : ℤ) : Answered h (reqModifyCurrentHero h gridId) ↔ 0 ≤ gridId := by
  simp only [reqModifyCurrentHero]
  split_ifs with hlen hneg hfree
  · simp [not_answered_none, hneg]
  · exact iff_of_true (answered_no h _ rfl) (not_lt.1 hneg)
  · simp [answered_same, not_lt.1 hneg]
  · simp only [answered_same, true_iff]
    omega

theorem setHero_eq_none_iff (heroes : List Bool) (grid : ℤ) : setHero heroes grid = none ↔ grid < 0 := by
  simp only [setHero]
  split_ifs <;> simp_all

/-- no grid in front of the first is sold to the hero -/
def GridSold (grid gold : ℤ) : Prop :=
  grid < 0 → ∀ config, cfg.getShopConfig grid = some config → sectionPassed h config = true →
    max (config.requireGold - env.cheapGold grid) 0 = gold → h.info.gold < gold

theorem reqBuyHero_isSome_iff (grid gold : ℤ) :
    (reqBuyHero cfg env h grid gold).isSome = true ↔ GridSold cfg env h grid gold := by
  simp only [reqBuyHero, GridSold]
  cases hconfig : cfg.getShopConfig grid with
  | none => simp
  | some config =>
    simp only [Option.some.injEq, forall_eq']
    split_ifs with hpassed hprice hgold
    · simp [hpassed]
    · simp [hprice]
    · simp only [Option.isSome_some, true_iff]
      intro _ _ hsame
      omega
    · have hpassed' : sectionPassed h config = true := by simpa using hpassed
      have hprice' : max (config.requireGold - env.cheapGold grid) 0 = gold := not_not.1 hprice
      have henough : ¬ h.info.gold < gold := by omega
      simp only [hpassed', hprice', henough, true_imp_iff, imp_false, ← setHero_eq_none_iff h.info.heroes grid]
      cases setHero h.info.heroes grid <;> simp

theorem reqBuyHero_answered_of_some {grid gold : ℤ} {r : DreamHero × List Ack}
    (hr : reqBuyHero cfg env h grid gold = some r) : Answered h (reqBuyHero cfg env h grid gold) := by
  simp only [reqBuyHero] at hr ⊢
  cases hconfig : cfg.getShopConfig grid with
  | none => exact answered_same h _
  | some config =>
    simp only [hconfig] at hr ⊢
    split_ifs at hr ⊢
    · exact answered_same h _
    · exact answered_same h _
    · exact answered_same h _
    · obtain ⟨heroes, hheroes, -⟩ := Option.map_eq_some_iff.1 hr
      rw [hheroes]
      exact answered_no h _ rfl

theorem reqBuyHero_answered_iff (grid gold : ℤ) :
    Answered h (reqBuyHero cfg env h grid gold) ↔ GridSold cfg env h grid gold := by
  rw [← reqBuyHero_isSome_iff, Option.isSome_iff_exists]
  constructor
  · rintro ⟨h', ack, hr, -⟩
    exact ⟨_, hr⟩
  · rintro ⟨r, hr⟩
    exact reqBuyHero_answered_of_some cfg env h hr

theorem enterGame_answered (chapterId sectionId : ℤ) (admin : Bool) :
    Answered h (some (enterGame cfg h chapterId sectionId admin)) := by
  simp only [enterGame]
  split_ifs
  · exact answered_same h _
  · exact answered_no h _ rfl

theorem reqConcernWeiXin_answered (cdKey : String) : Answered h (some (reqConcernWeiXin cfg h cdKey)) := by
  simp only [reqConcernWeiXin]
  split_ifs
  · exact answered_same h _
  · exact answered_same h _
  · exact answered_no h _ rfl
  · exact answered_same h _

theorem reqBuySpirit_answered (index : ℤ) : Answered h (some (reqBuySpirit cfg env h index)) := by
  simp only [reqBuySpirit]
  split_ifs
  · exact answered_same h _
  · cases cfg.getSpiritShop index with
    | none => exact answered_same h _
    | some configInfo =>
      dsimp only
      split_ifs
      · exact answered_no h _ rfl
      · exact answered_same h _

theorem reqReceiveDailyGamePrize_answered : Answered h (some (reqReceiveDailyGamePrize h)) := by
  simp only [reqReceiveDailyGamePrize]
  split_ifs
  · exact answered_same h _
  · exact answered_no h _ rfl

theorem reqBuyLotion_answered (lotionId : ℤ) : Answered h (some (reqBuyLotion cfg h lotionId)) := by
  simp only [reqBuyLotion]
  split
  · cases cfg.getLotionShop lotionId with
    | none => exact answered_same h _
    | some shopConfig =>
      obtain ⟨useType, useCount⟩ := shopConfig
      cases useType with
      | jewel =>
        dsimp only
        split_ifs
        · exact answered_same h _
        · exact answered_same h _
        · exact answered_no h _ rfl
      | gold =>
        dsimp only
        split_ifs
        · exact answered_same h _
        · exact answered_same h _
        · exact answered_no h _ rfl
  · exact answered_same h _

theorem reqResetDailyGameProgress_answered : Answered h (some (reqResetDailyGameProgress cfg env h)) := by
  simp only [reqResetDailyGameProgress]
  split
  · exact answered_same h _
  · cases resetJewel cfg (nextResetCount cfg env h) with
    | none => exact answered_same h _
    | some jewel =>
      dsimp only
      split_ifs
      · exact answered_same h _
      · exact answered_no h _ rfl
      · exact answered_same h _

/-! ## The box a draw selects -/

/-- the sum of the ratings of the boxes before the `i`-th -/
def ratingBefore (boxes : List LotteryDrawBoxConfig) (i : ℕ) : ℤ := ((boxes.take i).map (·.rating)).sum

/-- of the boxes whose sum is at most the draw, those with the greatest sum, and of these the last -/
structure Drawn (boxes : List LotteryDrawBoxConfig) (draw : ℤ) (i : ℕ) : Prop where
  lt : i < boxes.length
  le : ratingBefore boxes i ≤ draw
  last : ∀ j < boxes.length, ratingBefore boxes j ≤ draw →
    ratingBefore boxes j < ratingBefore boxes i ∨ ratingBefore boxes j = ratingBefore boxes i ∧ j ≤ i

theorem Drawn.unique {boxes : List LotteryDrawBoxConfig} {draw : ℤ} {i j : ℕ} (hi : Drawn boxes draw i)
    (hj : Drawn boxes draw j) : i = j := by
  have h1 := hi.last j hj.lt hj.le
  have h2 := hj.last i hi.lt hi.le
  omega

theorem drawn_exists {boxes : List LotteryDrawBoxConfig} {draw : ℤ} (hne : boxes ≠ []) (hdraw : 0 ≤ draw) :
    ∃ i, Drawn boxes draw i := by
  let candidates := (Finset.range boxes.length).filter fun j => ratingBefore boxes j ≤ draw
  have hzero : 0 ∈ candidates :=
    Finset.mem_filter.2 ⟨Finset.mem_range.2 (List.length_pos_iff.2 hne), by simpa [ratingBefore] using hdraw⟩
  obtain ⟨i, hi, hmax⟩ := candidates.exists_max_image (fun j => toLex (ratingBefore boxes j, j)) ⟨0, hzero⟩
  obtain ⟨hlt, hle⟩ := Finset.mem_filter.1 hi
  refine ⟨i, Finset.mem_range.1 hlt, hle, ?_⟩
  intro j hj hjle
  have hmax := hmax j (Finset.mem_filter.2 ⟨Finset.mem_range.2 hj, hjle⟩)
  simpa [Prod.Lex.toLex_le_toLex] using hmax

theorem ratingBefore_length (boxes : List LotteryDrawBoxConfig) :
    ratingBefore boxes boxes.length = (boxes.map (·.rating)).sum := by
  rw [ratingBefore, List.take_length]

theorem ratingBefore_snoc (boxes : List LotteryDrawBoxConfig) (box : LotteryDrawBoxConfig) {i : ℕ}
    (hi : i ≤ boxes.length) : ratingBefore (boxes ++ [box]) i = ratingBefore boxes i := by
  rw [ratingBefore, List.take_append_of_le_length hi, ratingBefore]

theorem ratedBoxes_snoc (boxes : List LotteryDrawBoxConfig) (box : LotteryDrawBoxConfig) :
    ratedBoxes (boxes ++ [box]) =
      ((ratedBoxes boxes).1.insert (ratedBoxes boxes).2 box, (ratedBoxes boxes).2 + box.rating) := by
  simp only [ratedBoxes, List.foldl_append, List.foldl_cons, List.foldl_nil]

theorem ratedBoxes_rating (boxes : List LotteryDrawBoxConfig) : (ratedBoxes boxes).2 = (boxes.map (·.rating)).sum := by
  induction boxes using List.reverseRecOn with
  | nil => rfl
  | append_singleton boxes box ih => simp [ratedBoxes_snoc, ih]

/-- a key of the map holds the last box with that sum -/
theorem get_ratedBoxes (boxes : List LotteryDrawBoxConfig) (k : ℤ) (box : LotteryDrawBoxConfig) :
    (ratedBoxes boxes).1[k]? = some box ↔
      ∃ i, boxes[i]? = some box ∧ ratingBefore boxes i = k ∧ ∀ j < boxes.length, ratingBefore boxes j = k → j ≤ i := by
  induction boxes using List.reverseRecOn with
  | nil => simp [ratedBoxes]
  | append_singleton boxes last ih =>
    have hrating : (ratedBoxes boxes).2 = ratingBefore boxes boxes.length := by
      rw [ratedBoxes_rating, ratingBefore_length]
    rw [ratedBoxes_snoc]
    simp only [get_insert, hrating]
    by_cases hk : k = ratingBefore boxes boxes.length
    · -- the new box has taken the key
      rw [if_pos hk, Option.some.injEq]
      constructor
      · rintro rfl
        refine ⟨boxes.length, by simp, by rw [ratingBefore_snoc boxes _ le_rfl, hk], ?_⟩
        intro j hj _
        simp at hj
        omega
      · rintro ⟨i, hbox, -, hlast⟩
        have hi := hlast boxes.length (by simp) (by rw [ratingBefore_snoc boxes _ le_rfl, hk])
        have hlt : i < (boxes ++ [last]).length := List.getElem?_eq_some_iff.1 hbox |>.1
        have hieq : i = boxes.length := by
          simp at hlt
          omega
        subst hieq
        simpa using hbox
    · rw [if_neg hk, ih]
      constructor
      · rintro ⟨i, hbox, hrat, hlast⟩
        have hlt : i < boxes.length := List.getElem?_eq_some_iff.1 hbox |>.1
        refine ⟨i, by rw [List.getElem?_append_left hlt, hbox], by rw [ratingBefore_snoc boxes _ hlt.le, hrat], ?_⟩
        intro j hj hjk
        rcases Nat.lt_or_ge j boxes.length with hjlt | hjge
        · exact hlast j hjlt (by rw [← hjk, ratingBefore_snoc boxes _ hjlt.le])
        · have hjeq : j = boxes.length := by
            simp at hj
            omega
          rw [hjeq, ratingBefore_snoc boxes _ le_rfl] at hjk
          exact absurd hjk.symm hk
      · rintro ⟨i, hbox, hrat, hlast⟩
        have hlt : i < (boxes ++ [last]).length := List.getElem?_eq_some_iff.1 hbox |>.1
        have hile : i ≤ boxes.length := by
          simp at hlt
          omega
        rw [ratingBefore_snoc boxes _ hile] at hrat
        have hne : i ≠ boxes.length := fun hi => hk (by rw [← hrat, hi])
        have hilt : i < boxes.length := by omega
        refine ⟨i, by rwa [List.getElem?_append_left hilt] at hbox, hrat, ?_⟩
        intro j hj hjk
        exact hlast j (by simp; omega) (by rw [ratingBefore_snoc boxes _ hj.le, hjk])

/-- the walk over the map ends with the box the draw selects -/
theorem drawBox_eq {boxes : List LotteryDrawBoxConfig} {draw : ℤ} {i : ℕ} {box : LotteryDrawBoxConfig}
    (hi : Drawn boxes draw i) (hbox : boxes[i]? = some box) (entry : LotteryDrawBoxConfig) :
    drawBox entry (ratedBoxes boxes).1 draw = box := by
  have hlast : ∀ j < boxes.length, ratingBefore boxes j = ratingBefore boxes i → j ≤ i := by
    intro j hj hjk
    have := hi.last j hj (hjk ▸ hi.le)
    omega
  have hget := (get_ratedBoxes boxes (ratingBefore boxes i) box).2 ⟨i, hbox, rfl, hlast⟩
  have hsorted : (ratedBoxes boxes).1.toList.Pairwise fun a b => a.1 < b.1 :=
    (Std.TreeMap.ordered_keys_toList).imp fun hab => Int.compare_eq_lt.1 hab
  refine foldl_takeWhile_le hsorted entry (Std.TreeMap.mem_toList_iff_getElem?_eq_some.2 hget) hi.le ?_
  intro e he hle
  obtain ⟨j, hbox, hj, -⟩ := (get_ratedBoxes boxes e.1 e.2).1 (Std.TreeMap.mem_toList_iff_getElem?_eq_some.1 he)
  have := hi.last j (List.getElem?_eq_some_iff.1 hbox).1 (by rw [hj]; exact hle)
  omega

theorem lotteryPrize_answered_iff (h' : DreamHero) (entry : LotteryDrawBoxConfig) :
    Answered h (some (lotteryPrize env h' entry)) ↔
      (entry.lotteryType = .lotion → (0 ≤ entry.subIndex ∧ entry.subIndex ≤ 3) ∨ h' = h) := by
  obtain ⟨lotteryType, subIndex, baseCount, randomCount, rating⟩ := entry
  cases lotteryType with
  | lotion =>
    simp only [lotteryPrize, ge_iff_le, true_imp_iff]
    split_ifs with hid <;> simp [answered_some, Ack.error, hid]
  | gold => simp [lotteryPrize, answered_some, Ack.error]
  | jewel => simp [lotteryPrize, answered_some, Ack.error]

/-- the box that is drawn is no lotion outside 0 to 3, unless the time of the lottery stays the same -/
def LotteryClean : Prop :=
  cfg.today env.serverTime h.lastDayLotteryTime = false →
    0 < ((lotteryBoxes cfg h).map (·.rating)).sum →
      ∀ i box, Drawn (lotteryBoxes cfg h) (env.rand 0 % ((lotteryBoxes cfg h).map (·.rating)).sum) i →
        (lotteryBoxes cfg h)[i]? = some box → box.lotteryType = .lotion →
          (0 ≤ box.subIndex ∧ box.subIndex ≤ 3) ∨ h.lastDayLotteryTime = u32 env.serverTime

theorem setLotteryTime_eq_iff (t : ℕ) : { h with lastDayLotteryTime := t } = h ↔ h.lastDayLotteryTime = t := by
  constructor
  · intro heq
    exact (congrArg DreamHero.lastDayLotteryTime heq).symm
  · rintro rfl
    rfl

theorem reqDayLottery_answered_iff : Answered h (some (reqDayLottery cfg env h)) ↔ LotteryClean cfg env h := by
  simp only [reqDayLottery, LotteryClean]
  split_ifs with htoday
  · simp only [htoday, true_imp_iff]
    generalize hboxes : lotteryBoxes cfg h = boxes
    cases boxes with
    | nil => simp [answered_same]
    | cons entry boxes =>
      have hrating := ratedBoxes_rating (entry :: boxes)
      dsimp only
      rw [hrating]
      split_ifs with hpos
      · have hdraw := Int.emod_nonneg (env.rand 0 : ℤ) hpos.ne'
        obtain ⟨i, hi⟩ := drawn_exists (List.cons_ne_nil entry boxes) hdraw
        obtain ⟨box, hbox⟩ : ∃ box, (entry :: boxes)[i]? = some box := ⟨_, List.getElem?_eq_getElem hi.lt⟩
        rw [lotteryPrize_answered_iff, drawBox_eq hi hbox, setLotteryTime_eq_iff]
        simp only [hpos, true_imp_iff]
        constructor
        · intro hclean j box' hj hbox'
          obtain rfl := hi.unique hj
          obtain rfl : box = box' := Option.some.inj (hbox.symm.trans hbox')
          exact hclean
        · intro hall
          exact hall i box hi hbox
      · exact iff_of_true (answered_same h _) fun hpos' => absurd hpos' hpos
  · simp [answered_same, htoday]

/-! ## Every request -/

/-- what each request must find -/
def Clean : Request → Prop
  | .unlockChapter chapterId => ∀ config, cfg.getChapterConfigInfo chapterId = some config →
      config.requiredTaskCompleteCount ≤ h.info.completeTaskCount → chapterId ∉ h.info.records.map Prod.fst
  | .advertisementRefreshTask giveUpTaskId gold => RoomWhenGivenUp cfg env h giveUpTaskId gold
  | .modifyCurrentHero gridId => 0 ≤ gridId
  | .buyHero grid gold => GridSold cfg env h grid gold
  | .dayLottery => LotteryClean cfg env h
  | _ => True

/-- **Answered once, and rejected without a trace.** A request is answered by one message, which leaves the hero as it
was unless it says `Error_NO`, if and only if `Clean` holds of the request. -/
theorem handle_answered_iff (req : Request) : Answered h (handle cfg env h req) ↔ Clean cfg env h req := by
  cases req with
  | unlockChapter chapterId => exact reqUnlockChapter_answered_iff cfg h chapterId
  | advertisementApplyTask gold =>
    rw [handle, reqAdvertisementApplyTask, refreshTask_answered_iff, prepareTask_same_iff]
    simp [RoomWhenGivenUp, Clean]
  | advertisementRefreshTask giveUpTaskId gold =>
    rw [handle, reqAdvertisementRefreshTask, refreshTask_answered_iff, prepareTask_same_iff]
    rfl
  | relive => exact iff_of_true (reqReliveReq_answered cfg h) trivial
  | modifyCurrentHero gridId => exact reqModifyCurrentHero_answered_iff h gridId
  | buyHero grid gold => exact reqBuyHero_answered_iff cfg env h grid gold
  | enterGame chapterId sectionId admin =>
    exact iff_of_true (enterGame_answered cfg h chapterId sectionId admin) trivial
  | concernWeiXin cdKey => exact iff_of_true (reqConcernWeiXin_answered cfg h cdKey) trivial
  | buySpirit index => exact iff_of_true (reqBuySpirit_answered cfg env h index) trivial
  | receiveDailyGamePrize => exact iff_of_true (reqReceiveDailyGamePrize_answered h) trivial
  | dayLottery => exact reqDayLottery_answered_iff cfg env h
  | buyLotion lotionId => exact iff_of_true (reqBuyLotion_answered cfg h lotionId) trivial
  | resetDailyGameProgress => exact iff_of_true (reqResetDailyGameProgress_answered cfg env h) trivial

/-- the new hero has a record of the chapter 1, and asks to unlock it -/
theorem unlocked_again_silent :
    ¬ ∀ (cfg : GameConfig) (env : Env) (h : DreamHero) (req : Request), Answered h (handle cfg env h req) := by
  intro hall
  let chapter : MsgChapterConfigInfo :=
    { requiredChapterId := 0, requiredSectionId := 0, requiredTaskCompleteCount := 0, requireGold := 0 }
  have h1 := hall { getChapterConfigInfo := fun _ => some chapter } {} { info := { records := [(1, 1), (0, 0)] } }
    (.unlockChapter 1)
  exact not_answered_silent _ _ h1

end DreamHeroes.Hero.Requests

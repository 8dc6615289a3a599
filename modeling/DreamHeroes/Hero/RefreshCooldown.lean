/-
The cooldown of the task refresh over the life of a hero: on every game day, each refresh that succeeds after the first
`day_free_task_count_` ones comes `day_task_advertisement_task_cd_` seconds after the one before it.

- `refreshTimes`: the times of the refreshes that succeeded on a game day. `CooledDown`: the cooldown, over a whole log.
- `counters`: the counter and the time of the last refresh. `handleClient_uncounted`: no other request writes them.
- `CooldownOk`: what an operation must find. The counter is compared with `>`, so the refresh after the free ones is not
  tested; `dayRefresh` sets the counter back on a wrong answer of `isInToday`; a row that is loaded may be old.
- `CooldownInv`: the invariant. The counter is at least the number of refreshes of the day.
- `refresh_cooldown`: along runs that meet `CooldownOk`, the cooldown is kept. `refreshed_at_once` is a hero with one
  free refresh who gets two in the same second.
-/
import Mathlib.Tactic
import DreamHeroes.Lib.Machine
import DreamHeroes.Hero.DayRefresh
import DreamHeroes.Hero.Kept

namespace DreamHeroes.Hero.Requests

open DreamHeroes.Lib DreamHeroes.Config DreamHeroes.Rank

/-! ## Statement -/

def Answer.refreshed : Answer → Bool
  | .ack (.advertisementRefreshTask _ _ _ .no) => true
  | .ack (.advertisementApplyTask _ _ .no) => true
  | _ => false

def refreshTimes (cfg : GameConfig) (day : ℤ) (log : List Event) : List ℕ :=
  (onDay cfg Answer.refreshed day log).map (·.time)

/-- each time after the first `free` ones comes `cd` after the one before it -/
def Spaced (free cd : ℤ) (times : List ℕ) : Prop :=
  ∀ i t t' : ℕ, times[i]? = some t → times[i + 1]? = some t' → free ≤ (i + 1 : ℕ) → (t : ℤ) + cd ≤ t'

def CooledDown (cfg : GameConfig) (log : List Event) : Prop :=
  ∀ day, Spaced cfg.globalConfig.dayFreeTaskCount cfg.globalConfig.dayTaskAdvertisementTaskCd (refreshTimes cfg day log)

/-- the refreshes of the running game day -/
def refreshesToday (cfg : GameConfig) (s : St) : ℕ := (refreshTimes cfg (dayOf cfg s.now) s.log).length

theorem Spaced.snoc {free cd : ℤ} {times : List ℕ} {now : ℕ} (h : Spaced free cd times)
    (hlast : free ≤ times.length → ∀ t, times.getLast? = some t → (t : ℤ) + cd ≤ now) :
    Spaced free cd (times ++ [now]) := by
  intro i t t' ht ht' hfree
  have hi : i < times.length := by
    have hlt := (List.getElem?_eq_some_iff.1 ht').1
    rw [List.length_append, List.length_singleton] at hlt
    omega
  rw [List.getElem?_append_left hi] at ht
  rcases Nat.lt_or_ge (i + 1) times.length with hmid | hend
  · rw [List.getElem?_append_left hmid] at ht'
    exact h i t t' ht ht' hfree
  · have hlen : times.length = i + 1 := by omega
    have hnow : t' = now := by
      rw [List.getElem?_append_right hend, hlen] at ht'
      simpa using ht'.symm
    rw [hnow]
    refine hlast (by rw [hlen]; exact hfree) t ?_
    rw [List.getLast?_eq_getElem?, hlen]
    exact ht

/-! ## What writes the counters -/

def counters (h : DreamHero) : ℤ × ℕ := (h.currentTaskCount, h.lastTaskAdvertisementTime)

def ClientRequest.Refreshes : ClientRequest → Prop
  | .request (.advertisementApplyTask _) | .request (.advertisementRefreshTask _ _) => True
  | _ => False

/-- a result that leaves the counters alone and is no refresh -/
structure Uncounted (h : DreamHero) (r : DreamHero × List Ack) : Prop where
  counters : counters r.1 = counters h
  answers : ∀ ack ∈ r.2, (Answer.ack ack).refreshed = false

variable {cfg : GameConfig} {env : Env} {h : DreamHero}

theorem givesUp_eq_none {req : Request} (hreq : ¬(ClientRequest.request req).Refreshes) : req.givesUp = none := by
  cases req with
  | advertisementApplyTask gold => exact absurd trivial hreq
  | advertisementRefreshTask giveUpTaskId gold => exact absurd trivial hreq
  | _ => rfl

theorem Written.counters {req : Request} {s : Steady} (hw : Written h req s)
    (hreq : ¬(ClientRequest.request req).Refreshes) : s.counters = Requests.counters h := by
  cases hw with
  | counted _ counters hgives => exact absurd (givesUp_eq_none hreq) hgives
  | _ => rfl

/-- only a refresh is answered as one -/
theorem Ack.Answers.refreshed {req : Request} {ack : Ack} (ha : ack.Answers req)
    (hreq : ¬(ClientRequest.request req).Refreshes) : (Answer.ack ack).refreshed = false := by
  have hnone := givesUp_eq_none hreq
  cases ack with
  | advertisementRefreshTask giveUpTaskId infos currentGold error =>
    rw [ha.2] at hnone
    cases hnone
  | advertisementApplyTask infos currentGold error =>
    rw [ha] at hnone
    cases hnone
  | _ => rfl

theorem handle_uncounted {req : Request} (hreq : ¬(ClientRequest.request req).Refreshes) {r : DreamHero × List Ack}
    (hr : handle cfg env h req = some r) : Uncounted h r := by
  obtain ⟨hwritten, hanswers⟩ := handle_handled hr
  exact ⟨hwritten.counters hreq, fun ack hack => (hanswers ack hack).refreshed hreq⟩

theorem reqUpdateDailyGameProgress_counters (serverTime : ℕ) (ranks : RankManager)
    (msg : MsgC2SReqUpdateDailyGameProgress) :
    counters (reqUpdateDailyGameProgress serverTime ranks h msg).1 = counters h := by
  have hbegin : counters (beginDailyGame ranks h) = counters h := by
    rw [beginDailyGame]
    split_ifs <;> rfl
  rw [reqUpdateDailyGameProgress]
  cases updateProgressError ranks (beginDailyGame ranks h) msg <;> exact hbegin

theorem reqExitGame_counters (msg : MsgC2SReqExitGame) : counters (reqExitGame cfg h msg).1 = counters h := by
  by_cases hno : exitError h msg = .no
  · rw [reqExitGame_accepted hno]
    rfl
  · rw [reqExitGame_rejected hno]
    rfl

/-- **The frame of the counters.** -/
theorem handleClient_uncounted {ranks ranks' : RankManager} {req : ClientRequest} {h' : DreamHero}
    {answers : List Answer}
    (hreq : ¬req.Refreshes) (hr : handleClient cfg env ranks h req = some (h', ranks', answers)) :
    counters h' = counters h ∧ ∀ a ∈ answers, a.refreshed = false := by
  cases req with
  | request req =>
    obtain ⟨r, hhandled, heq⟩ := Option.map_eq_some_iff.1 hr
    cases heq
    have huncounted := handle_uncounted hreq hhandled
    refine ⟨huncounted.counters, ?_⟩
    intro a ha
    obtain ⟨ack, hack, rfl⟩ := List.mem_map.1 ha
    exact huncounted.answers ack hack
  | exitGame msg =>
    cases hr
    exact ⟨reqExitGame_counters msg, by simp [Answer.refreshed]⟩
  | updateDailyGameProgress msg =>
    cases hr
    exact ⟨reqUpdateDailyGameProgress_counters env.serverTime ranks msg, by simp [Answer.refreshed]⟩
  | modifyNewTutorial flag =>
    cases hr
    exact ⟨rfl, by simp [Answer.refreshed]⟩
  | modifyNotifyGridState state =>
    cases hr
    exact ⟨rfl, by simp [Answer.refreshed]⟩

theorem refreshed_refreshTask (giveUpTaskId : ℤ) (infos : List MsgTaskConfigInfo) (currentGold : ℤ)
    (error : GameError) :
    (Answer.ack (.advertisementRefreshTask giveUpTaskId infos currentGold error)).refreshed = decide (error = .no) := by
  cases error <;> rfl

theorem refreshed_applyTask (infos : List MsgTaskConfigInfo) (currentGold : ℤ) (error : GameError) :
    (Answer.ack (.advertisementApplyTask infos currentGold error)).refreshed = decide (error = .no) := by
  cases error <;> rfl

theorem countTask_rejected {h' : DreamHero} (hno : (countTask cfg env h').2 ≠ .no) :
    counters (countTask cfg env h').1 = counters h' := by
  revert hno
  rw [countTask]
  split_ifs
  · exact fun hno => absurd rfl hno
  · exact fun _ => rfl

theorem prepareTask_rejected {giveUpTaskId : ℤ} {gold : Bool}
    (hno : (prepareTask cfg env h giveUpTaskId gold).2 ≠ .no) :
    counters (prepareTask cfg env h giveUpTaskId gold).1 = counters h := by
  revert hno
  rw [prepareTask]
  cases refreshTaskError cfg env h gold with
  | no =>
    rw [giveUpTask]
    split_ifs
    · intro hno
      exact countTask_rejected hno
    · intro hno
      exact (countTask_rejected hno).trans rfl
    · exact fun _ => rfl
  | _ => exact fun _ => rfl

variable (cfg env h) in
/-- a refresh that is rejected leaves the counters; one that succeeds passed the test of the time, and is counted -/
theorem refreshTask_counted (giveUpTaskId : ℤ) (gold : Bool) :
    (∃ ack, (refreshTask cfg env h giveUpTaskId gold).2 = [ack] ∧ (Answer.ack ack).refreshed = false ∧
        counters (refreshTask cfg env h giveUpTaskId gold).1 = counters h) ∨
      ∃ ack, (refreshTask cfg env h giveUpTaskId gold).2 = [ack] ∧ (Answer.ack ack).refreshed = true ∧
        counters (refreshTask cfg env h giveUpTaskId gold).1 = (h.currentTaskCount + 1, u32 env.serverTime) ∧
          (h.currentTaskCount ≤ cfg.globalConfig.dayFreeTaskCount ∨
            cfg.globalConfig.dayTaskAdvertisementTaskCd ≤ (env.serverTime : ℤ) - h.lastTaskAdvertisementTime) := by
  have hcounters : counters (refreshTask cfg env h giveUpTaskId gold).1 =
      counters (prepareTask cfg env h giveUpTaskId gold).1 := by
    rw [refreshTask]
    split_ifs <;> rfl
  have hanswer : ∃ ack, (refreshTask cfg env h giveUpTaskId gold).2 = [ack] ∧
      (Answer.ack ack).refreshed = decide ((prepareTask cfg env h giveUpTaskId gold).2 = .no) := by
    rw [refreshTask]
    split_ifs
    · exact ⟨_, rfl, refreshed_refreshTask _ _ _ _⟩
    · exact ⟨_, rfl, refreshed_applyTask _ _ _⟩
    · exact ⟨_, rfl, refreshed_refreshTask _ _ _ _⟩
    · exact ⟨_, rfl, refreshed_applyTask _ _ _⟩
  obtain ⟨ack, hack, hrefreshed⟩ := hanswer
  rw [hcounters]
  by_cases hno : (prepareTask cfg env h giveUpTaskId gold).2 = .no
  · obtain ⟨herror, -, -⟩ := (prepareTask_eq_no_iff giveUpTaskId gold).1 hno
    obtain ⟨-, htime⟩ := (refreshTaskError_eq_no_iff cfg env h gold).1 herror
    refine .inr ⟨ack, hack, hrefreshed.trans (decide_eq_true hno), ?_, htime⟩
    rw [prepareTask_of_no hno]
    rfl
  · exact .inl ⟨ack, hack, hrefreshed.trans (decide_eq_false hno), prepareTask_rejected hno⟩

/-! ## The server and the game masters -/

variable (cfg env h) in
theorem dayRefresh_counters :
    counters (dayRefresh cfg env h) =
      (if canRefresh cfg env h.lastTaskAdvertisementTime then 0
        else h.currentTaskCount, h.lastTaskAdvertisementTime) := by
  rw [dayRefresh_eq]
  rfl

theorem replaceTasks_counters (taskCount : ℕ) : counters (replaceTasks cfg env h taskCount) = counters h := by
  obtain ⟨tasks, htasks⟩ := replaceTasks_tasks cfg env h taskCount
  rw [htasks]
  rfl

theorem command_counters {cmd : Command} (hcmd : h.gmLevel > 0 → cmd.KeepsHero) :
    counters (command cfg env h cmd) = counters h := by
  rw [command]
  split
  case isTrue hlevel =>
    cases cmd with
    | resetGame name => exact (hcmd hlevel).elim
    | replaceTask taskCount => exact replaceTasks_counters _
    | _ => rfl
  case isFalse => rfl

variable (cfg env h) in
/-- a command leaves the counters, or sets both to zero -/
theorem command_counters_or (cmd : Command) :
    counters (command cfg env h cmd) = counters h ∨ counters (command cfg env h cmd) = (0, 0) := by
  by_cases hcmd : h.gmLevel > 0 → cmd.KeepsHero
  · exact .inl (command_counters hcmd)
  · push Not at hcmd
    obtain ⟨hlevel, hcmd⟩ := hcmd
    cases cmd with
    | resetGame name =>
      rw [command, if_pos hlevel]
      exact .inr rfl
    | _ => exact absurd trivial hcmd

theorem tryToGetGamePrize_counters (serverRankTime : ℕ) :
    counters (tryToGetGamePrize cfg serverRankTime h) = counters h := by
  simp only [tryToGetGamePrize]
  split_ifs <;> rfl

theorem dailyGameUpdate_counters (serverRankTime : ℕ) (prize : Option ℤ) :
    counters (tryToGetGamePrize cfg serverRankTime
      (match prize with
        | some gold => dailyGamePrize h gold
        | none => h)) = counters h := by
  rw [tryToGetGamePrize_counters]
  cases prize with
  | none => rfl
  | some gold =>
    simp only [dailyGamePrize]
    split_ifs <;> rfl

variable (cfg) in
theorem setInfo_counters (spiritRecovery : ℕ → ℕ → ℤ × ℕ) (serverTime beginTime : ℕ) (info : MsgHeroDataDB2GS)
    (channel : ℤ) :
    counters (setInfo cfg spiritRecovery serverTime beginTime info channel) =
      (info.freeTaskCount, info.lastTaskAdvertisementTime) := by
  have hdaily (h : DreamHero) : counters (newDailyGame beginTime h) = counters h := by
    rw [newDailyGame]
    split_ifs <;> rfl
  have hspirit (h : DreamHero) : counters (recoverOffline cfg spiritRecovery serverTime h) = counters h := by
    rw [recoverOffline]
    split_ifs <;> rfl
  rw [setInfo, tryToGetGamePrize_counters]
  exact (hdaily _).trans (hspirit _)

/-! ## The condition -/

/-- `dayRefresh` finds that the last refresh is of today -/
def SeenToday (cfg : GameConfig) (s : St) : Prop :=
  canRefresh cfg { serverTime := s.now } s.hero.lastTaskAdvertisementTime = false

/-- the row has the counters of the hero in memory -/
def RowCounts (out : Outside) (s : St) : Prop :=
  ∃ row, s.row = some row ∧ (row.freeTaskCount, out.unixTimestamp row.lastTaskAdvertisementTime) = counters s.hero

/-- the counter stands where the test is missed, and so many refreshes have succeeded today -/
def Untested (cfg : GameConfig) (s : St) : Prop :=
  s.hero.currentTaskCount = cfg.globalConfig.dayFreeTaskCount ∧
  refreshesToday cfg s = cfg.globalConfig.dayFreeTaskCount ∧
    refreshesToday cfg s ≠ 0

def CooldownOk (cfg : GameConfig) (out : Outside) (s : St) : Op → Prop
  | .client _ _ req => req.Refreshes →
    s.now < 2 ^ 32 ∧
      (Untested cfg s → (s.hero.lastTaskAdvertisementTime : ℤ) + cfg.globalConfig.dayTaskAdvertisementTaskCd ≤ s.now)
  | .command _ cmd => (s.hero.gmLevel > 0 → cmd.KeepsHero) ∨ refreshesToday cfg s = 0
  | .dayRefresh _ => SeenToday cfg s ∨ refreshesToday cfg s = 0
  | .reload _ _ _ => (RowCounts out s ∧ SeenToday cfg s) ∨ refreshesToday cfg s = 0
  | _ => True

/-! ## Runs -/

structure CooldownInv (cfg : GameConfig) (s : St) : Prop where
  times : ∀ e ∈ s.log, e.time ≤ s.now
  kept : CooledDown cfg s.log
  counted : (refreshesToday cfg s : ℤ) ≤ s.hero.currentTaskCount
  stamped : ∀ t, (refreshTimes cfg (dayOf cfg s.now) s.log).getLast? = some t → s.hero.lastTaskAdvertisementTime = t
  row : ∀ row, s.row = some row → 0 ≤ row.freeTaskCount

variable {out : Outside} {s s' : St}

/-- nothing has been refreshed today, and the counter is not negative -/
theorem CooldownInv.anew (h : CooldownInv cfg s) (hnone : refreshesToday cfg s = 0) (hlog : s'.log = s.log)
    (hnow : s'.now = s.now) (hrow : s'.row = s.row) (hcount : 0 ≤ s'.hero.currentTaskCount) : CooldownInv cfg s' := by
  have hnil : refreshTimes cfg (dayOf cfg s.now) s.log = [] := List.eq_nil_of_length_eq_zero hnone
  refine ⟨?_, ?_, ?_, ?_, ?_⟩
  · rw [hlog, hnow]
    exact h.times
  · rw [hlog]
    exact h.kept
  · rw [refreshesToday, hlog, hnow, hnil]
    exact hcount
  · rw [hlog, hnow, hnil]
    intro t ht
    cases ht
  · rw [hrow]
    exact h.row

/-- an operation that refreshes nothing and keeps the counters -/
theorem CooldownInv.silent (h : CooldownInv cfg s) (new : List Event) (hnew : ∀ e ∈ new, e.answer.refreshed = false)
    (htime : ∀ e ∈ new, e.time = s.now) (hlog : s'.log = s.log ++ new) (hnow : s'.now = s.now) (hrow : s'.row = s.row)
    (hcounters : counters s'.hero = counters s.hero) : CooldownInv cfg s' := by
  have hsame (day : ℤ) : refreshTimes cfg day s'.log = refreshTimes cfg day s.log := by
    rw [refreshTimes, refreshTimes, hlog, onDay_plain s.log hnew]
  have hcount : s'.hero.currentTaskCount = s.hero.currentTaskCount := congrArg Prod.fst hcounters
  have hlast : s'.hero.lastTaskAdvertisementTime = s.hero.lastTaskAdvertisementTime := congrArg Prod.snd hcounters
  refine ⟨?_, ?_, ?_, ?_, ?_⟩
  · intro e he
    rw [hlog] at he
    rw [hnow]
    rcases List.mem_append.1 he with hold | hin
    · exact h.times e hold
    · exact (htime e hin).le
  · intro day
    rw [hsame]
    exact h.kept day
  · rw [refreshesToday, hsame, hnow, hcount]
    exact h.counted
  · rw [hsame, hnow, hlast]
    exact h.stamped
  · rw [hrow]
    exact h.row

/-- an operation without an answer that keeps the counters -/
theorem CooldownInv.quiet (h : CooldownInv cfg s) (hlog : s'.log = s.log) (hnow : s'.now = s.now)
    (hrow : s'.row = s.row) (hcounters : counters s'.hero = counters s.hero) : CooldownInv cfg s' := by
  refine h.silent [] ?_ ?_ ?_ hnow hrow hcounters
  · exact fun e he => absurd he List.not_mem_nil
  · exact fun e he => absurd he List.not_mem_nil
  · rw [hlog, List.append_nil]

theorem CooldownInv.pass (h : CooldownInv cfg s) (d : ℕ) : CooldownInv cfg { s with now := s.now + d } := by
  have hle : s.now ≤ s.now + d := Nat.le_add_right s.now d
  refine ⟨fun e he => (h.times e he).trans hle, h.kept, ?_, ?_, h.row⟩
  all_goals
    by_cases hday : dayOf cfg (s.now + d : ℕ) = dayOf cfg s.now
  · rw [refreshesToday, hday]
    exact h.counted
  · rw [refreshesToday, refreshTimes, onDay_later h.times hle hday]
    exact (Int.natCast_nonneg _).trans h.counted
  · rw [hday]
    exact h.stamped
  · rw [refreshTimes, onDay_later h.times hle hday]
    intro t ht
    cases ht

/-- a refresh that succeeds -/
theorem CooldownInv.refresh (h : CooldownInv cfg s) {hero : DreamHero} {ack : Ack} {spent : ℤ}
    (hlt : s.now < 2 ^ 32) (hack : (Answer.ack ack).refreshed = true)
    (hcounters : counters hero = (s.hero.currentTaskCount + 1, u32 s.now))
    (htested : s.hero.currentTaskCount ≤ cfg.globalConfig.dayFreeTaskCount ∨
      cfg.globalConfig.dayTaskAdvertisementTaskCd ≤ (s.now : ℤ) - s.hero.lastTaskAdvertisementTime)
    (hok : Untested cfg s →
      (s.hero.lastTaskAdvertisementTime : ℤ) + cfg.globalConfig.dayTaskAdvertisementTaskCd ≤ s.now) :
    CooldownInv cfg { s with hero := hero, log := s.log ++ events s.now spent [.ack ack] } := by
  have hcount : hero.currentTaskCount = s.hero.currentTaskCount + 1 := congrArg Prod.fst hcounters
  have hlast : hero.lastTaskAdvertisementTime = s.now := by
    have hu32 : u32 s.now = s.now := by
      simp only [u32]
      omega
    exact (congrArg Prod.snd hcounters).trans hu32
  have htoday : refreshTimes cfg (dayOf cfg s.now) (s.log ++ events s.now spent [.ack ack]) =
      refreshTimes cfg (dayOf cfg s.now) s.log ++ [s.now] := by
    rw [refreshTimes, onDay_events s.log hack, List.map_append]
    rfl
  have hother {day : ℤ} (hday : dayOf cfg s.now ≠ day) :
      refreshTimes cfg day (s.log ++ events s.now spent [.ack ack]) = refreshTimes cfg day s.log := by
    rw [refreshTimes, onDay_events_other s.log (.inr hday)]
    rfl
  refine ⟨?_, ?_, ?_, ?_, h.row⟩
  · intro e he
    rcases List.mem_append.1 he with hold | hnew
    · exact h.times e hold
    · exact (mem_events hnew).1.le
  · intro day
    by_cases hday : dayOf cfg s.now = day
    · subst hday
      rw [htoday]
      refine (h.kept _).snoc ?_
      intro hfree t ht
      have hstamp := h.stamped t ht
      have hpos : refreshesToday cfg s ≠ 0 := by
        intro hzero
        rw [List.eq_nil_of_length_eq_zero hzero] at ht
        cases ht
      have hcounted := h.counted
      -- beyond the free refreshes the code tests the time, unless the counter is at the last of them
      rcases htested with huntested | htime
      · have hat := hok ⟨by rw [refreshesToday] at hcounted; omega, by rw [refreshesToday] at hcounted ⊢; omega, hpos⟩
        rw [hstamp] at hat
        exact hat
      · rw [hstamp] at htime
        omega
    · rw [hother hday]
      exact h.kept day
  · have hcounted := h.counted
    rw [refreshesToday] at hcounted ⊢
    dsimp only
    rw [htoday, hcount, List.length_append, List.length_singleton]
    omega
  · intro t ht
    dsimp only at ht ⊢
    rw [htoday, List.getLast?_append_of_ne_nil _ (List.cons_ne_nil _ _)] at ht
    cases ht
    exact hlast

/-- a request -/
theorem CooldownInv.client (h : CooldownInv cfg s) {env : Env} {ranks : RankManager} {req : ClientRequest}
    (hok : CooldownOk cfg out s (.client env ranks req)) :
    CooldownInv cfg (step cfg out s (.client env ranks req)) := by
  have hrefresh (giveUpTaskId : ℤ) (gold : Bool) (hok : s.now < 2 ^ 32 ∧ (Untested cfg s →
        (s.hero.lastTaskAdvertisementTime : ℤ) + cfg.globalConfig.dayTaskAdvertisementTaskCd ≤ s.now)) :
      let r := refreshTask cfg { env with serverTime := s.now } s.hero giveUpTaskId gold
      CooldownInv cfg { s with
        hero := r.1, log := s.log ++ events s.now (s.hero.info.jewel - r.1.info.jewel) (r.2.map .ack) } := by
    intro r
    rcases refreshTask_counted cfg { env with serverTime := s.now } s.hero giveUpTaskId gold with
      ⟨ack, hack, hplain, hcounters⟩ | ⟨ack, hack, hdone, hcounters, htested⟩
    · refine h.silent (events s.now _ (r.2.map .ack)) ?_ ?_ rfl rfl rfl hcounters
      · rw [hack]
        exact events_single hplain
      · exact fun e he => (mem_events he).1
    · have hsingle : r.2.map Answer.ack = [.ack ack] := by rw [hack, List.map_singleton]
      rw [hsingle]
      exact h.refresh hok.1 hdone hcounters htested hok.2
  by_cases hreq : req.Refreshes
  · cases req with
    | request req =>
      cases req with
      | advertisementApplyTask gold => exact hrefresh 0 gold (hok trivial)
      | advertisementRefreshTask giveUpTaskId gold => exact hrefresh giveUpTaskId gold (hok trivial)
      | _ => exact absurd hreq id
    | _ => exact absurd hreq id
  · rw [step]
    split
    case h_1 hero ranks' answers hr =>
      obtain ⟨hcounters, hanswers⟩ := handleClient_uncounted hreq hr
      refine h.silent (events s.now _ answers) ?_ ?_ rfl rfl rfl hcounters
      · exact events_other hanswers
      · exact fun e he => (mem_events he).1
    case h_2 => exact h

/-- a day refresh that finds the hero of today, or finds that nothing was refreshed today -/
theorem CooldownInv.dayRefresh (h : CooldownInv cfg s) (env : Env) {hero : DreamHero}
    (hok : (counters hero = counters s.hero ∧ SeenToday cfg s) ∨
      (refreshesToday cfg s = 0 ∧ 0 ≤ hero.currentTaskCount)) :
    CooldownInv cfg { s with hero := Requests.dayRefresh cfg { env with serverTime := s.now } hero } := by
  have hcounters := dayRefresh_counters cfg { env with serverTime := s.now } hero
  rcases hok with ⟨hsame, hseen⟩ | ⟨hnone, hnonneg⟩
  · refine h.quiet rfl rfl rfl ?_
    have hcount : hero.currentTaskCount = s.hero.currentTaskCount := congrArg Prod.fst hsame
    have hlast : hero.lastTaskAdvertisementTime = s.hero.lastTaskAdvertisementTime := congrArg Prod.snd hsame
    have hno : canRefresh cfg { env with serverTime := s.now } hero.lastTaskAdvertisementTime = false := by
      rw [hlast]
      exact hseen
    dsimp only
    rw [hcounters, hno, hcount, hlast]
    rfl
  · refine h.anew hnone rfl rfl rfl ?_
    have hcount := congrArg Prod.fst hcounters
    dsimp only [counters] at hcount ⊢
    rw [hcount]
    split_ifs
    · exact le_rfl
    · exact hnonneg

theorem cooldownInv_step (s : St) (o : Op) (h : CooldownInv cfg s) (hok : CooldownOk cfg out s o) :
    CooldownInv cfg (step cfg out s o) := by
  cases o with
  | pass d => exact h.pass d
  | client env ranks req => exact h.client hok
  | command env cmd =>
    rcases hok with hkeeps | hnone
    · exact h.quiet rfl rfl rfl (command_counters hkeeps)
    · refine h.anew hnone rfl rfl rfl ?_
      have hnonneg : 0 ≤ s.hero.currentTaskCount := (Int.natCast_nonneg _).trans h.counted
      rcases command_counters_or cfg { env with serverTime := s.now } s.hero cmd with hc | hc
      · exact (congrArg Prod.fst hc).ge.trans' hnonneg
      · exact (congrArg Prod.fst hc).ge
  | dayRefresh env =>
    refine h.dayRefresh env ?_
    rcases hok with hseen | hnone
    · exact .inl ⟨rfl, hseen⟩
    · exact .inr ⟨hnone, (Int.natCast_nonneg _).trans h.counted⟩
  | dailyGameUpdate prize => exact h.quiet rfl rfl rfl (dailyGameUpdate_counters s.beginTime prize)
  | offlinePrize beginTime prizeGold =>
    refine ⟨h.times, h.kept, h.counted, h.stamped, ?_⟩
    intro row hrow
    obtain ⟨old, hold, rfl⟩ := Option.map_eq_some_iff.1 hrow
    exact h.row old hold
  | saveHero =>
    refine ⟨h.times, h.kept, h.counted, h.stamped, ?_⟩
    intro row hrow
    cases hrow
    exact (Int.natCast_nonneg _).trans h.counted
  | reload env name channel =>
    refine h.dayRefresh env ?_
    rw [loadHero]
    cases hrow : s.row with
    | some row =>
      dsimp only
      rw [setInfo_counters]
      rcases hok with ⟨⟨row', hrow', hcounts⟩, hseen⟩ | hnone
      · rw [hrow] at hrow'
        cases hrow'
        exact .inl ⟨hcounts, hseen⟩
      · refine .inr ⟨hnone, ?_⟩
        have hcount := congrArg Prod.fst (setInfo_counters cfg out.spiritRecovery s.now s.beginTime
          (dbDoQueryHeroInfo out.unixTimestamp row) channel)
        exact (h.row row hrow).trans_eq hcount.symm
    | none =>
      rcases hok with ⟨⟨row', hrow', -⟩, -⟩ | hnone
      · rw [hrow] at hrow'
        cases hrow'
      · exact .inr ⟨hnone, le_rfl⟩
  | _ => exact h.quiet rfl rfl rfl rfl

/-- **The refresh cooldown.** From the creation of a hero on, along a run that meets `CooldownOk`: on every game day, a
refresh that succeeds after the first `day_free_task_count_` ones comes `day_task_advertisement_task_cd_` seconds after
the one before it, whatever the client, the game masters and the timers do, and however often the hero is loaded. -/
theorem refresh_cooldown (cfg : GameConfig) (out : Outside) (name : String) (channel : ℤ) (h : DreamHero)
    (now beginTime : ℕ) (ops : List Op)
    (hops : Along (step cfg out) (CooldownOk cfg out) (start cfg name channel h none now beginTime) ops) :
    CooledDown cfg (run (step cfg out) (start cfg name channel h none now beginTime) ops).log := by
  have hstart : CooldownInv cfg (start cfg name channel h none now beginTime) := by
    refine ⟨?_, ?_, le_rfl, ?_, ?_⟩
    · exact fun e he => absurd he List.not_mem_nil
    · intro day i t t' ht
      cases ht
    · intro t ht
      cases ht
    · intro row hrow
      cases hrow
  exact (inv_run cooldownInv_step hstart hops).kept

/-- UTC+8, refreshed at five, one free refresh a day, the others 60 seconds apart -/
def oneFree : GameConfig where
  utcOffset := 28800
  globalConfig := { dayRefreshTime := 5, dayFreeTaskCount := 1, dayTaskAdvertisementTaskCd := 60,
                    heroMaxTasksCount := 1 }

/-- at noon a hero is refreshed twice, a minute apart, saved, and loaded again -/
theorem refresh_cooldown_noon :
    let ranks : RankManager := { dailyMaxRankSize := 1, minDailyScore := 0 }
    let ops : List Op :=
      [.client {} ranks (.request (.advertisementApplyTask false)), .pass 60,
        .client {} ranks (.request (.advertisementApplyTask false)), .saveHero, .reload {} "a" 0]
    CooledDown oneFree (run (step oneFree plainOutside) (start oneFree "a" 0 {} none 1500004800 1) ops).log := by
  intro ranks ops
  refine refresh_cooldown oneFree plainOutside "a" 0 {} 1500004800 1 ops ?_
  refine ⟨fun _ => ⟨by decide, fun hun => absurd hun.1 (by decide)⟩, trivial, fun _ => ⟨by decide, fun _ => by decide⟩,
    trivial, .inl ⟨⟨_, rfl, Prod.ext rfl (plainOutside_clock _)⟩, ?_⟩, trivial⟩
  rw [SeenToday]
  decide

/-- the counter is compared with `>`: with one free refresh, two succeed in the same second -/
theorem refreshed_at_once :
    ¬ ∀ (cfg : GameConfig) (out : Outside) (name : String) (channel : ℤ) (h : DreamHero) (now beginTime : ℕ)
    (ops : List Op),
      CooledDown cfg (run (step cfg out) (start cfg name channel h none now beginTime) ops).log := by
  intro hall
  let ranks : RankManager := { dailyMaxRankSize := 1, minDailyScore := 0 }
  have hkept := hall oneFree plainOutside "a" 0 {} 1500004800 1
    [.client {} ranks (.request (.advertisementApplyTask false)),
      .client {} ranks (.request (.advertisementApplyTask false))]
  have hspaced := hkept (dayOf oneFree 1500004800) 0 1500004800 1500004800 (by decide) (by decide) (by decide)
  revert hspaced
  decide

end DreamHeroes.Hero.Requests

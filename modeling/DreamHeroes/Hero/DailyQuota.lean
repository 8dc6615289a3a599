/-
The daily quotas of a hero: one lottery, `config_day_buy_spirit_` purchases of spirit, and the resets of the daily game
at the configured prices.

- `onDay`: the events of a kind on a game day. `QuotaKept`: the quotas, over a whole log.
- `UsedToday`: a stored time of the running game day.
- `QuotaOk`: what an operation must find. Between midnight and the refresh hour `isInToday` is false for the times of
  the running game day, so nothing may be tested then that was used in it; a row that is loaded must have what was used
  today; and the period of the daily game must not change on a day on which the hero has reset it.
- `quotaInv_step`, `daily_quotas`: along runs that meet it, the quotas are kept. `two_lotteries` is a hero that draws at
  two in the morning, twice.
-/
import Mathlib.Tactic
import DreamHeroes.Lib.Machine
import DreamHeroes.Hero.RequestEffects

namespace DreamHeroes.Hero.Requests

open DreamHeroes.Lib DreamHeroes.Config DreamHeroes.Rank

/-! ## Game days -/

/-- the game day of the configuration -/
def dayOf (cfg : GameConfig) (t : ℤ) : ℤ := gameDay cfg.utcOffset cfg.globalConfig.dayRefreshTime t

/-- the refresh hour of the calendar day has passed -/
def Refreshed (cfg : GameConfig) (now : ℕ) : Prop :=
  3600 * cfg.globalConfig.dayRefreshTime ≤ localSec cfg.utcOffset now

/-- a time that is set, in the running game day -/
def UsedToday (cfg : GameConfig) (now t : ℕ) : Prop := t ≠ 0 ∧ dayOf cfg t = dayOf cfg now

structure RefreshHour (cfg : GameConfig) : Prop where
  nonneg : 0 ≤ cfg.globalConfig.dayRefreshTime
  lt : cfg.globalConfig.dayRefreshTime ≤ 23

variable {cfg : GameConfig} {out : Outside}

theorem dayOf_mono (cfg : GameConfig) {t t' : ℕ} (h : t ≤ t') : dayOf cfg t ≤ dayOf cfg t' := by
  simp only [dayOf, gameDay, periodDay]
  omega

theorem today_iff (hhour : RefreshHour cfg) {now : ℕ} (hnow : Refreshed cfg now) (t : ℕ) :
    cfg.today now t = true ↔ dayOf cfg t = dayOf cfg now := by
  have hday := gameDay_eq cfg.utcOffset cfg.globalConfig.dayRefreshTime now hhour.nonneg hhour.lt
  rw [if_neg (not_lt.2 hnow)] at hday
  rw [GameConfig.today, window_eq, dayOf, dayOf, hday]

/-- a time of an earlier game day is never in today -/
theorem today_earlier (hhour : RefreshHour cfg) {now t : ℕ} (ht : t ≤ now) (hday : dayOf cfg t ≠ dayOf cfg now) :
    cfg.today now t = false := by
  have hnow := gameDay_eq cfg.utcOffset cfg.globalConfig.dayRefreshTime now hhour.nonneg hhour.lt
  have hle := dayOf_mono cfg ht
  rw [← Bool.not_eq_true, GameConfig.today, window_eq]
  intro heq
  simp only [dayOf] at hday hle
  split_ifs at hnow <;> omega

theorem UsedToday.today (hhour : RefreshHour cfg) {now t : ℕ} (hused : UsedToday cfg now t) (hnow : Refreshed cfg now) :
    cfg.today now t = true := (today_iff hhour hnow t).2 hused.2

theorem UsedToday.of_eq {now t t' : ℕ} (hused : UsedToday cfg now t) (heq : t' = t) :
    UsedToday cfg now t' := heq ▸ hused

/-! ## Quotas -/

/-- the events of a kind on a game day -/
def onDay (cfg : GameConfig) (p : Answer → Bool) (day : ℤ) (log : List Event) : List Event :=
  log.filter fun e => p e.answer && decide (dayOf cfg e.time = day)

structure QuotaKept (cfg : GameConfig) (log : List Event) : Prop where
  lottery : ∀ day, (onDay cfg Answer.drawn day log).length ≤ 1
  spirit : ∀ day, ((onDay cfg Answer.bought day log).length : ℤ) ≤ max cfg.globalConfig.configDayBuySpirit 0
  /-- so there are at most as many resets as prices, and the `k`-th costs the `k`-th price -/
  reset : ∀ day, (onDay cfg Answer.reset day log).map (·.spentJewel) <+: cfg.globalConfig.dailyGameResetJewelConfig

theorem onDay_append (p : Answer → Bool) (day : ℤ) (log log' : List Event) :
    onDay cfg p day (log ++ log') = onDay cfg p day log ++ onDay cfg p day log' := List.filter_append log log'

/-- an event of another kind, or of another day -/
theorem onDay_snoc_other {p : Answer → Bool} {day : ℤ} (log : List Event) {e : Event}
    (he : p e.answer = false ∨ dayOf cfg e.time ≠ day) : onDay cfg p day (log ++ [e]) = onDay cfg p day log := by
  rw [onDay_append]
  rcases he with hp | hday
  · simp [onDay, hp]
  · simp [onDay, hday]

theorem onDay_snoc {p : Answer → Bool} (log : List Event) {e : Event} (hp : p e.answer = true) :
    onDay cfg p (dayOf cfg e.time) (log ++ [e]) = onDay cfg p (dayOf cfg e.time) log ++ [e] := by
  rw [onDay_append]
  simp [onDay, hp]

theorem onDay_plain {p : Answer → Bool} {day : ℤ} (log : List Event) {new : List Event}
    (hp : ∀ e ∈ new, p e.answer = false) : onDay cfg p day (log ++ new) = onDay cfg p day log := by
  have hnil : onDay cfg p day new = [] := List.filter_eq_nil_iff.2 fun e he => by simp [hp e he]
  rw [onDay_append, hnil, List.append_nil]

theorem mem_onDay {p : Answer → Bool} {day : ℤ} {log : List Event} {e : Event} :
    e ∈ onDay cfg p day log ↔ e ∈ log ∧ p e.answer = true ∧ dayOf cfg e.time = day := by
  simp [onDay, List.mem_filter]

/-- when the game day has changed, nothing has happened yet -/
theorem onDay_later {p : Answer → Bool} {log : List Event} {now now' : ℕ} (htimes : ∀ e ∈ log, e.time ≤ now)
    (hle : now ≤ now') (hday : dayOf cfg now' ≠ dayOf cfg now) : onDay cfg p (dayOf cfg now') log = [] := by
  refine List.eq_nil_iff_forall_not_mem.2 fun e he => hday ?_
  obtain ⟨hmem, -, heq⟩ := mem_onDay.1 he
  have h1 := dayOf_mono cfg (htimes e hmem)
  have h2 := dayOf_mono cfg hle
  omega

/-! ## The stored times -/

/-- once an event of the kind has happened today, the stored time is of today -/
def Stamped (cfg : GameConfig) (p : Answer → Bool) (log : List Event) (now t : ℕ) : Prop :=
  onDay cfg p (dayOf cfg now) log ≠ [] → UsedToday cfg now t

theorem Stamped.later {p : Answer → Bool} {log : List Event} {now now' t : ℕ} (h : Stamped cfg p log now t)
    (htimes : ∀ e ∈ log, e.time ≤ now) (hle : now ≤ now') : Stamped cfg p log now' t := by
  by_cases hday : dayOf cfg now' = dayOf cfg now
  · rw [Stamped, UsedToday, hday]
    exact h
  · intro hne
    exact absurd (onDay_later htimes hle hday) hne

theorem Stamped.other {p : Answer → Bool} {log new : List Event} {now t : ℕ} (h : Stamped cfg p log now t)
    (hp : ∀ e ∈ new, p e.answer = false) : Stamped cfg p (log ++ new) now t := by
  rw [Stamped, onDay_plain log hp]
  exact h

/-- the time that a request stores -/
theorem usedToday_now {now : ℕ} (hpos : 0 < now) (hlt : now < 2 ^ 32) : UsedToday cfg now (u32 now) := by
  have heq : u32 now = now := by
    simp only [u32]
    omega
  rw [heq]
  exact ⟨Nat.pos_iff_ne_zero.1 hpos, rfl⟩

/-- the answers of a request, as events -/
def events (now : ℕ) (spent : ℤ) (answers : List Answer) : List Event := answers.map fun answer => ⟨now, answer, spent⟩

theorem mem_events {now : ℕ} {spent : ℤ} {answers : List Answer} {e : Event} (he : e ∈ events now spent answers) :
    e.time = now ∧ e.answer ∈ answers := by
  obtain ⟨a, ha, rfl⟩ := List.mem_map.1 he
  exact ⟨rfl, ha⟩

/-- answers of other kinds -/
theorem events_other {p : Answer → Bool} {now : ℕ} {spent : ℤ} {answers : List Answer}
    (hp : ∀ a ∈ answers, p a = false) :
    ∀ e ∈ events now spent answers, p e.answer = false := fun _ he => hp _ (mem_events he).2

theorem onDay_events_other {p : Answer → Bool} {day : ℤ} {now : ℕ} {spent : ℤ} {a : Answer} (log : List Event)
    (ha : p a = false ∨ dayOf cfg now ≠ day) : onDay cfg p day (log ++ events now spent [a]) = onDay cfg p day log :=
  onDay_snoc_other log (e := ⟨now, a, spent⟩) ha

theorem onDay_events {p : Answer → Bool} {now : ℕ} {spent : ℤ} {a : Answer} (log : List Event) (ha : p a = true) :
    onDay cfg p (dayOf cfg now) (log ++ events now spent [a]) = onDay cfg p (dayOf cfg now) log ++ [⟨now, a, spent⟩] :=
  onDay_snoc log (e := ⟨now, a, spent⟩) ha

theorem events_single {p : Answer → Bool} {now : ℕ} {spent : ℤ} {a : Answer} (hp : p a = false) :
    ∀ e ∈ events now spent [a], p e.answer = false :=
  events_other fun b hb => by rwa [List.mem_singleton.1 hb]

/-! ## The lottery -/

structure LotteryInv (cfg : GameConfig) (log : List Event) (now : ℕ) (m : Marks) : Prop where
  kept : ∀ day, (onDay cfg Answer.drawn day log).length ≤ 1
  stamped : Stamped cfg Answer.drawn log now m.lastDayLotteryTime

theorem LotteryInv.other {log new : List Event} {now : ℕ} {m m' : Marks} (h : LotteryInv cfg log now m)
    (hp : ∀ e ∈ new, Answer.drawn e.answer = false) (hm : m'.lastDayLotteryTime = m.lastDayLotteryTime) :
    LotteryInv cfg (log ++ new) now m' := by
  refine ⟨?_, ?_⟩
  · intro day
    rw [onDay_plain log hp]
    exact h.kept day
  · rw [hm]
    exact h.stamped.other hp

/-- a lottery on a day without one -/
theorem LotteryInv.draw {log : List Event} {now : ℕ} {m m' : Marks} (h : LotteryInv cfg log now m) (hpos : 0 < now)
    (hlt : now < 2 ^ 32) (hfree : ¬ UsedToday cfg now m.lastDayLotteryTime) (hm : m'.lastDayLotteryTime = u32 now)
    (a : Answer) (spent : ℤ) : LotteryInv cfg (log ++ events now spent [a]) now m' := by
  have hnone : onDay cfg Answer.drawn (dayOf cfg now) log = [] := by
    by_contra hne
    exact hfree (h.stamped hne)
  refine ⟨?_, ?_⟩
  · intro day
    by_cases hday : dayOf cfg now = day
    · rw [← hday, onDay_append, hnone]
      exact List.length_filter_le _ _
    · rw [onDay_events_other log (.inr hday)]
      exact h.kept day
  · intro _
    rw [hm]
    exact usedToday_now hpos hlt

theorem LotteryInv.effect {env : Env} {log : List Event} {now beginTime : ℕ} {hero : DreamHero} {req : ClientRequest}
    {m : Marks} {answers : List Answer} {spent : ℤ} (h : LotteryInv cfg log now (marks hero)) (hhour : RefreshHour cfg)
    (hpos : 0 < now) (hlt : now < 2 ^ 32)
    (hok : req = .request .dayLottery → UsedToday cfg now hero.lastDayLotteryTime → Refreshed cfg now)
    (heff : Effect cfg { env with serverTime := now } beginTime hero req m answers spent) :
    LotteryInv cfg (log ++ events now spent answers) now m := by
  cases heff with
  | plain _ _ hplain => exact h.other (events_other fun a ha => (hplain a ha).drawn) rfl
  | enterGame _ _ a _ _ _ hquota => exact h.other (events_single hquota.1) rfl
  | exitGame _ ack => exact h.other (events_single rfl) rfl
  | dayLottery a _ hreq htoday =>
    refine h.draw hpos hlt ?_ rfl a spent
    intro hused
    have htrue := hused.today hhour (hok hreq hused)
    exact Bool.false_ne_true (htoday.symm.trans htrue)
  | buySpirit a _ _ _ _ hquota => exact h.other (events_single hquota.1) rfl
  | resetDailyGame a _ _ _ _ _ _ hquota => exact h.other (events_single hquota.1) rfl
  | beginPeriod _ a _ _ _ hplain => exact h.other (events_single hplain.drawn) rfl

/-! ## The spirit -/

structure SpiritInv (cfg : GameConfig) (log : List Event) (now : ℕ) (m : Marks) : Prop where
  kept : ∀ day, ((onDay cfg Answer.bought day log).length : ℤ) ≤ max cfg.globalConfig.configDayBuySpirit 0
  stamped : Stamped cfg Answer.bought log now m.lastBuySpiritTime
  count : ((onDay cfg Answer.bought (dayOf cfg now) log).length : ℤ) ≤ m.dayBuySpirit

theorem SpiritInv.other {log new : List Event} {now : ℕ} {m m' : Marks} (h : SpiritInv cfg log now m)
    (hp : ∀ e ∈ new, Answer.bought e.answer = false) (htime : m'.lastBuySpiritTime = m.lastBuySpiritTime)
    (hcount : m'.dayBuySpirit = m.dayBuySpirit) : SpiritInv cfg (log ++ new) now m' := by
  refine ⟨?_, ?_, ?_⟩
  · intro day
    rw [onDay_plain log hp]
    exact h.kept day
  · rw [htime]
    exact h.stamped.other hp
  · rw [onDay_plain log hp, hcount]
    exact h.count

theorem SpiritInv.buy {log : List Event} {now : ℕ} {m m' : Marks} (h : SpiritInv cfg log now m) (hpos : 0 < now)
    (hlt : now < 2 ^ 32) (hfree : m.dayBuySpirit < cfg.globalConfig.configDayBuySpirit)
    (htime : m'.lastBuySpiritTime = u32 now) (hcount : m'.dayBuySpirit = m.dayBuySpirit + 1) (a : Answer) (spent : ℤ) :
    SpiritInv cfg (log ++ events now spent [a]) now m' := by
  have hlen : ((onDay cfg Answer.bought (dayOf cfg now) (log ++ events now spent [a])).length : ℤ) ≤
    m.dayBuySpirit + 1 := by
    have hold := h.count
    have hnew : (onDay cfg Answer.bought (dayOf cfg now) (events now spent [a])).length ≤ 1 := List.length_filter_le _ _
    rw [onDay_append, List.length_append]
    omega
  refine ⟨?_, ?_, ?_⟩
  · intro day
    by_cases hday : dayOf cfg now = day
    · rw [← hday]
      exact hlen.trans (by omega)
    · rw [onDay_events_other log (.inr hday)]
      exact h.kept day
  · intro _
    rw [htime]
    exact usedToday_now hpos hlt
  · rw [hcount]
    exact hlen

theorem SpiritInv.effect {env : Env} {log : List Event} {now beginTime : ℕ} {hero : DreamHero} {req : ClientRequest}
    {m : Marks} {answers : List Answer} {spent : ℤ} (h : SpiritInv cfg log now (marks hero)) (hpos : 0 < now)
    (hlt : now < 2 ^ 32) (heff : Effect cfg { env with serverTime := now } beginTime hero req m answers spent) :
    SpiritInv cfg (log ++ events now spent answers) now m := by
  cases heff with
  | plain _ _ hplain => exact h.other (events_other fun a ha => (hplain a ha).bought) rfl rfl
  | enterGame _ _ a _ _ _ hquota => exact h.other (events_single hquota.2.1) rfl rfl
  | exitGame _ ack => exact h.other (events_single rfl) rfl rfl
  | dayLottery a _ _ _ _ _ hquota => exact h.other (events_single hquota.1) rfl rfl
  | buySpirit a _ hday => exact h.buy hpos hlt hday rfl rfl a spent
  | resetDailyGame a _ _ _ _ _ _ hquota => exact h.other (events_single hquota.2) rfl rfl
  | beginPeriod _ a _ _ _ hplain => exact h.other (events_single hplain.bought) rfl rfl

/-- the count is set to 0 on a day without a purchase -/
theorem SpiritInv.refresh (env : Env) {log : List Event} {now : ℕ} {hero : DreamHero}
    (h : SpiritInv cfg log now (marks hero)) (hhour : RefreshHour cfg)
    (hok : onDay cfg Answer.bought (dayOf cfg now) log ≠ [] → Refreshed cfg now) :
    SpiritInv cfg log now (marks (dayRefresh cfg { env with serverTime := now } hero)) := by
  rw [dayRefresh_marks]
  split
  case isTrue hrefresh =>
    have hnone : onDay cfg Answer.bought (dayOf cfg now) log = [] := by
      by_contra hne
      have hused := h.stamped hne
      have htrue := hused.today hhour (hok hne)
      simp only [canRefresh, Bool.or_eq_true, beq_iff_eq, Bool.not_eq_true'] at hrefresh
      rcases hrefresh with hzero | hfalse
      · exact hused.1 hzero
      · exact Bool.false_ne_true (hfalse.symm.trans htrue)
    exact ⟨h.kept, h.stamped, by rw [hnone]; exact le_rfl⟩
  case isFalse => exact h

/-! ## The resets -/

/-- a stored time of a reset, and its count -/
def ResetMark (log : List Event) (time : ℕ) (count : ℤ) : Prop :=
  (time = 0 ∧ count = 0) ∨ ∃ e ∈ log, Answer.reset e.answer = true ∧ e.time = time

theorem ResetMark.append {log : List Event} {time : ℕ} {count : ℤ} (h : ResetMark log time count) (new : List Event) :
    ResetMark (log ++ new) time count := by
  rcases h with hzero | ⟨e, he, hreset⟩
  · exact .inl hzero
  · exact .inr ⟨e, List.mem_append_left new he, hreset⟩

theorem ResetMark.le {log : List Event} {now time : ℕ} {count : ℤ} (h : ResetMark log time count)
    (htimes : ∀ e ∈ log, e.time ≤ now) : time ≤ now := by
  rcases h with ⟨rfl, -⟩ | ⟨e, he, -, rfl⟩
  · exact Nat.zero_le now
  · exact htimes e he

/-- a stored time of the running day is the time of a reset of the running day -/
theorem ResetMark.used {log : List Event} {now time : ℕ} {count : ℤ} (h : ResetMark log time count)
    (hused : UsedToday cfg now time) : onDay cfg Answer.reset (dayOf cfg now) log ≠ [] := by
  rcases h with ⟨hzero, -⟩ | ⟨e, he, hreset, rfl⟩
  · exact absurd hzero hused.1
  · exact List.ne_nil_of_mem (mem_onDay.2 ⟨he, hreset, hused.2⟩)

structure ResetInv (cfg : GameConfig) (log : List Event) (now : ℕ) (m : Marks) : Prop where
  kept : ∀ day, (onDay cfg Answer.reset day log).map (·.spentJewel) <+: cfg.globalConfig.dailyGameResetJewelConfig
  stamped : Stamped cfg Answer.reset log now m.lastDailyResetGameTime
  count : UsedToday cfg now m.lastDailyResetGameTime →
    ((onDay cfg Answer.reset (dayOf cfg now) log).length : ℤ) = m.dailyResetGameCount
  mark : ResetMark log m.lastDailyResetGameTime m.dailyResetGameCount

theorem ResetInv.other {log new : List Event} {now : ℕ} {m m' : Marks} (h : ResetInv cfg log now m)
    (hp : ∀ e ∈ new, Answer.reset e.answer = false) (htime : m'.lastDailyResetGameTime = m.lastDailyResetGameTime)
    (hcount : m'.dailyResetGameCount = m.dailyResetGameCount) : ResetInv cfg (log ++ new) now m' := by
  refine ⟨?_, ?_, ?_, ?_⟩
  · intro day
    rw [onDay_plain log hp]
    exact h.kept day
  · rw [htime]
    exact h.stamped.other hp
  · rw [htime, hcount, onDay_plain log hp]
    exact h.count
  · rw [htime, hcount]
    exact h.mark.append new

/-- the next count is one more than the resets of today -/
theorem ResetInv.next {env : Env} {log : List Event} {now : ℕ} {hero : DreamHero}
    (h : ResetInv cfg log now (marks hero)) (hhour : RefreshHour cfg) (htimes : ∀ e ∈ log, e.time ≤ now)
    (hok : UsedToday cfg now hero.lastDailyResetGameTime → Refreshed cfg now) :
    nextResetCount cfg { env with serverTime := now } hero =
      ((onDay cfg Answer.reset (dayOf cfg now) log).length : ℤ) + 1 := by
  rw [nextResetCount]
  by_cases hused : UsedToday cfg now hero.lastDailyResetGameTime
  · have htrue : cfg.today now hero.lastDailyResetGameTime = true := hused.today hhour (hok hused)
    rw [if_neg (by simp [htrue])]
    exact congrArg (· + 1) (h.count hused).symm
  · have hnone : onDay cfg Answer.reset (dayOf cfg now) log = [] := by
      by_contra hne
      exact hused (h.stamped hne)
    rw [hnone]
    rcases h.mark with ⟨-, hcount⟩ | ⟨e, he, hreset, heq⟩
    · -- the time 0 may be of the running game day; its count is 0
      split
      · rfl
      · rw [show hero.info.dailyResetGameCount = 0 from hcount]
        rfl
    · have hday : dayOf cfg hero.lastDailyResetGameTime ≠ dayOf cfg now := by
        intro hsame
        have hmem := mem_onDay.2 ⟨he, hreset, (congrArg (fun t : ℕ => dayOf cfg t) heq).trans hsame⟩
        rw [hnone] at hmem
        cases hmem
      have hfalse : cfg.today now hero.lastDailyResetGameTime = false := today_earlier hhour (h.mark.le htimes) hday
      rw [if_pos hfalse]
      rfl

/-- one more reset, at the next price -/
theorem ResetInv.reset {env : Env} {log : List Event} {now : ℕ} {hero : DreamHero} {m' : Marks}
    (h : ResetInv cfg log now (marks hero)) (hpos : 0 < now) (hlt : now < 2 ^ 32)
    (hnext : nextResetCount cfg { env with serverTime := now } hero =
      ((onDay cfg Answer.reset (dayOf cfg now) log).length : ℤ) + 1) {a : Answer} {jewel : ℤ}
    (hjewel : resetJewel cfg (nextResetCount cfg { env with serverTime := now } hero) = some jewel)
    (ha : a.reset = true) (htime : m'.lastDailyResetGameTime = u32 now)
    (hcount : m'.dailyResetGameCount = nextResetCount cfg { env with serverTime := now } hero) :
    ResetInv cfg (log ++ events now jewel [a]) now m' := by
  have hnow : u32 now = now := by
    simp only [u32]
    omega
  have hprice : cfg.globalConfig.dailyGameResetJewelConfig[(onDay cfg Answer.reset (dayOf cfg now) log).length]? =
      some jewel := by
    rw [hnext, resetJewel, if_neg (by omega)] at hjewel
    simpa using hjewel
  refine ⟨?_, ?_, ?_, .inr ⟨⟨now, a, jewel⟩, ?_, ha, ?_⟩⟩
  · intro day
    by_cases hday : dayOf cfg now = day
    · have hold := List.prefix_iff_eq_take.1 (h.kept (dayOf cfg now))
      rw [← hday, onDay_events log ha, List.map_append, hold, List.length_map]
      have htake := List.take_add_one (l := cfg.globalConfig.dailyGameResetJewelConfig)
        (i := (onDay cfg Answer.reset (dayOf cfg now) log).length)
      rw [hprice] at htake
      exact htake ▸ List.take_prefix _ _
    · rw [onDay_events_other log (.inr hday)]
      exact h.kept day
  · intro _
    rw [htime]
    exact usedToday_now hpos hlt
  · intro _
    rw [onDay_events log ha, List.length_append, hcount, hnext]
    simp
  · exact List.mem_append_right log List.mem_cons_self
  · rw [htime, hnow]

/-- the request that zeroes the count, on a day without a reset -/
theorem ResetInv.zero {log new : List Event} {now : ℕ} {m m' : Marks} (h : ResetInv cfg log now m)
    (hp : ∀ e ∈ new, Answer.reset e.answer = false) (hfree : ¬ UsedToday cfg now m.lastDailyResetGameTime)
    (htime : m'.lastDailyResetGameTime = m.lastDailyResetGameTime) (hcount : m'.dailyResetGameCount = 0) :
    ResetInv cfg (log ++ new) now m' := by
  refine ⟨?_, ?_, ?_, ?_⟩
  · intro day
    rw [onDay_plain log hp]
    exact h.kept day
  · rw [htime]
    exact h.stamped.other hp
  · rw [htime]
    exact fun hused => absurd hused hfree
  · rw [htime, hcount]
    rcases h.mark with ⟨hzero, -⟩ | hmem
    · exact .inl ⟨hzero, rfl⟩
    · exact ResetMark.append (.inr hmem) new

/-! ## What an operation must find -/

/-- `beginTime` is that of the rank list -/
def RequestOk (cfg : GameConfig) (now beginTime : ℕ) (hero : DreamHero) : ClientRequest → Prop
  | .request .dayLottery => UsedToday cfg now hero.lastDayLotteryTime → Refreshed cfg now
  | .request .resetDailyGameProgress =>
    cfg.today now hero.dailyGameTime = true → UsedToday cfg now hero.lastDailyResetGameTime → Refreshed cfg now
  | .updateDailyGameProgress _ => beginTime ≠ hero.dailyGameTime → ¬ UsedToday cfg now hero.lastDailyResetGameTime
  | _ => True

theorem ResetInv.effect {env : Env} {log : List Event} {now beginTime : ℕ} {hero : DreamHero} {req : ClientRequest}
    {m : Marks} {answers : List Answer} {spent : ℤ} (h : ResetInv cfg log now (marks hero)) (hhour : RefreshHour cfg)
    (htimes : ∀ e ∈ log, e.time ≤ now) (hpos : 0 < now) (hlt : now < 2 ^ 32)
    (hok : RequestOk cfg now beginTime hero req)
    (heff : Effect cfg { env with serverTime := now } beginTime hero req m answers spent) :
    ResetInv cfg (log ++ events now spent answers) now m := by
  cases heff with
  | plain _ _ hplain => exact h.other (events_other fun a ha => (hplain a ha).reset) rfl rfl
  | enterGame _ _ a _ _ _ hquota => exact h.other (events_single hquota.2.2) rfl rfl
  | exitGame _ ack => exact h.other (events_single rfl) rfl rfl
  | dayLottery a _ _ _ _ _ hquota => exact h.other (events_single hquota.2) rfl rfl
  | buySpirit a _ _ _ _ hquota => exact h.other (events_single hquota.2) rfl rfl
  | resetDailyGame a _ hreq htoday hjewel _ _ _ hreset =>
    subst hreq
    exact h.reset hpos hlt (h.next hhour htimes (hok htoday)) hjewel hreset rfl rfl
  | beginPeriod _ a _ hreq hbegin hplain =>
    subst hreq
    exact h.zero (events_single hplain.reset) (hok hbegin) rfl rfl

/-- what was used today, the hero that is loaded has -/
def RowOk (cfg : GameConfig) (out : Outside) (s : St) (row : CharacterRow) : Prop :=
  (UsedToday cfg s.now s.hero.lastDayLotteryTime → out.unixTimestamp row.lastLotteryTime = s.hero.lastDayLotteryTime) ∧
  (UsedToday cfg s.now s.hero.lastBuySpiritTime →
    out.unixTimestamp row.lastBuySpiritTime = s.hero.lastBuySpiritTime ∧ row.dayBuySpirit = s.hero.info.dayBuySpirit ∧
      Refreshed cfg s.now) ∧
  (UsedToday cfg s.now s.hero.lastDailyResetGameTime →
    out.unixTimestamp row.lastDailyResetGameTime = s.hero.lastDailyResetGameTime ∧
      row.dailyResetGameCount = s.hero.info.dailyResetGameCount ∧ out.unixTimestamp row.dailyGameTime = s.beginTime)

/-- without a row the hero is made from the configuration -/
def NoRowOk (cfg : GameConfig) (s : St) : Prop :=
  ¬ UsedToday cfg s.now s.hero.lastDayLotteryTime ∧ ¬ UsedToday cfg s.now s.hero.lastBuySpiritTime ∧
    ¬ UsedToday cfg s.now s.hero.lastDailyResetGameTime

def QuotaOk (cfg : GameConfig) (out : Outside) (s : St) : Op → Prop
  | .client env _ req =>
    0 < s.now ∧ s.now < 2 ^ 32 ∧ Defined cfg { env with serverTime := s.now } s.hero req ∧
      RequestOk cfg s.now s.beginTime s.hero req
  | .command _ cmd => s.hero.gmLevel > 0 → cmd.KeepsMarks
  | .dayRefresh _ => UsedToday cfg s.now s.hero.lastBuySpiritTime → Refreshed cfg s.now
  | .reload _ _ _ =>
    match s.row with
    | some row => RowOk cfg out s row
    | none => NoRowOk cfg s
  | _ => True

/-! ## Runs -/

structure RowInv (out : Outside) (log : List Event) (row : CharacterRow) : Prop where
  spirit : 0 ≤ row.dayBuySpirit
  mark : ResetMark log (out.unixTimestamp row.lastDailyResetGameTime) row.dailyResetGameCount

structure QuotaInv (cfg : GameConfig) (out : Outside) (s : St) : Prop where
  times : ∀ e ∈ s.log, e.time ≤ s.now
  lottery : LotteryInv cfg s.log s.now (marks s.hero)
  spirit : SpiritInv cfg s.log s.now (marks s.hero)
  reset : ResetInv cfg s.log s.now (marks s.hero)
  row : ∀ row, s.row = some row → RowInv out s.log row

/-- an operation that answers nothing and keeps what the quotas rest on -/
theorem QuotaInv.silent {s s' : St} (h : QuotaInv cfg out s) (hlog : s'.log = s.log) (hnow : s'.now = s.now)
    (hrow : s'.row = s.row)
    (hmarks : marks s'.hero = { marks s.hero with dailyGameTime := (marks s'.hero).dailyGameTime }) :
    QuotaInv cfg out s' := by
  refine ⟨?_, ?_, ?_, ?_, ?_⟩
  · rw [hlog, hnow]
    exact h.times
  · rw [hlog, hnow, hmarks]
    exact ⟨h.lottery.kept, h.lottery.stamped⟩
  · rw [hlog, hnow, hmarks]
    exact ⟨h.spirit.kept, h.spirit.stamped, h.spirit.count⟩
  · rw [hlog, hnow, hmarks]
    exact ⟨h.reset.kept, h.reset.stamped, h.reset.count, h.reset.mark⟩
  · rw [hlog, hrow]
    exact h.row

/-- time passes; on another day nothing has been used -/
theorem QuotaInv.pass {s : St} (h : QuotaInv cfg out s) (d : ℕ) : QuotaInv cfg out { s with now := s.now + d } := by
  have hle : s.now ≤ s.now + d := Nat.le_add_right s.now d
  refine ⟨fun e he => (h.times e he).trans hle, ⟨h.lottery.kept, h.lottery.stamped.later h.times hle⟩,
    ⟨h.spirit.kept, h.spirit.stamped.later h.times hle, ?_⟩,
    ⟨h.reset.kept, h.reset.stamped.later h.times hle, ?_, h.reset.mark⟩, h.row⟩
  · by_cases hday : dayOf cfg (s.now + d : ℕ) = dayOf cfg s.now
    · rw [hday]
      exact h.spirit.count
    · rw [onDay_later h.times hle hday]
      exact (Int.natCast_nonneg _).trans h.spirit.count
  · intro hused
    have hday : dayOf cfg (s.now + d : ℕ) = dayOf cfg s.now := by
      by_contra hother
      exact h.reset.mark.used hused (onDay_later h.times hle hother)
    rw [UsedToday, hday] at hused
    rw [hday]
    exact h.reset.count hused

/-- a request -/
theorem QuotaInv.client {s : St} (h : QuotaInv cfg out s) (hhour : RefreshHour cfg) {env : Env} {ranks : RankManager}
    {req : ClientRequest} (hok : QuotaOk cfg out s (.client env ranks req)) :
    QuotaInv cfg out (step cfg out s (.client env ranks req)) := by
  obtain ⟨hpos, hlt, -, hreq⟩ := hok
  rw [step]
  split
  case h_1 hero ranks' answers hr =>
    have heff := handleClient_effect hr
    refine ⟨?_, h.lottery.effect hhour hpos hlt ?_ heff, h.spirit.effect hpos hlt heff,
      h.reset.effect hhour h.times hpos hlt hreq heff, ?_⟩
    · intro e he
      rcases List.mem_append.1 he with hold | hnew
      · exact h.times e hold
      · exact (mem_events hnew).1.le
    · intro heq
      subst heq
      exact hreq
    · intro row hrow
      exact ⟨(h.row row hrow).spirit, (h.row row hrow).mark.append _⟩
  case h_2 => exact h

/-- the day refresh of a hero whose other marks are in order -/
theorem QuotaInv.refresh {s s' : St} (env : Env) {hero : DreamHero} (h : QuotaInv cfg out s) (hhour : RefreshHour cfg)
    (hok : onDay cfg Answer.bought (dayOf cfg s.now) s.log ≠ [] → Refreshed cfg s.now)
    (hlottery : LotteryInv cfg s.log s.now (marks hero)) (hspirit : SpiritInv cfg s.log s.now (marks hero))
    (hreset : ResetInv cfg s.log s.now (marks hero))
    (hs' : s' = { s with hero := dayRefresh cfg { env with serverTime := s.now } hero }) : QuotaInv cfg out s' := by
  subst hs'
  have hrefresh := hspirit.refresh env hhour hok
  refine ⟨h.times, ?_, hrefresh, ?_, h.row⟩
  · dsimp only
    rw [dayRefresh_marks]
    exact ⟨hlottery.kept, hlottery.stamped⟩
  · dsimp only
    rw [dayRefresh_marks]
    exact ⟨hreset.kept, hreset.stamped, hreset.count, hreset.mark⟩

/-- the hero from a row that has what was used today -/
theorem QuotaInv.loadRow {s : St} (h : QuotaInv cfg out s) {row : CharacterRow} (hrow : s.row = some row)
    (hok : RowOk cfg out s row) (channel : ℤ) :
    let m := marks (setInfo cfg out.spiritRecovery s.now s.beginTime (dbDoQueryHeroInfo out.unixTimestamp row) channel)
    LotteryInv cfg s.log s.now m ∧ SpiritInv cfg s.log s.now m ∧ ResetInv cfg s.log s.now m := by
  obtain ⟨hlottery, hspirit, hreset⟩ := hok
  have hinv := h.row row hrow
  intro m
  have hm : m = _ := setInfo_marks _ _ _ _ _
  rw [hm]
  refine ⟨⟨h.lottery.kept, ?_⟩, ⟨h.spirit.kept, ?_, ?_⟩,
    ⟨h.reset.kept, ?_, ?_, ?_⟩⟩
  · intro hne
    have hused := h.lottery.stamped hne
    exact hused.of_eq (hlottery hused)
  · intro hne
    have hused := h.spirit.stamped hne
    exact hused.of_eq (hspirit hused).1
  · by_cases hne : onDay cfg Answer.bought (dayOf cfg s.now) s.log = []
    · rw [hne]
      exact hinv.spirit
    · exact h.spirit.count.trans (hspirit (h.spirit.stamped hne)).2.1.ge
  · intro hne
    have hused := h.reset.stamped hne
    exact hused.of_eq (hreset hused).1
  · intro hused
    have hhero := h.reset.stamped (hinv.mark.used hused)
    obtain ⟨-, hcount, hbegin⟩ := hreset hhero
    rw [h.reset.count hhero]
    exact (if_neg (not_not.2 hbegin.symm)).trans hcount |>.symm
  · rcases hinv.mark with ⟨hzero, hcount⟩ | hmem
    · refine .inl ⟨hzero, ?_⟩
      dsimp only
      split_ifs
      · rfl
      · exact hcount
    · exact .inr hmem

/-- a new hero, on a day on which nothing was used -/
theorem QuotaInv.loadNew {s : St} (h : QuotaInv cfg out s) (hok : NoRowOk cfg s) (name : String) (channel : ℤ) :
    let m := marks (loadFromConfig cfg name channel { account := s.hero.account })
    LotteryInv cfg s.log s.now m ∧ SpiritInv cfg s.log s.now m ∧ ResetInv cfg s.log s.now m := by
  obtain ⟨hlottery, hspirit, hreset⟩ := hok
  refine ⟨⟨h.lottery.kept, fun hne => absurd (h.lottery.stamped hne) hlottery⟩,
    ⟨h.spirit.kept, fun hne => absurd (h.spirit.stamped hne) hspirit, ?_⟩,
    ⟨h.reset.kept, fun hne => absurd (h.reset.stamped hne) hreset, fun hused => absurd rfl hused.1, .inl ⟨rfl, rfl⟩⟩⟩
  have hnone : onDay cfg Answer.bought (dayOf cfg s.now) s.log = [] := by
    by_contra hne
    exact hspirit (h.spirit.stamped hne)
  rw [hnone]
  exact le_rfl

theorem quotaInv_step (hclock : ∀ t, out.unixTimestamp (out.time t) = t) (hhour : RefreshHour cfg) (s : St) (o : Op)
    (h : QuotaInv cfg out s) (hok : QuotaOk cfg out s o) : QuotaInv cfg out (step cfg out s o) := by
  cases o with
  | pass d => exact h.pass d
  | client env ranks req => exact h.client hhour hok
  | command env cmd =>
    have hmarks : marks (command cfg { env with serverTime := s.now } s.hero cmd) = marks s.hero := command_marks hok
    refine h.silent rfl rfl rfl ?_
    rw [step, hmarks]
  | dayRefresh env =>
    exact h.refresh env hhour (fun hne => hok (h.spirit.stamped hne)) h.lottery h.spirit h.reset rfl
  | dailyGameUpdate prize =>
    refine h.silent rfl rfl rfl ?_
    simp only [step, tryToGetGamePrize_marks]
    cases prize with
    | none => rfl
    | some gold => exact dailyGamePrize_marks gold
  | offlinePrize beginTime prizeGold =>
    refine ⟨h.times, h.lottery, h.spirit, h.reset, ?_⟩
    intro row hrow
    obtain ⟨old, hold, rfl⟩ := Option.map_eq_some_iff.1 hrow
    exact ⟨(h.row old hold).spirit, (h.row old hold).mark⟩
  | saveHero =>
    refine ⟨h.times, h.lottery, h.spirit, h.reset, ?_⟩
    intro row hrow
    cases hrow
    refine ⟨(Int.natCast_nonneg _).trans h.spirit.count, ?_⟩
    exact (hclock s.hero.lastDailyResetGameTime).symm ▸ h.reset.mark
  | reload env name channel =>
    cases hrow : s.row with
    | some row =>
      have hrowOk : RowOk cfg out s row := by simpa only [QuotaOk, hrow] using hok
      obtain ⟨hlottery, hspirit, hreset⟩ := h.loadRow hrow hrowOk channel
      apply h.refresh env hhour (fun hne => (hrowOk.2.1 (h.spirit.stamped hne)).2.2) hlottery hspirit hreset
      rw [step, loadHero, hrow]
    | none =>
      have hnone : NoRowOk cfg s := by simpa only [QuotaOk, hrow] using hok
      obtain ⟨hlottery, hspirit, hreset⟩ := h.loadNew hnone name channel
      apply h.refresh env hhour (fun hne => absurd (h.spirit.stamped hne) hnone.2.1) hlottery hspirit hreset
      rw [step, loadHero, hrow]
  | _ => exact h.silent rfl rfl rfl rfl

/-- a hero that was saved just now may be loaded: between midnight and the refresh hour only when no spirit was bought
today, and after a reset only in the same period of the daily game -/
theorem rowOk_saved (hclock : ∀ t, out.unixTimestamp (out.time t) = t) (s : St)
    (hspirit : UsedToday cfg s.now s.hero.lastBuySpiritTime → Refreshed cfg s.now)
    (hreset : UsedToday cfg s.now s.hero.lastDailyResetGameTime → s.hero.dailyGameTime = s.beginTime) :
    RowOk cfg out s (characterRow out.time s.hero) := by
  refine ⟨fun _ => hclock _, fun hused => ⟨hclock _, rfl, hspirit hused⟩, fun hused => ⟨hclock _, rfl, ?_⟩⟩
  exact (hclock _).trans (hreset hused)

/-- **The daily quotas.** From the creation of a hero on, along a run that meets `QuotaOk`: on every game day one
lottery at most, `config_day_buy_spirit_` purchases of spirit at most, and as many resets of the daily game as there are
prices at most, the `k`-th at the `k`-th price. -/
theorem daily_quotas (cfg : GameConfig) (out : Outside) (hclock : ∀ t, out.unixTimestamp (out.time t) = t)
    (hhour : RefreshHour cfg) (name : String) (channel : ℤ) (account now beginTime : ℕ) (ops : List Op)
    (hops : Along (step cfg out) (QuotaOk cfg out)
      (start cfg name channel { account := account } none now beginTime) ops) :
    QuotaKept cfg (run (step cfg out) (start cfg name channel { account := account } none now beginTime) ops).log := by
  have hstart : QuotaInv cfg out (start cfg name channel { account := account } none now beginTime) := by
    refine ⟨fun e he => absurd he List.not_mem_nil, ⟨fun _ => Nat.zero_le 1, fun hne => absurd rfl hne⟩,
      ⟨fun _ => le_max_right _ 0, fun hne => absurd rfl hne, le_rfl⟩,
      ⟨fun _ => List.nil_prefix, fun hne => absurd rfl hne, fun hused => absurd rfl hused.1, .inl ⟨rfl, rfl⟩⟩,
      fun row hrow => absurd hrow (Option.some_ne_none row).symm⟩
  have hrun := inv_run (quotaInv_step hclock hhour) hstart hops
  exact ⟨hrun.lottery.kept, hrun.spirit.kept, hrun.reset.kept⟩

/-- UTC+8, refreshed at five, with one box of gold -/
def goldBox : GameConfig where
  utcOffset := 28800
  globalConfig := { dayRefreshTime := 5 }
  lotteryDrawConfigs := [{ lotteryType := .gold, subIndex := 0, baseCount := 1, randomCount := 1, rating := 1 }]

/-- at ten in the morning a hero draws, is saved and loaded, and may not draw again -/
theorem daily_quotas_morning :
    let ranks : RankManager := { dailyMaxRankSize := 1, minDailyScore := 0 }
    let ops : List Op :=
      [.client {} ranks (.request .dayLottery), .saveHero, .reload {} "a" 0, .client {} ranks (.request .dayLottery)]
    QuotaKept goldBox (run (step goldBox plainOutside) (start goldBox "a" 0 {} none 1499997600 1) ops).log := by
  intro ranks ops
  refine daily_quotas goldBox plainOutside plainOutside_clock ⟨by decide, by decide⟩ "a" 0 0 1499997600 1 ops ?_
  have hrefreshed : Refreshed goldBox 1499997600 := by
    simp only [Refreshed, localSec, goldBox]
    norm_num
  refine ⟨⟨by decide, by decide, trivial, fun _ => hrefreshed⟩, trivial, ?_,
    ⟨by decide, by decide, trivial, ?_⟩, trivial⟩
  · exact rowOk_saved plainOutside_clock _ (fun _ => hrefreshed) fun hused => absurd rfl hused.1
  · exact fun _ => hrefreshed

/-- at two in the morning a new hero draws twice -/
theorem two_lotteries :
    let ranks : RankManager := { dailyMaxRankSize := 1, minDailyScore := 0 }
    let ops : List Op := [.client {} ranks (.request .dayLottery), .client {} ranks (.request .dayLottery)]
    ¬ QuotaKept goldBox (run (step goldBox plainOutside) (start goldBox "a" 0 {} none 1499968800 1) ops).log := by
  intro ranks ops hkept
  have hlen := hkept.lottery (dayOf goldBox 1499968800)
  exact absurd hlen (by decide)

end DreamHeroes.Hero.Requests

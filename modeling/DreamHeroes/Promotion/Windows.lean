/-
The windows of `Time_Week` and of `Time_OpenServerOffsetTime`.

- `InWeek`: the weekday lies in the cyclic interval from `begin_time_` to `end_time_`. `InDays`: the number of days
  since the server has been opened lies between them.
- `PassOk`: what `DayPass` has to find for a weekly promotion to come out right. `passed_week_iff`: it is exactly this.
  A window that wraps over the end of the week has all days in its second block and none in its third, so the promotion
  begins on the first day that shows it, and never ends; one that does not wrap is destroyed when its first week is
  over.
- `windows_iff`: the run comes out right on every day exactly when every `DayPass` finds this. A window of days since
  the opening always does. `friday_to_monday`: a promotion that is to begin on a Friday executes on a Wednesday.
-/
import Mathlib.Tactic
import DreamHeroes.Promotion.Steps

namespace DreamHeroes.Promotion

open DreamHeroes.Lib DreamHeroes.Common

/-! ## Weeks -/

def InWeek (time : EventTimeBase) (weekTime : ℤ) : Prop :=
  if time.beginTime ≤ time.endTime then time.beginTime ≤ weekTime ∧ weekTime ≤ time.endTime
  else time.beginTime ≤ weekTime ∨ weekTime ≤ time.endTime

instance decidableInWeek (time : EventTimeBase) (weekTime : ℤ) : Decidable (InWeek time weekTime) := by
  unfold InWeek
  infer_instance

/-- what `DayPass` has to find on the day, from the state before it -/
def PassOk (time : EventTimeBase) (weekTime : ℤ) : ShopSalesPromotionType → Prop
  | .wait =>
    if time.beginTime ≤ time.endTime then InWeek time weekTime → weekShows time weekTime
    else weekShows time weekTime ↔ InWeek time weekTime
  | .apply => time.beginTime ≤ time.endTime ∨ InWeek time weekTime
  | .excute => time.beginTime ≤ time.endTime ∨ InWeek time weekTime
  | .destroy => ¬InWeek time weekTime

instance decidablePassOk (time : EventTimeBase) (weekTime : ℤ) (type : ShopSalesPromotionType) :
    Decidable (PassOk time weekTime type) := by
  cases type <;> unfold PassOk <;> infer_instance

variable {time : EventTimeBase}

theorem weekBegins_eq (h : time.beginTime ≤ time.endTime) (weekTime : ℤ) :
    weekBegins time weekTime = decide (InWeek time weekTime) ∧
    weekEnds time weekTime = !decide (InWeek time weekTime) := by
  unfold weekBegins weekEnds InWeek
  simp only [if_pos h]
  refine ⟨?_, ?_⟩
  · simp
  · rw [Bool.eq_iff_iff]
    simp

/-- a window that wraps: the second block has every day, and the third none -/
theorem weekBegins_wrapped (h : ¬time.beginTime ≤ time.endTime) (weekTime : ℤ) :
    weekBegins time weekTime = true ∧ weekEnds time weekTime = false := by
  unfold weekBegins weekEnds
  simp only [if_neg h]
  refine ⟨?_, ?_⟩
  · simp
    omega
  · simp
    omega

/-- **One day.** -/
theorem passed_week_iff (time : EventTimeBase) (weekTime : ℤ) (type : ShopSalesPromotionType) :
    (passed (weekShows time weekTime) (weekBegins time weekTime) (weekEnds time weekTime) type = .excute ↔
        InWeek time weekTime) ↔ PassOk time weekTime type := by
  by_cases hwrap : time.beginTime ≤ time.endTime
  · obtain ⟨hbegins, hends⟩ := weekBegins_eq hwrap weekTime
    rw [hbegins, hends]
    by_cases hin : InWeek time weekTime <;> cases hshows : weekShows time weekTime <;> cases type <;>
      simp [passed, PassOk, hwrap, hin, hshows]
  · obtain ⟨hbegins, hends⟩ := weekBegins_wrapped hwrap weekTime
    rw [hbegins, hends]
    by_cases hin : InWeek time weekTime <;> cases hshows : weekShows time weekTime <;> cases type <;>
      simp [passed, PassOk, hwrap, hin, hshows]

/-! ## Days since the opening -/

def InDays (time : EventTimeBase) (passedDay : ℤ) : Prop := time.beginTime ≤ passedDay ∧ passedDay ≤ time.endTime

theorem getOpenServerPassedDay_mono (cfg : Config) {t u : ℤ} (h : t ≤ u) :
    cfg.getOpenServerPassedDay t ≤ cfg.getOpenServerPassedDay u := by
  unfold Config.getOpenServerPassedDay
  exact Int.tdiv_le_tdiv (by norm_num) (by omega)

/-- the state of the promotion after the day -/
structure DayRight (time : EventTimeBase) (passedDay : ℤ) (type : ShopSalesPromotionType) : Prop where
  excute : type = .excute ↔ InDays time passedDay
  destroy : type = .destroy → time.endTime < passedDay

/-- the window is passed from its beginning to its end, and once -/
theorem dayRight_passed (hshow : time.showTime ≤ time.beginTime) {passedDay : ℤ} {type : ShopSalesPromotionType}
    (hexcute : type = .excute → time.beginTime ≤ passedDay) (hdestroy : type = .destroy → time.endTime < passedDay) :
    DayRight time passedDay
      (passed (decide (time.showTime ≤ passedDay ∧ passedDay ≤ time.endTime))
        (decide (time.beginTime ≤ passedDay ∧ passedDay ≤ time.endTime))
        (decide (passedDay < time.beginTime ∨ time.endTime < passedDay)) type) := by
  by_cases hin : InDays time passedDay
  · -- every block that is reached begins, and none ends
    have hshows : decide (time.showTime ≤ passedDay ∧ passedDay ≤ time.endTime) = true :=
      decide_eq_true ⟨hshow.trans hin.1, hin.2⟩
    have hends : decide (passedDay < time.beginTime ∨ time.endTime < passedDay) = false := by
      rw [decide_eq_false_iff_not]
      exact fun h => h.elim hin.1.not_gt hin.2.not_gt
    have hbegins : decide (time.beginTime ≤ passedDay ∧ passedDay ≤ time.endTime) = true := decide_eq_true hin
    rw [hshows, hbegins, hends]
    refine ⟨?_, ?_⟩
    · cases type with
      | destroy => exact absurd (hdestroy rfl) hin.2.not_gt
      | _ => exact ⟨fun _ => hin, fun _ => rfl⟩
    · cases type with
      | destroy => exact fun _ => hdestroy rfl
      | _ => exact fun h => absurd h (by decide)
  · have hends : decide (passedDay < time.beginTime ∨ time.endTime < passedDay) = true := by
      rw [decide_eq_true_iff]
      unfold InDays at hin
      omega
    have hbegins : decide (time.beginTime ≤ passedDay ∧ passedDay ≤ time.endTime) = false := decide_eq_false hin
    rw [hbegins, hends]
    refine ⟨?_, ?_⟩
    · refine ⟨?_, fun h => absurd h hin⟩
      cases type <;> cases decide (time.showTime ≤ passedDay ∧ passedDay ≤ time.endTime) <;>
        exact fun h => absurd h (by decide)
    · cases type with
      | excute =>
        have hbegin := hexcute rfl
        unfold InDays at hin
        intro _
        omega
      | destroy => exact fun _ => hdestroy rfl
      | _ =>
        cases decide (time.showTime ≤ passedDay ∧ passedDay ≤ time.endTime) <;> exact fun h => absurd h (by decide)

/-! ## Runs -/

variable {cfg : Config} {i : ℕ} {gold jewel : ℤ} {s : Holder}

/-- a promotion that is no longer in the list of the manager has been destroyed -/
def Kept (i : ℕ) (s : Holder) : Prop := i ∈ s.world.shopSalesPromotions ∨ s.world.type i = .destroy

/-- **One step**, for a promotion that passes days. -/
theorem step_days (hs : Sound cfg gold jewel s) (htime : (cfg.config i).time.type ≠ .normal)
    (hkept : Kept i s) (op : Op) :
    (step cfg s op).world.type i = (if op = .dayPass then
        passed (shows cfg i (serverTime s.world)) (begins cfg i (serverTime s.world)) (ends cfg i (serverTime s.world))
          (s.world.type i)
      else s.world.type i) ∧
      (step cfg s op).world.lastDayPass = (if op = .dayPass then s.world.clock else s.world.lastDayPass) ∧
      s.world.clock ≤ (step cfg s op).world.clock ∧ Kept i (step cfg s op) := by
  cases op with
  | tick timeSpawn behind =>
    have hnone : ∀ k ev, ¬Pending s i k ev := fun k ev hev => htime (hs.timers.owned i k ev hev).normal
    have hu := tick_other hs hnone timeSpawn behind
    obtain ⟨hclock, hlast, hlist⟩ := tick_frame hs timeSpawn behind
    refine ⟨hu.type, hlast, by rw [step, hclock]; omega, ?_⟩
    rw [Kept, step, hlist, hu.type]
    exact hkept
  | dayPass =>
    obtain ⟨hclock, hlist, -⟩ := foldl_dayPass (i := i) hs.listed s
    have htype := dayPassAll_type hs i
    have hpassed : (dayPassAll cfg s).world.type i = passed (shows cfg i (serverTime s.world))
        (begins cfg i (serverTime s.world)) (ends cfg i (serverTime s.world)) (s.world.type i) := by
      rw [htype, ← dayPassOutcome_type]
      split_ifs with hmem
      · rfl
      · rw [hkept.resolve_left hmem, dayPassOutcome_type]
        rfl
    refine ⟨hpassed, hclock, hclock.ge, ?_⟩
    rcases hkept with hmem | hdestroy
    · left
      exact hlist.symm ▸ hmem
    · right
      rw [step, hpassed, hdestroy]
      rfl
  | update =>
    refine ⟨rfl, rfl, le_rfl, ?_⟩
    rcases hkept with hmem | hdestroy
    · by_cases hdestroy : s.world.type i = .destroy
      · exact .inr hdestroy
      · left
        exact List.mem_filter.2 ⟨hmem, by simpa using hdestroy⟩
    · exact .inr hdestroy

/-- the state when the server has started -/
theorem start_days (hi : i < cfg.size) (htime : (cfg.config i).time.type ≠ .normal) (time : ℕ) (gold jewel : ℤ)
    (shopOpen : Std.TreeMap ℤ Bool) :
    (start cfg time gold jewel shopOpen).world.type i =
        passed (shows cfg i (time / 1000 : ℕ)) (begins cfg i (time / 1000 : ℕ)) (ends cfg i (time / 1000 : ℕ)) .wait ∧
      Kept i (start cfg time gold jewel shopOpen) := by
  have hstart := start_promotion cfg time gold jewel shopOpen
  obtain ⟨htype, -, -, hlist⟩ := hstart.done i hi
  refine ⟨?_, hlist.imp id fun h => absurd h.1 htime⟩
  rw [htype, ← dayPassOutcome_type]
  unfold initOutcome
  dsimp only
  cases h : (cfg.config i).time.type with
  | normal => exact absurd h htime
  | week => rfl
  | openServerOffsetTime => rfl

/-- `DayPass` finds what it has to find -/
def PassesOk (cfg : Config) (i : ℕ) (s : Holder) (op : Op) : Prop :=
  op = .dayPass → PassOk (cfg.config i).time (wday cfg.off (serverTime s.world)) (s.world.type i)

instance decidablePassesOk (cfg : Config) (i : ℕ) (s : Holder) (op : Op) : Decidable (PassesOk cfg i s op) := by
  unfold PassesOk
  infer_instance

/-- the time of the last `DayPass`, or of the start -/
def passTime (s : Holder) : ℤ := (s.world.lastDayPass / 1000 : ℕ)

/-- after the last `DayPass` the weekly promotion executes exactly in its window -/
def WeekRight (cfg : Config) (i : ℕ) (s : Holder) : Prop :=
  s.world.type i = .excute ↔ InWeek (cfg.config i).time (wday cfg.off (passTime s))

theorem week_conditions (htime : (cfg.config i).time.type = .week) (now : ℤ) :
    shows cfg i now = weekShows (cfg.config i).time (wday cfg.off now) ∧
      begins cfg i now = weekBegins (cfg.config i).time (wday cfg.off now) ∧
      ends cfg i now = weekEnds (cfg.config i).time (wday cfg.off now) := by
  simp [shows, begins, ends, htime]

theorem days_conditions (htime : (cfg.config i).time.type = .openServerOffsetTime) (now : ℤ) :
    shows cfg i now = decide ((cfg.config i).time.showTime ≤ cfg.getOpenServerPassedDay now ∧
        cfg.getOpenServerPassedDay now ≤ (cfg.config i).time.endTime) ∧
      begins cfg i now = decide ((cfg.config i).time.beginTime ≤ cfg.getOpenServerPassedDay now ∧
        cfg.getOpenServerPassedDay now ≤ (cfg.config i).time.endTime) ∧
      ends cfg i now = decide (cfg.getOpenServerPassedDay now < (cfg.config i).time.beginTime ∨
        (cfg.config i).time.endTime < cfg.getOpenServerPassedDay now) := by
  simp only [shows, begins, ends, htime, and_self]

/-- one step of a weekly promotion that is right -/
theorem week_step (htime : (cfg.config i).time.type = .week) (hs : Sound cfg gold jewel s) (hkept : Kept i s)
    (hright : WeekRight cfg i s) (op : Op) : PassesOk cfg i s op ↔ WeekRight cfg i (step cfg s op) := by
  obtain ⟨htype, hlast, -, -⟩ := step_days hs (by rw [htime]; decide) hkept op
  obtain ⟨hshows, hbegins, hends⟩ := week_conditions htime (serverTime s.world)
  unfold WeekRight passTime PassesOk
  rw [htype, hlast]
  split_ifs with hop
  · rw [hshows, hbegins, hends]
    have hday := passed_week_iff (cfg.config i).time (wday cfg.off (serverTime s.world)) (s.world.type i)
    rw [forall_prop_of_true hop]
    exact hday.symm
  · exact ⟨fun _ => hright, fun _ h => absurd h hop⟩

theorem week_run_iff (hi : i < cfg.size) (htime : (cfg.config i).time.type = .week) (time : ℕ) (gold jewel : ℤ)
    (shopOpen : Std.TreeMap ℤ Bool) (ops : List Op) :
    (PassOk (cfg.config i).time (wday cfg.off (time / 1000 : ℕ)) .wait ∧
        Along (step cfg) (PassesOk cfg i) (start cfg time gold jewel shopOpen) ops) ↔
      ∀ pre, pre <+: ops → WeekRight cfg i (run (step cfg) (start cfg time gold jewel shopOpen) pre) := by
  have hnormal : (cfg.config i).time.type ≠ .normal := by
    rw [htime]
    decide
  obtain ⟨htype, hkept⟩ := start_days hi hnormal time gold jewel shopOpen
  obtain ⟨hshows, hbegins, hends⟩ := week_conditions htime (time / 1000 : ℕ)
  have hpass : passTime (start cfg time gold jewel shopOpen) = (time / 1000 : ℕ) := by
    rw [passTime, (start_promotion cfg time gold jewel shopOpen).lastDayPass]
  have hstart : WeekRight cfg i (start cfg time gold jewel shopOpen) ↔
      PassOk (cfg.config i).time (wday cfg.off (time / 1000 : ℕ)) .wait := by
    rw [WeekRight, hpass, htype, hshows, hbegins, hends]
    exact passed_week_iff _ _ _
  rw [← hstart]
  have hI : ∀ s (op : Op), Sound cfg gold jewel s ∧ Kept i s → True →
      Sound cfg gold jewel (step cfg s op) ∧ Kept i (step cfg s op) := by
    rintro s op ⟨hs, hkept⟩ -
    exact ⟨sound_step hs op, (step_days hs hnormal hkept op).2.2.2⟩
  apply along_iff_under (g := fun _ _ => True) hI
  · rintro s op ⟨hs, hkept⟩ - hright
    exact week_step htime hs hkept hright op
  · exact ⟨sound_start cfg time gold jewel shopOpen, hkept⟩
  · exact Along.of_forall _ _ fun _ _ _ => trivial

/-- a promotion that counts the days since the opening, in the states that are reached -/
structure DaysRight (cfg : Config) (i : ℕ) (s : Holder) : Prop where
  kept : Kept i s
  past : s.world.lastDayPass ≤ s.world.clock
  day : DayRight (cfg.config i).time (cfg.getOpenServerPassedDay (passTime s)) (s.world.type i)

theorem days_step (htime : (cfg.config i).time.type = .openServerOffsetTime)
    (hshow : (cfg.config i).time.showTime ≤ (cfg.config i).time.beginTime) (hs : Sound cfg gold jewel s)
    (h : DaysRight cfg i s) (op : Op) : DaysRight cfg i (step cfg s op) := by
  obtain ⟨htype, hlast, hclock, hkept⟩ := step_days hs (by rw [htime]; decide) h.kept op
  obtain ⟨hshows, hbegins, hends⟩ := days_conditions htime (serverTime s.world)
  have hmono : cfg.getOpenServerPassedDay (passTime s) ≤ cfg.getOpenServerPassedDay (serverTime s.world) := by
    apply getOpenServerPassedDay_mono
    exact Int.ofNat_le.2 (Nat.div_le_div_right h.past)
  refine ⟨hkept, ?_, ?_⟩
  · rw [hlast]
    split_ifs
    · exact hclock
    · exact h.past.trans hclock
  · rw [htype, passTime, hlast]
    split_ifs with hop
    · rw [hshows, hbegins, hends]
      apply dayRight_passed hshow
      · intro hexcute
        exact (h.day.excute.1 hexcute).1.trans hmono
      · intro hdestroy
        exact (h.day.destroy hdestroy).trans_le hmono
    · exact h.day

theorem days_run (hi : i < cfg.size) (htime : (cfg.config i).time.type = .openServerOffsetTime)
    (hshow : (cfg.config i).time.showTime ≤ (cfg.config i).time.beginTime) (time : ℕ) (gold jewel : ℤ)
    (shopOpen : Std.TreeMap ℤ Bool) (ops : List Op) :
    DaysRight cfg i (run (step cfg) (start cfg time gold jewel shopOpen) ops) := by
  have hnormal : (cfg.config i).time.type ≠ .normal := by
    rw [htime]
    decide
  obtain ⟨htype, hkept⟩ := start_days hi hnormal time gold jewel shopOpen
  obtain ⟨hshows, hbegins, hends⟩ := days_conditions htime (time / 1000 : ℕ)
  have hstart := start_promotion cfg time gold jewel shopOpen
  have hdays : DaysRight cfg i (start cfg time gold jewel shopOpen) := by
    refine ⟨hkept, by rw [hstart.clock, hstart.lastDayPass], ?_⟩
    rw [passTime, hstart.lastDayPass, htype, hshows, hbegins, hends]
    exact dayRight_passed hshow (fun h => absurd h (by decide)) fun h => absurd h (by decide)
  have hboth := inv_run_all (I := fun s => Sound cfg gold jewel s ∧ DaysRight cfg i s)
    (fun s op h => ⟨sound_step h.1 op, days_step htime hshow h.1 h.2 op⟩) ops
    ⟨sound_start cfg time gold jewel shopOpen, hdays⟩
  exact hboth.2

/-- **Windows.** A weekly promotion is right in every state of the run exactly when every `DayPass`, the one of `init`
included, finds what it has to; a promotion that counts the days since the opening is right in every state. -/
theorem windows_iff (cfg : Config) (i : ℕ) (hi : i < cfg.size) (time : ℕ) (gold jewel : ℤ)
    (shopOpen : Std.TreeMap ℤ Bool) (ops : List Op) :
    ((cfg.config i).time.type = .week →
      ((PassOk (cfg.config i).time (wday cfg.off (time / 1000 : ℕ)) .wait ∧
          Along (step cfg) (PassesOk cfg i) (start cfg time gold jewel shopOpen) ops) ↔
        ∀ pre, pre <+: ops → WeekRight cfg i (run (step cfg) (start cfg time gold jewel shopOpen) pre))) ∧
      ((cfg.config i).time.type = .openServerOffsetTime →
        (cfg.config i).time.showTime ≤ (cfg.config i).time.beginTime →
        ((run (step cfg) (start cfg time gold jewel shopOpen) ops).world.type i = .excute ↔
          InDays (cfg.config i).time
            (cfg.getOpenServerPassedDay (passTime (run (step cfg) (start cfg time gold jewel shopOpen) ops))))) := by
  refine ⟨?_, ?_⟩
  · intro htime
    exact week_run_iff hi htime time gold jewel shopOpen ops
  · intro htime hshow
    exact (days_run hi htime hshow time gold jewel shopOpen ops).day.excute

/-- a week from Monday to Wednesday that is shown on Sunday, and the first days after the opening -/
def twoWindows : Config where
  size := 2
  config
    | 0 => { time := { type := .week, showTime := 0, beginTime := 1, endTime := 3 }, promotion := .openHideHero [] }
    | _ =>
      { time := { type := .openServerOffsetTime, showTime := 0, beginTime := 1, endTime := 2 },
        promotion := .openHideHero [] }

/-- a day, and its `DayPass` -/
def midnights (n : ℕ) : List Op := (List.replicate n [.tick 86400000 [], .dayPass]).flatten

theorem windows_four_days :
    (∀ pre, pre <+: midnights 4 → WeekRight twoWindows 0 (run (step twoWindows) (start twoWindows 0 0 0 {}) pre)) ∧
      ((run (step twoWindows) (start twoWindows 0 0 0 {}) (midnights 2)).world.type 1 = .excute ↔
        InDays (twoWindows.config 1).time (twoWindows.getOpenServerPassedDay
          (passTime (run (step twoWindows) (start twoWindows 0 0 0 {}) (midnights 2))))) :=
  ⟨((windows_iff twoWindows 0 (by decide) 0 0 0 {} (midnights 4)).1 rfl).1 (by decide),
    (windows_iff twoWindows 1 (by decide) 0 0 0 {} (midnights 2)).2 rfl (by decide)⟩

/-- a week from Friday to Monday -/
def weekend : Config where
  size := 1
  config _ := { time := { type := .week, showTime := 5, beginTime := 5, endTime := 1 }, promotion := .openHideHero [] }

/-- the server starts on a Tuesday, and the next day is a Wednesday -/
theorem friday_to_monday :
    let s := run (step weekend) (start weekend (5 * 86400000) 0 0 {}) (midnights 1)
    wday 0 (passTime s) = 3 ∧ ¬InWeek (weekend.config 0).time (wday 0 (passTime s)) ∧ s.world.type 0 = .excute := by
  decide

/-- the second Monday of a window that does not wrap -/
example :
    let s := run (step twoWindows) (start twoWindows (4 * 86400000) 0 0 {}) (midnights 7)
    wday 0 (passTime s) = 1 ∧ InWeek (twoWindows.config 0).time (wday 0 (passTime s)) ∧ s.world.type 0 = .destroy := by
  decide

end DreamHeroes.Promotion

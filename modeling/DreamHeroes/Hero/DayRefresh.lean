/-
`DreamHero::dayRefresh` called again: by the server at the refresh hour, and by `SendClientInit` at every login.

The call reads the times of the last refresh and of the last purchase of spirit, and sets neither. A hero whose tasks
are due is due at the next call as well.

- `TaskDrawn`: a call finds a place for a free task, and draws one. `withFreeTask`: the hero with the task of a first
  call.
- `dayRefresh_eq`: the call, field by field. `dayRefresh_eq_self_iff`: when it changes nothing.
- `Quiet`: what a later call must find to change nothing after the first one.
- `dayRefresh_idempotent_iff`: any number of later calls leave the hero of the first call exactly when each is quiet.
- `quiet_afterHour_iff`: the same after the refresh hour, for calls of one game day.
- `two_free_tasks`: a new hero who logs in twice in the same second holds two free tasks.
-/
import Mathlib.Tactic
import DreamHeroes.Lib.Machine
import DreamHeroes.Hero.DailyQuota
import DreamHeroes.Hero.TaskList

namespace DreamHeroes.Hero.Requests

open DreamHeroes.Lib DreamHeroes.Config

variable (cfg : GameConfig) (env : Env) (h : DreamHero)

/-! ## One call -/

/-- a place for a free task, and a draw that finds one -/
def TaskDrawn : Prop :=
  (h.info.tasks.length : ℤ) < cfg.globalConfig.heroMaxTasksCount ∧ (radnomTaskInfo cfg env h 0).taskid ≠ 0

instance decidableTaskDrawn : Decidable (TaskDrawn cfg env h) := inferInstanceAs (Decidable (_ ∧ _))

/-- the hero with the free task of a call, when its tasks are due -/
def withFreeTask : DreamHero :=
  if canRefresh cfg env h.lastTaskAdvertisementTime = true ∧ TaskDrawn cfg env h then
    withTask h (radnomTaskInfo cfg env h 0).taskid
  else h

variable {cfg env h} in
theorem refreshTasks_eq (hdue : canRefresh cfg env h.lastTaskAdvertisementTime = true) :
    refreshTasks cfg env h = { withFreeTask cfg env h with currentTaskCount := 0 } := by
  have hunfold : refreshTasks cfg env h =
      if (h.info.tasks.length : ℤ) < cfg.globalConfig.heroMaxTasksCount then
        takeTask cfg env { h with currentTaskCount := 0 }
      else { h with currentTaskCount := 0 } := rfl
  have hdraw : radnomTaskInfo cfg env { h with currentTaskCount := 0 } 0 = radnomTaskInfo cfg env h 0 := rfl
  rw [hunfold, takeTask, hdraw, withFreeTask]
  by_cases hdrawn : TaskDrawn cfg env h
  · rw [if_pos hdrawn.1, if_pos hdrawn.2, if_pos ⟨hdue, hdrawn⟩]
    rfl
  · have hnone : ¬(canRefresh cfg env h.lastTaskAdvertisementTime = true ∧ TaskDrawn cfg env h) :=
      fun hboth => hdrawn hboth.2
    rw [if_neg hnone]
    split_ifs with hroom hid
    · exact absurd ⟨hroom, hid⟩ hdrawn
    · rfl
    · rfl

theorem withFreeTask_eq :
    withFreeTask cfg env h = { h with info := { h.info with tasks := (withFreeTask cfg env h).info.tasks } } := by
  rw [withFreeTask]
  split_ifs <;> rfl

theorem dayRefresh_eq :
    dayRefresh cfg env h =
      { h with
        currentTaskCount := if canRefresh cfg env h.lastTaskAdvertisementTime then 0 else h.currentTaskCount,
        info := { h.info with
          tasks := (withFreeTask cfg env h).info.tasks,
          dayBuySpirit := if canRefresh cfg env h.lastBuySpiritTime then 0 else h.info.dayBuySpirit } } := by
  rw [dayRefresh]
  by_cases hdue : canRefresh cfg env h.lastTaskAdvertisementTime = true
  · rw [if_pos hdue, if_pos hdue, refreshTasks_eq hdue, withFreeTask_eq]
    dsimp only
    split_ifs <;> rfl
  · have hnone : withFreeTask cfg env h = h := if_neg fun hboth => hdue hboth.1
    rw [if_neg hdue, if_neg hdue, hnone]
    dsimp only
    split_ifs <;> rfl

variable {cfg env h} {env' : Env}

theorem withFreeTask_tasks_eq_iff :
    (withFreeTask cfg env h).info.tasks = h.info.tasks ↔
      (canRefresh cfg env h.lastTaskAdvertisementTime = true → ¬TaskDrawn cfg env h) := by
  rw [withFreeTask]
  split_ifs with hdrawn
  · have hne : (withTask h (radnomTaskInfo cfg env h 0).taskid).info.tasks ≠ h.info.tasks := by simp [withTask]
    exact iff_of_false hne fun hno => hno hdrawn.1 hdrawn.2
  · exact iff_of_true rfl (not_and.1 hdrawn)

theorem dayRefresh_eq_self_iff :
    dayRefresh cfg env h = h ↔
      (canRefresh cfg env h.lastTaskAdvertisementTime = true → h.currentTaskCount = 0 ∧ ¬TaskDrawn cfg env h) ∧
        (canRefresh cfg env h.lastBuySpiritTime = true → h.info.dayBuySpirit = 0) := by
  have hfields : dayRefresh cfg env h = h ↔
      (if canRefresh cfg env h.lastTaskAdvertisementTime then 0 else h.currentTaskCount) = h.currentTaskCount ∧
        (withFreeTask cfg env h).info.tasks = h.info.tasks ∧
          (if canRefresh cfg env h.lastBuySpiritTime then 0 else h.info.dayBuySpirit) = h.info.dayBuySpirit := by
    rw [dayRefresh_eq]
    constructor
    · intro hsame
      exact ⟨congrArg DreamHero.currentTaskCount hsame, congrArg (·.info.tasks) hsame,
        congrArg (·.info.dayBuySpirit) hsame⟩
    · rintro ⟨hcount, htasks, hspirit⟩
      rw [hcount, htasks, hspirit]
  rw [hfields, withFreeTask_tasks_eq_iff]
  split_ifs with htask hspirit hspirit <;> grind

/-! ## The calls after the first -/

variable (cfg env h env') in
/-- what a call at `env'` must find to change nothing after the one at `env` -/
structure Quiet : Prop where
  count : canRefresh cfg env' h.lastTaskAdvertisementTime = true →
    canRefresh cfg env h.lastTaskAdvertisementTime = true ∨ h.currentTaskCount = 0
  task : canRefresh cfg env' h.lastTaskAdvertisementTime = true → ¬TaskDrawn cfg env' (withFreeTask cfg env h)
  spirit : canRefresh cfg env' h.lastBuySpiritTime = true →
    canRefresh cfg env h.lastBuySpiritTime = true ∨ h.info.dayBuySpirit = 0

/-- one later call -/
theorem dayRefresh_again_iff : dayRefresh cfg env' (dayRefresh cfg env h) = dayRefresh cfg env h ↔
    Quiet cfg env h env' := by
  have hdrawn : TaskDrawn cfg env' (dayRefresh cfg env h) ↔ TaskDrawn cfg env' (withFreeTask cfg env h) := by
    rw [dayRefresh_eq]
    rw [withFreeTask_eq]
    exact Iff.rfl
  rw [dayRefresh_eq_self_iff, hdrawn, dayRefresh_eq]
  dsimp only
  constructor
  · rintro ⟨htask, hspirit⟩
    refine ⟨fun hdue => ?_, fun hdue => (htask hdue).2, fun hdue => ?_⟩
    · have hcount := (htask hdue).1
      split_ifs at hcount with hfirst
      · exact .inl hfirst
      · exact .inr hcount
    · have hbought := hspirit hdue
      split_ifs at hbought with hfirst
      · exact .inl hfirst
      · exact .inr hbought
  · rintro ⟨hcount, htask, hspirit⟩
    refine ⟨fun hdue => ⟨?_, htask hdue⟩, fun hdue => ?_⟩
    · split_ifs with hfirst
      · rfl
      · exact (hcount hdue).resolve_left hfirst
    · split_ifs with hfirst
      · rfl
      · exact (hspirit hdue).resolve_left hfirst

/-- a field goes up: tasks are only added, and a counter is only set to zero -/
structure RefreshedBy (h h' : DreamHero) : Prop where
  same : h' = { h with
    currentTaskCount := h'.currentTaskCount,
    info := { h.info with tasks := h'.info.tasks, dayBuySpirit := h'.info.dayBuySpirit } }
  tasks : h.info.tasks <+: h'.info.tasks
  count : h'.currentTaskCount = h.currentTaskCount ∨ h'.currentTaskCount = 0
  spirit : h'.info.dayBuySpirit = h.info.dayBuySpirit ∨ h'.info.dayBuySpirit = 0

theorem RefreshedBy.refl (h : DreamHero) : RefreshedBy h h := ⟨rfl, List.prefix_rfl, .inl rfl, .inl rfl⟩

theorem RefreshedBy.trans {h1 h2 h3 : DreamHero} (h12 : RefreshedBy h1 h2) (h23 : RefreshedBy h2 h3) :
    RefreshedBy h1 h3 := by
  refine ⟨?_, h12.tasks.trans h23.tasks, ?_, ?_⟩
  · have h3eq := h23.same
    rw [h12.same] at h3eq
    exact h3eq
  · rcases h23.count with hc | hc
    · exact hc ▸ h12.count
    · exact .inr hc
  · rcases h23.spirit with hs | hs
    · exact hs ▸ h12.spirit
    · exact .inr hs

theorem RefreshedBy.antisymm {h1 h2 : DreamHero} (h12 : RefreshedBy h1 h2) (h21 : RefreshedBy h2 h1) : h1 = h2 := by
  have htasks : h2.info.tasks = h1.info.tasks :=
    (h12.tasks.eq_of_length_le h21.tasks.length_le).symm
  have hcount : h2.currentTaskCount = h1.currentTaskCount := by
    rcases h12.count with hc | hc
    · exact hc
    · rcases h21.count with hc' | hc'
      · exact hc'.symm
      · exact hc.trans hc'.symm
  have hspirit : h2.info.dayBuySpirit = h1.info.dayBuySpirit := by
    rcases h12.spirit with hs | hs
    · exact hs
    · rcases h21.spirit with hs' | hs'
      · exact hs'.symm
      · exact hs.trans hs'.symm
  have hsame := h12.same
  rw [htasks, hcount, hspirit] at hsame
  exact hsame.symm

theorem dayRefresh_refreshedBy : RefreshedBy h (dayRefresh cfg env h) := by
  rw [dayRefresh_eq]
  refine ⟨rfl, ?_, ?_, ?_⟩
  · dsimp only
    rw [withFreeTask]
    split_ifs
    · exact List.prefix_append _ _
    · exact List.prefix_rfl
  · dsimp only
    split_ifs
    · exact .inr rfl
    · exact .inl rfl
  · dsimp only
    split_ifs
    · exact .inr rfl
    · exact .inl rfl

/-- the calls at the given times, with their draws -/
def dayRefreshes (cfg : GameConfig) (h : DreamHero) (envs : List Env) : DreamHero :=
  run (fun h env => dayRefresh cfg env h) h envs

/-- **The day refresh again.** Any number of later calls, at whatever times and with whatever draws, leave the hero of
the first call exactly when each of them is quiet. -/
theorem dayRefresh_idempotent_iff (cfg : GameConfig) (h : DreamHero) (env : Env) (envs : List Env) :
    dayRefreshes cfg (dayRefresh cfg env h) envs = dayRefresh cfg env h ↔ ∀ env' ∈ envs, Quiet cfg env h env' := by
  have hrest := run_eq_self_iff (fun h env => dayRefresh cfg env h) RefreshedBy.refl
    (fun _ _ _ => RefreshedBy.trans) (fun _ _ => RefreshedBy.antisymm) (fun _ _ => dayRefresh_refreshedBy)
    (dayRefresh cfg env h) envs
  rw [dayRefreshes, hrest]
  exact forall₂_congr fun env' _ => dayRefresh_again_iff

/-! ## After the refresh hour -/

/-- two times of one game day, both after the refresh hour, get one answer -/
theorem canRefresh_sameDay (hhour : RefreshHour cfg) (h1 : Refreshed cfg env.serverTime)
    (h2 : Refreshed cfg env'.serverTime) (hday : dayOf cfg env'.serverTime = dayOf cfg env.serverTime) (t : ℕ) :
    canRefresh cfg env' t = canRefresh cfg env t := by
  have htoday : cfg.today env'.serverTime t = cfg.today env.serverTime t := by
    rw [Bool.eq_iff_iff, today_iff hhour h1, today_iff hhour h2, hday]
  rw [canRefresh, canRefresh, htoday]

/-- **After the refresh hour** only the free tasks are not idempotent: a later call of the same game day is quiet
exactly when the tasks are not due, or the later call finds no room or draws no task beside the one of the first
call. -/
theorem quiet_afterHour_iff (hhour : RefreshHour cfg) (h1 : Refreshed cfg env.serverTime)
    (h2 : Refreshed cfg env'.serverTime) (hday : dayOf cfg env'.serverTime = dayOf cfg env.serverTime) :
    Quiet cfg env h env' ↔
      (canRefresh cfg env h.lastTaskAdvertisementTime = true → ¬TaskDrawn cfg env' (withFreeTask cfg env h)) := by
  have hsame := canRefresh_sameDay hhour h1 h2 hday
  constructor
  · intro hquiet hdue
    exact hquiet.task (hsame _ ▸ hdue)
  · intro htask
    refine ⟨fun hdue => .inl (hsame _ ▸ hdue), fun hdue => htask (hsame _ ▸ hdue), fun hdue => .inl (hsame _ ▸ hdue)⟩

/-! ## Two logins in one second -/

/-- UTC+8, refreshed at five, three tasks at most, two of them configured -/
def threePlaces : GameConfig where
  utcOffset := 28800
  globalConfig := { dayRefreshTime := 5, heroMaxTasksCount := 3 }
  tasks := ({} : Std.TreeMap ℤ MsgTaskConfigInfo).insert 1 { taskid := 1 } |>.insert 2 { taskid := 2 }

theorem two_free_tasks :
    ¬ ∀ (cfg : GameConfig) (h : DreamHero) (env : Env) (envs : List Env),
      (∀ env' ∈ envs, dayOf cfg env'.serverTime = dayOf cfg env.serverTime) →
        dayRefreshes cfg (dayRefresh cfg env h) envs = dayRefresh cfg env h := by
  intro hall
  have hsame := hall threePlaces {} { serverTime := 1500004800 } [{ serverTime := 1500004800 }] (by simp)
  have hlen := congrArg (·.info.tasks.length) hsame
  revert hlen
  decide

end DreamHeroes.Hero.Requests

/-
The daily calls over whole runs: `dayRefresh` each time the local clock passes the hour `day_Refresh_time_`, `DayPass`
and `refreshDayNumber` each time it passes midnight.

- `Once`: in each minute that starts with the hour and after the minute of the start, the call is made at most once, and
  exactly once when the first second of the minute has passed (the timer counts in whole seconds); in no other minute is
  it made at all.
- `OncePerDay`: `Once` for the three calls.
- `Meets`: a tick is shorter than `2 ^ 32` ms, and one in which the timer is due is neither a second execution in a
  minute in which calls are made nor passes over such a minute, does not execute the timer twice in such a minute, and
  takes the hour for midnight exactly when it is (from 2106 on the hour that `p1` shows after `dayRefresh` is another).
- `Inv`: the invariant. The calls made are those of the minutes up to that of the last execution (`Covered`), and the
  timer is due before the first second of the next full hour is over.
- `dayRefresh_once_iff`: in a run whose ticks all meet `Meets` the calls are made once a day, and while the server time
  has 32 bits only in such a run.
- `dayRefresh_twice` is a run of ordinary ticks on which the refresh is made twice. At midnight the seconds of the daily
  game decide when the timer is due next, and it may be in the same minute.
-/
import Mathlib.Tactic
import DreamHeroes.Lib.Machine
import DreamHeroes.GameServer.MinuteEvent

namespace DreamHeroes.GameServer.Minute

open DreamHeroes.Lib DreamHeroes.Common

/-! ## Statement -/

/-- how often a call was made in the local minute `m` -/
def executed (off : ℤ) (log : List ℕ) (m : ℤ) : ℕ := log.countP fun t => minute off t = m

/-- the call of the full hour `h`, at the time `now` of a run from `start` -/
def Once (off h : ℤ) (start now : ℕ) (log : List ℕ) : Prop :=
  ∀ m, executed off log m ≤ (if AtHour h m ∧ minute off start < m then 1 else 0) ∧
    (AtHour h m → minute off start < m → 60000 * m + 1000 ≤ now + 1000 * off → executed off log m = 1)

structure OncePerDay (off hour : ℤ) (start : ℕ) (s : Holder) : Prop where
  dayRefresh : Once off hour start s.world.clock s.world.dayRefresh
  dayPass : Once off 0 start s.world.clock s.world.dayPass
  refreshDayNumber : Once off 0 start s.world.clock s.world.refreshDayNumber

/-- `ev` is the event of the manager, at the place `k` -/
def AtPlace (s : Holder) (k : ℕ) (ev : TimedEvent Callback) : Prop :=
  s.events[k]? = some ev ∧ ev.obj = some manager ∧ ev.eventType = eventPerMinType ∧ ev.deleted = false

/-- an execution at the time `t` is the first one in a minute of the call, and between the last one and it there is no
such minute -/
def MeetsHour (off h : ℤ) (last t : ℕ) : Prop :=
  (AtHour h (minute off t) → minute off last < minute off t) ∧
    ∀ m, minute off last < m → m < minute off t → ¬ AtHour h m

/-- the condition on a tick: the third part is about a new event that the same update comes to, and that is due -/
def Meets (off hour : ℤ) (s : Holder) (t : Tick) : Prop :=
  t.timeSpawn < 2 ^ 32 ∧ ∀ k ev, AtPlace s k ev → ev.currTime ≤ t.timeSpawn →
    MeetsHour off hour s.world.lastPerMin (s.world.clock + t.timeSpawn) ∧
      MeetsHour off 0 s.world.lastPerMin (s.world.clock + t.timeSpawn) ∧
      (k ∈ t.behind → nextMin off (p1Shows off hour (advance s.world t.timeSpawn)) ≤ t.timeSpawn →
        ¬AtHour hour (minute off (s.world.clock + t.timeSpawn)) ∧
          ¬AtHour 0 (minute off (s.world.clock + t.timeSpawn))) ∧
      (Midnight off hour (s.world.clock + t.timeSpawn) ↔ AtHour 0 (minute off (s.world.clock + t.timeSpawn)))

/-- the server time has 32 bits -/
def InTime (s : Holder) : Prop := s.world.clock < 1000 * 2 ^ 32

/-! ## Invariant -/

/-- the calls made up to the minute of the time `last` -/
def Covered (off h : ℤ) (start last : ℕ) (log : List ℕ) : Prop :=
  ∀ m, executed off log m = if AtHour h m ∧ minute off start < m ∧ m ≤ minute off last then 1 else 0

structure Inv (off hour : ℤ) (start : ℕ) (s : Holder) : Prop where
  live : ∃ ev, Live s ev ∧ 0 < ev.currTime ∧ ∀ m, minute off s.world.lastPerMin < m → m % 60 = 0 →
    s.world.clock + ev.currTime + 1000 * off < 60000 * m + 1000
  start_le : start ≤ s.world.lastPerMin
  last_le : s.world.lastPerMin ≤ s.world.clock
  dayRefresh : Covered off hour start s.world.lastPerMin s.world.dayRefresh
  dayPass : Covered off 0 start s.world.lastPerMin s.world.dayPass
  refreshDayNumber : Covered off 0 start s.world.lastPerMin s.world.refreshDayNumber

variable {off hour h : ℤ} {start last now t n : ℕ} {log : List ℕ}

/-- the event of the manager is the one at the end of the list -/
theorem Live.atPlace_iff {s : Holder} {ev ev' : TimedEvent Callback} (hl : Live s ev) {k : ℕ} :
    AtPlace s k ev' ↔ k = s.events.length - 1 ∧ ev' = ev := by
  constructor
  · rintro ⟨hk, -, -, halive⟩
    have hlt := (List.getElem?_eq_some_iff.1 hk).1
    by_cases hlast : k < s.events.length - 1
    · rw [hl.others k hlast ev' hk] at halive
      cases halive
    · obtain rfl : k = s.events.length - 1 := by omega
      exact ⟨rfl, Option.some_injective _ (hk.symm.trans hl.last)⟩
  · rintro ⟨rfl, rfl⟩
    exact ⟨hl.last, hl.obj, hl.type, hl.alive⟩

theorem executed_callsAt (off : ℤ) (p : Prop) [Decidable p] (t n : ℕ) (log : List ℕ) (m : ℤ) :
    executed off (callsAt p t n log) m = executed off log m + if p ∧ minute off t = m then n else 0 := by
  unfold callsAt executed
  by_cases hp : p
  · simp [hp, List.countP_append, List.countP_replicate]
  · simp [hp]

/-- what the invariant says of a call gives the statement -/
theorem Covered.once (hcov : Covered off h start last log)
    (hnow : ∀ m, minute off last < m → m % 60 = 0 → now + 1000 * off < 60000 * m + 1000) :
    Once off h start now log := by
  intro m
  rw [hcov m]
  constructor
  · split_ifs with h1 h2 <;> first | omega | exact absurd ⟨h1.1, h1.2.1⟩ h2
  · intro hh hm hpast
    have hreached : m ≤ minute off last := by
      by_contra hlater
      have hbefore := hnow m (by omega) hh.full
      omega
    rw [if_pos ⟨hh, hm, hreached⟩]

/-- executions that meet the condition -/
theorem Covered.fire (hcov : Covered off h start last log) (hstart : start ≤ last) (hlast : last ≤ t)
    (hmeets : MeetsHour off h last t) (honce : n = 1 ∨ ¬AtHour h (minute off t)) :
    Covered off h start t (callsAt (AtHour h (minute off t)) t n log) := by
  have hsm := minute_mono off hstart
  have hlm := minute_mono off hlast
  intro m
  rw [executed_callsAt, hcov m]
  by_cases hh : AtHour h m
  · rcases lt_trichotomy m (minute off t) with hm | hm | hm
    · have hold : ¬ minute off last < m := fun hlt => hmeets.2 m hlt hm hh
      have hne : ¬ (AtHour h (minute off t) ∧ minute off t = m) := by omega
      simp only [hh, hne, true_and, if_false]
      split_ifs <;> omega
    · subst hm
      have hnew := hmeets.1 hh
      rw [if_neg (by omega), if_pos ⟨hh, rfl⟩, if_pos ⟨hh, by omega, le_rfl⟩]
      rcases honce with hone | hnever
      · rw [hone]
      · exact absurd hh hnever
    · rw [if_neg (by omega), if_neg (by omega), if_neg (by omega)]
  · have hne : ¬ (AtHour h (minute off t) ∧ minute off t = m) := by rintro ⟨ht, rfl⟩; exact hh ht
    simp only [hh, hne, false_and, if_false]

/-- a minute of the call that has been passed over shows at once -/
theorem Covered.not_once (hcov : Covered off h start last log) (hstart : start ≤ last) {m : ℤ} (hh : AtHour h m)
    (hm : minute off last < m) (ht : m < minute off t) :
    ¬ Once off h start t log ∧
      ∀ (p : Prop) [Decidable p] (n : ℕ), ¬ Once off h start t (callsAt p t n log) := by
  have hsm := minute_mono off hstart
  have hnone : executed off log m = 0 := by rw [hcov m, if_neg (by omega)]
  have hpast : 60000 * m + 1000 ≤ t + 1000 * off := by
    simp only [minute] at ht
    omega
  refine ⟨?_, ?_⟩
  · intro honce
    have hone := (honce m).2 hh (by omega) hpast
    omega
  · intro p _ n honce
    have hone := (honce m).2 hh (by omega) hpast
    rw [executed_callsAt, hnone, if_neg (by omega)] at hone
    omega

/-- executions after which the statement holds meet the condition -/
theorem Covered.meets (hcov : Covered off h start last log) (hstart : start ≤ last) (hlast : last ≤ t) (hn : 0 < n)
    (honce : Once off h start t (callsAt (AtHour h (minute off t)) t n log)) :
    MeetsHour off h last t ∧ (1 < n → ¬AtHour h (minute off t)) := by
  have hsm := minute_mono off hstart
  have hlm := minute_mono off hlast
  have hmost := (honce (minute off t)).1
  rw [executed_callsAt, hcov] at hmost
  refine ⟨⟨?_, ?_⟩, ?_⟩
  · intro hh
    by_contra hsame
    have heq : minute off last = minute off t := by omega
    simp only [heq, hh, le_refl, true_and, and_true, if_true] at hmost
    split_ifs at hmost <;> omega
  · intro m hm ht hh
    exact (hcov.not_once hstart hh hm ht).2 _ n honce
  · intro hmany hh
    simp only [hh, true_and, if_true] at hmost
    split_ifs at hmost <;> omega

/-! ## Steps -/

theorem Inv.once {s : Holder} (hi : Inv off hour start s) : OncePerDay off hour start s := by
  obtain ⟨ev, -, hpos, hdue⟩ := hi.live
  have hnow : ∀ m, minute off s.world.lastPerMin < m → m % 60 = 0 →
      s.world.clock + 1000 * off < 60000 * m + 1000 := by
    intro m hm hfull
    have hbefore := hdue m hm hfull
    omega
  exact ⟨hi.dayRefresh.once hnow, hi.dayPass.once hnow, hi.refreshDayNumber.once hnow⟩

theorem inv_init (off hour : ℤ) (start loaded : ℕ) : Inv off hour start (init off start loaded) := by
  have hcov : ∀ h, Covered off h start start [] := by
    intro h m
    rw [if_neg (by omega)]
    rfl
  have hnext := nextMin_eq off start
  have hpos := nextMin_pos off (start / 1000)
  refine ⟨⟨_, live_init off start loaded, hpos, ?_⟩, le_rfl, le_rfl, hcov _, hcov _, hcov _⟩
  intro m hm _
  simp only [init, addEvent, armed] at hm ⊢
  omega

/-- a tick that meets the condition keeps the invariant -/
theorem inv_tick {s : Holder} {t : Tick} (hi : Inv off hour start s) (hok : Meets off hour s t) :
    Inv off hour start (tick off hour s t) := by
  obtain ⟨ev, hlive, hpos, hdue⟩ := hi.live
  have hmod : t.timeSpawn % 2 ^ 32 = t.timeSpawn := Nat.mod_eq_of_lt hok.1
  by_cases hwait : t.timeSpawn < ev.currTime
  · obtain ⟨hworld, hlive'⟩ := tick_wait off hour hlive (by rwa [hmod])
    rw [hmod] at hlive'
    have hlast := hi.last_le
    refine ⟨⟨_, hlive', by simp only; omega, ?_⟩, ?_, ?_, ?_, ?_, ?_⟩
    · rw [hworld]
      intro m hm hfull
      have hbefore := hdue m hm hfull
      simp only [advance]
      omega
    all_goals rw [hworld]
    · exact hi.start_le
    · exact Nat.le_add_right_of_le hlast
    · exact hi.dayRefresh
    · exact hi.dayPass
    · exact hi.refreshDayNumber
  · obtain ⟨hday, hmid, hagain, hzero⟩ := hok.2 _ _ (hlive.atPlace_iff.2 ⟨rfl, rfl⟩) (by omega)
    obtain ⟨times, left, htimes, hworld, hlive', hleft, hmany⟩ :=
      tick_fire off hour hlive hpos (by omega : ev.currTime ≤ t.timeSpawn % 2 ^ 32)
    rw [firedTimes_eq off hour htimes] at hworld
    have hlast : s.world.lastPerMin ≤ s.world.clock + t.timeSpawn := Nat.le_add_right_of_le hi.last_le
    have hnewpos := nextMin_pos off (p1Shows off hour (advance s.world t.timeSpawn))
    -- an execution that is repeated is in a minute without calls
    have hrepeat : times = 1 ∨ (¬AtHour hour (minute off (s.world.clock + t.timeSpawn)) ∧
        ¬AtHour 0 (minute off (s.world.clock + t.timeSpawn))) := by
      by_cases hone : times = 1
      · exact .inl hone
      · obtain ⟨hplace, hnext⟩ := hmany.1 (by omega)
        rw [hmod] at hnext
        exact .inr (hagain hplace hnext)
    rw [hmod] at hleft
    refine ⟨⟨_, hlive', by simp only; omega, ?_⟩, ?_, ?_, ?_, ?_, ?_⟩
    · rw [hworld]
      intro m hm hfull
      have hbefore := due_before off hour (advance s.world t.timeSpawn) hm hfull
      simp only [advance] at hbefore hleft ⊢
      omega
    all_goals rw [hworld]
    all_goals simp only [advance, hzero]
    · exact le_trans hi.start_le hlast
    · exact hi.dayRefresh.fire hi.start_le hlast hday (hrepeat.imp id And.left)
    · exact hi.dayPass.fire hi.start_le hlast hmid (hrepeat.imp id And.right)
    · exact hi.refreshDayNumber.fire hi.start_le hlast hmid (hrepeat.imp id And.right)

/-- every day has a midnight -/
theorem midnight_between {m n : ℤ} (h : m + 1440 < n) : ∃ k, AtHour 0 k ∧ m < k ∧ k < n := by
  refine ⟨1440 * (m / 1440 + 1), ?_, ?_, ?_⟩
  · simp only [AtHour]
    omega
  · omega
  · omega

/-- a tick advances the clock by its duration, whether the timer is due or not -/
theorem tick_clock {s : Holder} (hi : Inv off hour start s) (t : Tick) :
    (tick off hour s t).world.clock = s.world.clock + t.timeSpawn := by
  obtain ⟨ev, hlive, hpos, -⟩ := hi.live
  by_cases hwait : t.timeSpawn % 2 ^ 32 < ev.currTime
  · rw [(tick_wait off hour hlive hwait).1]
    rfl
  · obtain ⟨times, left, htimes, hworld, -⟩ := tick_fire off hour hlive hpos (Nat.not_lt.1 hwait)
    rw [hworld, firedTimes_eq off hour htimes]
    rfl

/-- a tick after which the statement holds met the condition, while the server time has 32 bits -/
theorem meets_of_once {s : Holder} {t : Tick} (hi : Inv off hour start s) (hin : InTime (tick off hour s t))
    (hj : OncePerDay off hour start (tick off hour s t)) : Meets off hour s t := by
  obtain ⟨ev, hlive, hpos, hdue⟩ := hi.live
  have hlast : s.world.lastPerMin ≤ s.world.clock + t.timeSpawn := Nat.le_add_right_of_le hi.last_le
  -- a tick that wraps around passes over a midnight
  have hlong : ¬ t.timeSpawn < 2 ^ 32 → ∃ k, AtHour 0 k ∧ minute off s.world.lastPerMin < k ∧
      k < minute off (s.world.clock + t.timeSpawn) := by
    intro hd
    have hle := hi.last_le
    apply midnight_between
    simp only [minute]
    omega
  by_cases hwait : t.timeSpawn % 2 ^ 32 < ev.currTime
  · obtain ⟨hworld, -⟩ := tick_wait off hour hlive hwait
    have hpass := hj.dayPass
    rw [hworld] at hpass
    have hd : t.timeSpawn < 2 ^ 32 := by
      by_contra hd
      obtain ⟨k, hk, hk1, hk2⟩ := hlong hd
      exact (hi.dayPass.not_once hi.start_le hk hk1 hk2).1 hpass
    refine ⟨hd, ?_⟩
    intro k ev' hplace hdue'
    obtain ⟨-, rfl⟩ := hlive.atPlace_iff.1 hplace
    rw [Nat.mod_eq_of_lt hd] at hwait
    omega
  · obtain ⟨times, left, htimes, hworld, -, -, hmany⟩ := tick_fire off hour hlive hpos (Nat.not_lt.1 hwait)
    rw [firedTimes_eq off hour htimes] at hworld
    have hday := hj.dayRefresh
    have hpass := hj.dayPass
    rw [hworld] at hday hpass
    simp only [advance] at hday hpass
    have hd : t.timeSpawn < 2 ^ 32 := by
      by_contra hd
      obtain ⟨k, hk, hk1, hk2⟩ := hlong hd
      exact (hi.dayPass.not_once hi.start_le hk hk1 hk2).2 _ times hpass
    rw [InTime, tick_clock hi] at hin
    have hzero := midnight_iff off hour hin
    simp only [hzero] at hpass
    obtain ⟨hmeets, honce⟩ := hi.dayRefresh.meets hi.start_le hlast htimes hday
    obtain ⟨hmeets0, honce0⟩ := hi.dayPass.meets hi.start_le hlast htimes hpass
    refine ⟨hd, ?_⟩
    intro k ev' hplace _
    obtain ⟨rfl, -⟩ := hlive.atPlace_iff.1 hplace
    refine ⟨hmeets, hmeets0, ?_, hzero⟩
    intro hbehind hnext
    have hrepeat : 1 < times := hmany.2 ⟨hbehind, by rwa [Nat.mod_eq_of_lt hd]⟩
    exact ⟨honce hrepeat, honce0 hrepeat⟩

/-! ## Runs -/

/-- **Once a day.** From every start, with every time of the daily game, and over every sequence of ticks that all meet
the condition: each daily call is made exactly once each time its hour is passed, in every state of the run. While the
server time has 32 bits, a run in which the calls are so made has only such ticks. -/
theorem dayRefresh_once_iff (off hour : ℤ) (start loaded : ℕ) (ticks : List Tick) :
    (Along (tick off hour) (Meets off hour) (init off start loaded) ticks →
      ∀ pre, pre <+: ticks → OncePerDay off hour start (run (tick off hour) (init off start loaded) pre)) ∧
    ((∀ pre, pre <+: ticks → InTime (run (tick off hour) (init off start loaded) pre)) →
      (∀ pre, pre <+: ticks → OncePerDay off hour start (run (tick off hour) (init off start loaded) pre)) →
        Along (tick off hour) (Meets off hour) (init off start loaded) ticks) := by
  have hstart := inv_init off hour start loaded
  constructor
  · rintro hmeets pre ⟨rest, rfl⟩
    exact (inv_run (fun s t hi hok => inv_tick hi hok) hstart ((along_append _ _ _ _ _).1 hmeets).1).once
  · intro hin honce
    have hsteps : ∀ s, ∀ t ∈ ticks, Inv off hour start s ∧ InTime s →
        (Meets off hour s t ∧ InTime (tick off hour s t) →
          Inv off hour start (tick off hour s t) ∧ InTime (tick off hour s t)) ∧
        (OncePerDay off hour start (tick off hour s t) ∧ InTime (tick off hour s t) →
          Meets off hour s t ∧ InTime (tick off hour s t)) :=
      fun s t _ hi => ⟨fun hok => ⟨inv_tick hi.1 hok.1, hok.2⟩, fun hj => ⟨meets_of_once hi.1 hj.2 hj.1, hj.2⟩⟩
    have halong := (along_iff_of (J := fun s => OncePerDay off hour start s ∧ InTime s)
      (fun s hi => ⟨hi.1.once, hi.2⟩) hsteps ⟨hstart, hin [] List.nil_prefix⟩).2 fun pre hpre =>
        ⟨honce pre hpre, hin pre hpre⟩
    exact ((along_and _ _ _ _ _).1 halong).1

/-- The server starts a second before five. The first execution is 6 ms after the full hour. The timer `save` stands
behind the event, so the same tick of 16 ms already counts towards the next one, which is early: the refresh is made
twice. -/
theorem dayRefresh_twice : ¬ ∀ (off hour : ℤ) (start loaded : ℕ) (ticks : List Tick),
    OncePerDay off hour start (run (tick off hour) (init off start loaded) ticks) := by
  intro hall
  let ticks : List Tick :=
    [{ timeSpawn := 990, behind := [0] }, { timeSpawn := 16, behind := [0] }, { timeSpawn := 59000 },
      { timeSpawn := 985 }]
  have hlog : (run (tick 0 5) (init 0 17999000 1) ticks).world.dayRefresh = [18000006, 18059991] := by
    decide
  have hmost := ((hall 0 5 17999000 1 ticks).dayRefresh 300).1
  rw [hlog] at hmost
  revert hmost
  decide

/-- The server starts ten seconds before midnight, with a daily game that began in the second 56 of its minute: the
timer is due again after 4 seconds. -/
example : (run (tick 0 5) (init 0 86390000 56) [{ timeSpawn := 10000 }, { timeSpawn := 4000 }]).world.dayPass =
    [86400000, 86404000] := by
  decide

end DreamHeroes.GameServer.Minute

/-
The two answers to "is this time in today" (`GameConfig::isInToday` and the global `isInToday`, which the load of the
rank list uses), against the game day: the 24 hours that start at the hour `day_Refresh_time_`.

- `GameConfig.isInToday`: the window of 24 hours from today's refresh, where today is the calendar day of the server
  time.
- `isInToday`: the calendar day of the time against that of the server time moved back by the refresh hour; the
  difference is computed as `u64` and passed on as `unsigned int`.
- `gameDay`, `SameGameDay`: the notion both are meant to compute.
- `window_iff`, `shifted_iff`: exactly when each of the two is right.
- `one_gameDay_iff`: exactly when the two agree with each other and with the game day. `before_refresh_split` is a time
  three hours old on which they do not.

Local time is at a constant offset `off` from UTC.
-/
import Mathlib.Tactic
import DreamHeroes.Lib.LocalTime

namespace DreamHeroes.Config

open DreamHeroes.Lib

/-! ## Model -/

/-- a value passed as `unsigned int` -/
def u32 (x : ℤ) : ℕ := (x % 2 ^ 32).toNat

/-- `same_day` -/
def sameDay (off : ℤ) (t1 t2 : ℕ) : Bool :=
  let p1 := localtime off t1
  let p2 := localtime off t2
  p1.year == p2.year && p1.yday == p2.yday

/-- the member function of `GameConfig` -/
def GameConfig.isInToday (off hour now : ℤ) (time : ℕ) : Bool :=
  let p1 := { localtime off now with min := 0, sec := 0, hour := hour }
  let todayRefreshTime := mktime off p1
  let tomorrowRefreshTime := todayRefreshTime + 24 * 60 * 60
  decide ((time : ℤ) < tomorrowRefreshTime ∧ (time : ℤ) ≥ todayRefreshTime)

/-- the global function -/
def isInToday (off hour now : ℤ) (time : ℕ) : Bool :=
  let tempTime := (now - hour * 60 * 60) % 2 ^ 64
  sameDay off (u32 tempTime) time

/-- the number of the 24 hours from refresh to refresh -/
def gameDay (off hour t : ℤ) : ℤ := periodDay off (3600 * hour) t

def SameGameDay (off hour now : ℤ) (time : ℕ) : Prop := gameDay off hour time = gameDay off hour now

/-! ## What the two compute -/

theorem sameDay_iff (off : ℤ) (t1 t2 : ℕ) : sameDay off t1 t2 = true ↔ localDay off t1 = localDay off t2 := by
  rw [← same_date_iff]
  simp [sameDay]

/-- the window is the game day that starts on the calendar day of the server time -/
theorem window_eq (off hour now : ℤ) (time : ℕ) :
    GameConfig.isInToday off hour now time = true ↔ gameDay off hour time = localDay off now := by
  rw [gameDay, periodDay_eq_iff]
  simp only [GameConfig.isInToday, mktime_atHour, decide_eq_true_eq]
  constructor <;> rintro ⟨h1, h2⟩ <;> constructor <;> omega

theorem u32_u64 (x : ℤ) : u32 (x % 2 ^ 64) = u32 x := by
  simp only [u32]
  congr 1
  omega

theorem shifted_eq (off hour now : ℤ) (time : ℕ) :
    isInToday off hour now time = true ↔ localDay off time = localDay off (u32 (now - 3600 * hour)) := by
  have hsec : now - hour * 60 * 60 = now - 3600 * hour := by ring
  simp only [isInToday, hsec, u32_u64, sameDay_iff]
  exact eq_comm

theorem gameDay_eq (off hour t : ℤ) (h0 : 0 ≤ hour) (h1 : hour ≤ 23) :
    gameDay off hour t = if localSec off t < 3600 * hour then localDay off t - 1 else localDay off t :=
  periodDay_eq off (3600 * hour) t (by omega) (by omega)

/-! ## When they are right -/

/-- Between midnight and the refresh hour the window lies ahead: the answer is right only for a time of neither the
running game day nor the one that starts today. -/
def WindowOk (off hour now : ℤ) (time : ℕ) : Prop :=
  localSec off now < 3600 * hour →
    gameDay off hour time ≠ gameDay off hour now ∧ gameDay off hour time ≠ gameDay off hour now + 1

/-- The time itself is not moved back: the answer is right only for a time after the refresh hour of its calendar day,
or of a calendar day that the running game day does not touch. When the moved server time does not fit `unsigned int`,
it is right only for a time that is neither of the running game day nor of the calendar day of the wrapped one. -/
def ShiftOk (off hour now : ℤ) (time : ℕ) : Prop :=
  if 0 ≤ now - 3600 * hour ∧ now - 3600 * hour < 2 ^ 32 then
    localSec off time < 3600 * hour →
      localDay off time ≠ gameDay off hour now ∧ localDay off time ≠ gameDay off hour now + 1
  else
    gameDay off hour time ≠ gameDay off hour now ∧ localDay off time ≠ localDay off (u32 (now - 3600 * hour))

theorem window_iff (off hour now : ℤ) (time : ℕ) (h0 : 0 ≤ hour) (h1 : hour ≤ 23) :
    (GameConfig.isInToday off hour now time = true ↔ SameGameDay off hour now time) ↔ WindowOk off hour now time := by
  have hnow := gameDay_eq off hour now h0 h1
  rw [window_eq, SameGameDay, WindowOk]
  split_ifs at hnow with hearly
  · have hday : localDay off now = gameDay off hour now + 1 := by omega
    simp only [hday, hearly, true_imp_iff]
    omega
  · simp [← hnow, hearly]

/-- a time that does not fit `unsigned int` wraps to another day -/
theorem localDay_u32 (off x : ℤ) (h : ¬ (0 ≤ x ∧ x < 2 ^ 32)) :
    localDay off (u32 x) < localDay off x ∨ localDay off x + 1 < localDay off (u32 x) := by
  simp only [u32, localDay]
  omega

theorem shifted_iff (off hour now : ℤ) (time : ℕ) (h0 : 0 ≤ hour) (h1 : hour ≤ 23) :
    (isInToday off hour now time = true ↔ SameGameDay off hour now time) ↔ ShiftOk off hour now time := by
  have htime := gameDay_eq off hour time h0 h1
  have hg : localDay off (now - 3600 * hour) = gameDay off hour now := localDay_sub off (3600 * hour) now
  rw [shifted_eq, SameGameDay, ShiftOk]
  split_ifs with hfit
  · have hu : ((u32 (now - 3600 * hour) : ℕ) : ℤ) = now - 3600 * hour := by
      simp only [u32]
      omega
    rw [hu, hg]
    split_ifs at htime with hearly
    · simp only [htime, hearly, true_imp_iff]
      omega
    · simp [htime, hearly]
  · have hwrap := localDay_u32 off (now - 3600 * hour) hfit
    rw [hg] at hwrap
    split_ifs at htime <;> omega

/-- **One notion of game day.** The two functions give the same answer, and it is true exactly for a time of the
running game day, if and only if `WindowOk` and `ShiftOk` hold of the two times. -/
theorem one_gameDay_iff (off hour now : ℤ) (time : ℕ) (h0 : 0 ≤ hour) (h1 : hour ≤ 23) :
    (GameConfig.isInToday off hour now time = isInToday off hour now time ∧
      (GameConfig.isInToday off hour now time = true ↔ SameGameDay off hour now time)) ↔
        WindowOk off hour now time ∧ ShiftOk off hour now time := by
  rw [← window_iff off hour now time h0 h1, ← shifted_iff off hour now time h0 h1, Bool.eq_iff_iff]
  constructor
  · rintro ⟨hsame, hwindow⟩
    exact ⟨hwindow, hsame.symm.trans hwindow⟩
  · rintro ⟨hwindow, hshift⟩
    exact ⟨hwindow.trans hshift.symm, hwindow⟩

/-- at noon, with the refresh at five, for a time two hours old -/
theorem one_gameDay_noon :
    (GameConfig.isInToday 28800 5 1500004800 1499997600 = isInToday 28800 5 1500004800 1499997600 ∧
      (GameConfig.isInToday 28800 5 1500004800 1499997600 = true ↔ SameGameDay 28800 5 1500004800 1499997600)) :=
  (one_gameDay_iff 28800 5 1500004800 1499997600 (by decide) (by decide)).2
    ⟨by simp only [WindowOk]; decide, by simp only [ShiftOk]; decide⟩

/-- two in the morning, with the refresh at five: eleven in the evening before is in today for one function only -/
theorem before_refresh_split :
    ¬ ∀ (off hour now : ℤ) (time : ℕ), 0 ≤ hour → hour ≤ 23 →
      GameConfig.isInToday off hour now time = isInToday off hour now time ∧
        (GameConfig.isInToday off hour now time = true ↔ SameGameDay off hour now time) := by
  intro h
  have hsplit := h 28800 5 1499968800 1499958000 (by decide) (by decide)
  revert hsplit
  simp only [SameGameDay]
  decide

end DreamHeroes.Config

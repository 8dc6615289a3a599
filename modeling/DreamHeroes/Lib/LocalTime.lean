/-
Broken-down local time at a constant offset `off` (in seconds) from UTC, on the proleptic Gregorian calendar.

- `localDay`, `localSec`: the day number and the second of the day of a Unix time.
- `yearOf`, `ydayOf`: the year of a day number and the day within it; `ydayOf_nonneg`, `ydayOf_lt`: the year is the one
  that contains the day.
- `localtime`, `mktime`: between Unix times and `Tm`. The date of a `Tm` is its year and its day of the year; the month
  and the day of the month that C carries besides are a function of these two.
- `mktime_localtime`: the round trip. `mktime_atHour`: setting the clock of a broken-down time stays in its day.
- `wday`: the day of the week.
- `same_date_iff`: two times have the same date exactly when they have the same day number.
- `periodDay off H t`: the number of the day that starts `H` seconds after midnight (`periodDay_eq`).
-/
import Mathlib.Tactic

namespace DreamHeroes.Lib

/-! ## Years -/

/-- leap years up to `y`, counted from year 0 -/
def leaps (y : ℤ) : ℤ := y / 4 - y / 100 + y / 400

/-- the day number (from 1 January 1970) of 1 January -/
def yearStart (y : ℤ) : ℤ := 365 * (y - 1970) + (leaps (y - 1) - leaps 1969)

/-- the estimate from the mean length of a year is off by at most one -/
def yearOf (n : ℤ) : ℤ :=
  let y := 1970 + 400 * n / 146097
  if n < yearStart y then y - 1 else if yearStart (y + 1) ≤ n then y + 1 else y

def ydayOf (n : ℤ) : ℤ := n - yearStart (yearOf n)

theorem yearStart_estimate (n : ℤ) :
    yearStart (1970 + 400 * n / 146097 - 1) ≤ n ∧ n < yearStart (1970 + 400 * n / 146097 + 1 + 1) := by
  simp only [yearStart, leaps]
  omega

theorem ydayOf_nonneg (n : ℤ) : 0 ≤ ydayOf n := by
  have h := yearStart_estimate n
  simp only [ydayOf, yearOf]
  split_ifs <;> omega

theorem ydayOf_lt (n : ℤ) : ydayOf n < yearStart (yearOf n + 1) - yearStart (yearOf n) := by
  have h := yearStart_estimate n
  simp only [ydayOf, yearOf]
  split_ifs with h1 h2
  · rw [sub_add_cancel]; omega
  · omega
  · omega

/-! ## Days and seconds -/

def localDay (off t : ℤ) : ℤ := (t + off) / 86400

def localSec (off t : ℤ) : ℤ := (t + off) % 86400

theorem localDay_add_localSec (off t : ℤ) : 86400 * localDay off t + localSec off t = t + off :=
  Int.mul_ediv_add_emod _ _

/-- broken-down time -/
structure Tm where
  year : ℤ
  yday : ℤ
  hour : ℤ
  min : ℤ
  sec : ℤ
deriving DecidableEq, Repr

def localtime (off t : ℤ) : Tm where
  year := yearOf (localDay off t)
  yday := ydayOf (localDay off t)
  hour := localSec off t / 3600
  min := localSec off t / 60 % 60
  sec := localSec off t % 60

def mktime (off : ℤ) (tm : Tm) : ℤ :=
  86400 * (yearStart tm.year + tm.yday) + 3600 * tm.hour + 60 * tm.min + tm.sec - off

/-- a date names its day -/
theorem date_localtime (off t : ℤ) :
    yearStart (localtime off t).year + (localtime off t).yday = localDay off t := by
  simp only [localtime, ydayOf]
  omega

theorem mktime_localtime (off t : ℤ) : mktime off (localtime off t) = t := by
  have hdate := date_localtime off t
  have hday := localDay_add_localSec off t
  simp only [mktime, hdate]
  simp only [localtime]
  omega

/-- the time of the full hour `h` on the local day of `t` -/
theorem mktime_atHour (off t h : ℤ) :
    mktime off { localtime off t with hour := h, min := 0, sec := 0 } = 86400 * localDay off t + 3600 * h - off := by
  have hdate := date_localtime off t
  simp only [mktime, hdate]
  omega

theorem same_date_iff (off t u : ℤ) :
    (localtime off t).year = (localtime off u).year ∧ (localtime off t).yday = (localtime off u).yday ↔
      localDay off t = localDay off u := by
  constructor
  · rintro ⟨hy, hd⟩
    rw [← date_localtime off t, ← date_localtime off u, hy, hd]
  · intro h
    exact ⟨congrArg yearOf h, congrArg ydayOf h⟩

/-- `tm_wday`: Sunday is 0, and 1 January 1970 was a Thursday -/
def wday (off t : ℤ) : ℤ := (localDay off t + 4) % 7

/-! ## Days that start at another hour -/

/-- the day of `t`, when days start `H` seconds after midnight -/
def periodDay (off H t : ℤ) : ℤ := (t + off - H) / 86400

theorem localDay_sub (off H t : ℤ) : localDay off (t - H) = periodDay off H t := by
  rw [localDay, periodDay, sub_add_eq_add_sub]

/-- before the hour `H` the day that started yesterday still runs -/
theorem periodDay_eq (off H t : ℤ) (h0 : 0 ≤ H) (h1 : H ≤ 86400) :
    periodDay off H t = if localSec off t < H then localDay off t - 1 else localDay off t := by
  simp only [periodDay, localDay, localSec]
  split_ifs <;> omega

/-- the day that starts on a given local day is the window of 86400 seconds from its start -/
theorem periodDay_eq_iff (off H t d : ℤ) :
    periodDay off H t = d ↔ 86400 * d + H - off ≤ t ∧ t < 86400 * d + H - off + 86400 := by
  simp only [periodDay]
  omega

end DreamHeroes.Lib

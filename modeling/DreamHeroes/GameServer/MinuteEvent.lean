/-
The clock of the game server: `DreamHeroManager::eventPerMin`, the timer that arms itself again at every execution, and
the ticks that drive it (`ServerFrame::run`, `EventableObjectHolder::update`).

- `World`: the clock, in milliseconds, and the times at which each of the daily calls was made. `lastPerMin` is the last
  line `server per min time` of the log (before the first one: the start of the server).
- `shown`: `localtime` returns a pointer to a buffer of its own, so `p1` shows the time that was converted last.
  `dayRefresh` converts the server time once more, cut to 32 bits, and `save`, at the end of `refreshDayNumber`, the
  time of the daily game; `next_min` is computed from what is there then (`p1Shows`).
- `eventPerMin`, `init`, `tick`: as the source has them. The server time is the clock in seconds, and a tick advances
  it by its own duration.
- `Live`: the one event of the manager that is not removed, at the end of the list.
- `tick_wait`, `tick_fire`: all a tick can do. It only counts down; or the event is executed, and the new one is not
  come to in this update; or it is come to, and counted down by the same tick, or executed at once.

The other timers of the server touch neither the clock nor this event, and are left out. They decide one thing: whether
an update comes to an event that is added in it, because another timer stands behind the event that adds it. `behind`
are the places for which this is so; the first event of the manager has the timer `save` behind it
(`DreamHeroManager::init`).
-/
import Mathlib.Tactic
import DreamHeroes.Lib.LocalTime
import DreamHeroes.Common.EventHolder

namespace DreamHeroes.GameServer.Minute

open DreamHeroes.Lib DreamHeroes.Common

/-! ## Model -/

structure World where
  /-- milliseconds -/
  clock : ℕ
  lastPerMin : ℕ
  /-- of `gRankManager` -/
  dailyGameBeginTime : ℕ
  /-- the time in the buffer of `localtime`; whatever else asks for a time leaves something there too -/
  shown : ℕ
  dayRefresh : List ℕ := []
  dayPass : List ℕ := []
  refreshDayNumber : List ℕ := []
deriving DecidableEq, Repr

inductive Callback where
  | eventPerMin
deriving DecidableEq, Repr

abbrev Holder := Timed World Callback

/-- a round of the server, after `timeSpawn` milliseconds -/
structure Tick where
  timeSpawn : ℕ
  behind : List ℕ := []
deriving DecidableEq, Repr

/-- the id of the object `DreamHeroManager` -/
def manager : ℕ := 0

/-- `EVENT_PER_MIN` -/
def eventPerMinType : ℕ := 11

def serverTime (w : World) : ℕ := w.clock / 1000

/-- `(60 - p1->tm_sec) * _TIME_SECOND_MSEL_` -/
def nextMin (off : ℤ) (time : ℕ) : ℕ := (60 - (localtime off time).sec).toNat * 1000

/-- the time of `build_unix_time_to_string` is an `unsigned int` -/
def buildUnixTimeToString (w : World) (t : ℕ) : World := { w with shown := t % 2 ^ 32 }

/-- `DailyGameUpdate`, the heroes, and the line of the log -/
def dayRefresh (w : World) : World :=
  let w := { w with dayRefresh := w.dayRefresh ++ [w.clock], dailyGameBeginTime := serverTime w % 2 ^ 32 }
  buildUnixTimeToString w (serverTime w)

def dayPass (w : World) : World := { w with dayPass := w.dayPass ++ [w.clock] }

/-- the last time that `save` converts is that of the daily game -/
def refreshDayNumber (w : World) : World :=
  let w := { w with refreshDayNumber := w.refreshDayNumber ++ [w.clock] }
  buildUnixTimeToString w w.dailyGameBeginTime

/-- `eventPerMin` up to the calls at the full hours -/
def fullHour (off hour : ℤ) (w : World) : World :=
  let w := { w with shown := serverTime w }
  if (localtime off w.shown).min = 0 then
    let w := if (localtime off w.shown).hour = hour then dayRefresh w else w
    if (localtime off w.shown).hour = 0 then refreshDayNumber (dayPass w) else w
  else w

def eventPerMin (off hour : ℤ) (s : Holder) : Holder :=
  let s := { s with world := fullHour off hour s.world }
  let s := if hasEvent s manager eventPerMinType then removeEvents s manager eventPerMinType else s
  let s := addEvent s (some manager) .eventPerMin eventPerMinType (nextMin off s.world.shown) (-1)
  { s with world := { buildUnixTimeToString s.world (serverTime s.world) with lastPerMin := s.world.clock } }

def execute (off hour : ℤ) : Callback → Holder → Holder
  | .eventPerMin => eventPerMin off hour

/-- `DreamHeroManager::init` at the start of the server; `loaded` is the time of the daily game in the database, and
when there is none `RankManager::Init` begins one -/
def init (off : ℤ) (start loaded : ℕ) : Holder :=
  let begin := if loaded = 0 then start / 1000 % 2 ^ 32 else loaded
  addEvent { world := { clock := start, lastPerMin := start, dailyGameBeginTime := begin, shown := start / 1000 } }
    (some manager) .eventPerMin eventPerMinType (nextMin off (start / 1000)) (-1)

/-- one round of `ServerFrame::run`. The loop comes to an event that it has added only from a place of `behind`, so the
rounds are enough (`updateLoop_live`). -/
def tick (off hour : ℤ) (s : Holder) (t : Tick) : Holder :=
  let s := { s with world := { s.world with clock := s.world.clock + t.timeSpawn } }
  if t.timeSpawn = 0 then s
  else
    (updateLoop (execute off hour) (t.timeSpawn % 2 ^ 32) t.behind (s.events.length + t.behind.length + 1) 0 s).getD s

/-! ## Time of day -/

/-- the number of the local minute -/
def minute (off : ℤ) (t : ℕ) : ℤ := (t + 1000 * off) / 60000

/-- the minute that starts with the full hour `h` -/
def AtHour (h m : ℤ) : Prop := m % 1440 = 60 * h

theorem nextMin_eq (off : ℤ) (t : ℕ) :
    (nextMin off (t / 1000) : ℤ) + (t + 1000 * off) = 60000 * (minute off t + 1) + t % 1000 := by
  simp only [nextMin, localtime, localSec, minute]
  omega

theorem nextMin_pos (off : ℤ) (t : ℕ) : 0 < nextMin off t := by
  simp only [nextMin, localtime, localSec]
  omega

theorem nextMin_le (off : ℤ) (t : ℕ) : nextMin off t ≤ 60000 := by
  simp only [nextMin, localtime, localSec]
  omega

theorem min_eq_zero_iff (off : ℤ) (t : ℕ) : (localtime off (t / 1000 : ℕ)).min = 0 ↔ minute off t % 60 = 0 := by
  simp only [localtime, localSec, minute]
  omega

theorem fullHour_iff (off h : ℤ) (t : ℕ) :
    (localtime off (t / 1000 : ℕ)).min = 0 ∧ (localtime off (t / 1000 : ℕ)).hour = h ↔ AtHour h (minute off t) := by
  simp only [localtime, localSec, AtHour, minute]
  omega

theorem minute_mono (off : ℤ) {t u : ℕ} (h : t ≤ u) : minute off t ≤ minute off u := by
  simp only [minute]
  omega

instance (h m : ℤ) : Decidable (AtHour h m) := inferInstanceAs (Decidable (m % 1440 = 60 * h))

/-- no call is made outside the full hours -/
theorem AtHour.full {h m : ℤ} (hh : AtHour h m) : m % 60 = 0 := by
  simp only [AtHour] at hh
  omega

/-- the calls of midnight are made: `p1` shows the hour 0, after `dayRefresh` if that was called -/
def Midnight (off hour : ℤ) (t : ℕ) : Prop :=
  (localtime off (t / 1000 : ℕ)).min = 0 ∧
    (localtime off (if AtHour hour (minute off t) then t / 1000 % 2 ^ 32 else t / 1000 : ℕ)).hour = 0

instance (off hour : ℤ) (t : ℕ) : Decidable (Midnight off hour t) := inferInstanceAs (Decidable (_ ∧ _))

/-- while the server time has 32 bits, that is midnight -/
theorem midnight_iff (off hour : ℤ) {t : ℕ} (ht : t < 1000 * 2 ^ 32) :
    Midnight off hour t ↔ AtHour 0 (minute off t) := by
  have hmod : t / 1000 % 2 ^ 32 = t / 1000 := Nat.mod_eq_of_lt (by omega)
  rw [Midnight, hmod, ite_self]
  exact fullHour_iff off 0 t

/-- the time of the daily game after the calls -/
def beginAfter (off hour : ℤ) (w : World) : ℕ :=
  if AtHour hour (minute off w.clock) then serverTime w % 2 ^ 32 else w.dailyGameBeginTime

/-- what `p1` shows after the calls -/
def p1Shows (off hour : ℤ) (w : World) : ℕ :=
  if Midnight off hour w.clock then beginAfter off hour w % 2 ^ 32
  else if AtHour hour (minute off w.clock) then serverTime w % 2 ^ 32 else serverTime w

/-- the log of a call that is made at the time `t` when `p` holds -/
def callAt (p : Prop) [Decidable p] (t : ℕ) (log : List ℕ) : List ℕ := if p then log ++ [t] else log

/-- the calls, and what they leave -/
theorem fullHour_eq (off hour : ℤ) (w : World) :
    fullHour off hour w =
      { w with dayRefresh := callAt (AtHour hour (minute off w.clock)) w.clock w.dayRefresh,
               dayPass := callAt (Midnight off hour w.clock) w.clock w.dayPass,
               refreshDayNumber := callAt (Midnight off hour w.clock) w.clock w.refreshDayNumber,
               dailyGameBeginTime := beginAfter off hour w, shown := p1Shows off hour w } := by
  have hday := fullHour_iff off hour w.clock
  simp only [fullHour, serverTime, callAt, Midnight, beginAfter, p1Shows]
  by_cases hmin : (localtime off (w.clock / 1000 : ℕ)).min = 0
  · simp only [hmin, true_and] at hday
    simp only [hmin, true_and, hday]
    by_cases hh : AtHour hour (minute off w.clock)
    · simp only [if_pos hh, dayRefresh, buildUnixTimeToString, serverTime]
      split_ifs <;> rfl
    · simp only [if_neg hh]
      split_ifs <;> rfl
  · simp only [hmin, false_and, false_iff] at hday
    simp only [hmin, hday, false_and, if_false]

/-- the log of a call that is made `n` times at one moment -/
def callsAt (p : Prop) [Decidable p] (t n : ℕ) (log : List ℕ) : List ℕ :=
  if p then log ++ List.replicate n t else log

theorem callAt_callsAt (p : Prop) [Decidable p] (t n : ℕ) (log : List ℕ) :
    callsAt p t n (callAt p t log) = callsAt p t (n + 1) log := by
  unfold callAt callsAt
  split_ifs
  · rw [List.append_assoc, List.replicate_succ, List.singleton_append]
  · rfl

/-- the next execution is due before the first second of the next full hour is over, whatever `p1` shows at this one -/
theorem due_before (off hour : ℤ) (w : World) {m : ℤ} (hm : minute off w.clock < m) (hfull : m % 60 = 0) :
    (w.clock : ℤ) + nextMin off (p1Shows off hour w) + 1000 * off < 60000 * m + 1000 := by
  have hle := nextMin_le off (p1Shows off hour w)
  have hnow : (w.clock : ℤ) + 1000 * off < 60000 * (minute off w.clock + 1) := by
    simp only [minute]
    omega
  by_cases hhour : minute off w.clock % 60 = 0
  · omega
  · have hmid : ¬Midnight off hour w.clock := fun h => hhour ((min_eq_zero_iff off w.clock).1 h.1)
    have hday : ¬AtHour hour (minute off w.clock) := fun h => hhour h.full
    have hnext := nextMin_eq off w.clock
    rw [p1Shows, if_neg hmid, if_neg hday, serverTime]
    omega

/-! ## The event of the manager -/

/-- the last entry of the list is the event of the manager, and every other entry has been removed -/
structure Live (s : Holder) (ev : TimedEvent Callback) : Prop where
  last : s.events[s.events.length - 1]? = some ev
  others : ∀ i < s.events.length - 1, ∀ e, s.events[i]? = some e → e.deleted = true
  cb : ev.cb = .eventPerMin
  obj : ev.obj = some manager
  type : ev.eventType = eventPerMinType
  alive : ev.deleted = false
  present : ev.erased = false

theorem Live.length_pos {s : Holder} {ev : TimedEvent Callback} (h : Live s ev) : 0 < s.events.length := by
  obtain ⟨hlt, -⟩ := List.getElem?_eq_some_iff.1 h.last
  omega

theorem Live.world {s : Holder} {ev : TimedEvent Callback} (h : Live s ev) (w : World) :
    Live { s with world := w } ev :=
  ⟨h.last, h.others, h.cb, h.obj, h.type, h.alive, h.present⟩

variable (off hour : ℤ)

/-- the world after an execution of the event -/
def fired (w : World) : World := { fullHour off hour w with shown := serverTime w % 2 ^ 32, lastPerMin := w.clock }

@[simp] theorem fullHour_clock (w : World) : (fullHour off hour w).clock = w.clock := by
  rw [fullHour_eq]

@[simp] theorem fullHour_shown (w : World) : (fullHour off hour w).shown = p1Shows off hour w := by
  rw [fullHour_eq]

@[simp] theorem fired_clock (w : World) : (fired off hour w).clock = w.clock := fullHour_clock off hour w

/-- a second execution at the same moment finds the same -/
theorem p1Shows_fired (w : World) : p1Shows off hour (fired off hour w) = p1Shows off hour w := by
  simp only [p1Shows, beginAfter, fired, fullHour_eq, serverTime]
  split_ifs <;> rfl

/-- the event that an execution adds -/
def armed (time : ℕ) : TimedEvent Callback where
  obj := some manager
  cb := .eventPerMin
  eventType := eventPerMinType
  msTime := nextMin off time
  currTime := nextMin off time
  repeats := -1

theorem live_init (start loaded : ℕ) : Live (init off start loaded) (armed off (start / 1000)) :=
  ⟨rfl, fun i hi => absurd hi (by simp [init, addEvent]), rfl, rfl, rfl, rfl, rfl⟩

/-- what is left of an entry when the event is executed -/
def remove (e : TimedEvent Callback) : TimedEvent Callback :=
  if e.obj = some manager ∧ e.eventType = eventPerMinType then { e with deleted := true } else e

/-- the list after the execution of the entry `i` -/
theorem visit_due {s : Holder} {ev : TimedEvent Callback} {d : ℕ} (h : Live s ev) (hdue : ev.currTime ≤ d) :
    visit (execute off hour) d s (s.events.length - 1) =
      { world := fired off hour s.world,
        events := (s.events.map remove ++ [armed off (p1Shows off hour s.world)]).modify (s.events.length - 1)
          TimedEvent.rearm } := by
  have hmem : ev ∈ s.events := List.mem_of_getElem? h.last
  have hhas : hasEvent { s with world := fullHour off hour s.world } manager eventPerMinType = true := by
    simp only [hasEvent, List.any_eq_true]
    exact ⟨ev, hmem, by simp [h.obj, h.type, h.alive]⟩
  simp only [visit, h.last, h.alive, h.present, Bool.false_eq_true, if_false, if_pos hdue, execute, eventPerMin, hhas,
    if_true, removeEvents, addEvent, buildUnixTimeToString, serverTime, fullHour_clock, fullHour_shown, fired, armed]
  rfl

/-- an execution removes the event and adds one at the end -/
theorem visit_fire {s : Holder} {ev : TimedEvent Callback} {d : ℕ} (h : Live s ev) (hdue : ev.currTime ≤ d) :
    (visit (execute off hour) d s (s.events.length - 1)).events.length = s.events.length + 1 ∧
      Live (visit (execute off hour) d s (s.events.length - 1)) (armed off (p1Shows off hour s.world)) := by
  have hpos := h.length_pos
  rw [visit_due off hour h hdue]
  refine ⟨by simp, ⟨?_, ?_, rfl, rfl, rfl, rfl, rfl⟩⟩
  · have hlen : ((s.events.map remove ++ [armed off (p1Shows off hour s.world)]).modify (s.events.length - 1)
        TimedEvent.rearm).length - 1 = (s.events.map remove).length := by simp
    have hne : s.events.length - 1 ≠ (s.events.map remove).length := by rw [List.length_map]; omega
    rw [hlen, List.getElem?_modify_ne _ _ hne]
    simp
  · intro i hi e he
    simp only [List.length_modify, List.length_append, List.length_map, List.length_singleton, Nat.add_sub_cancel] at hi
    have hold : (s.events.map remove ++ [armed off (p1Shows off hour s.world)])[i]? = s.events[i]?.map remove := by
      rw [List.getElem?_append_left (by simpa using hi), List.getElem?_map]
    by_cases hlast : s.events.length - 1 = i
    · -- the executed event itself
      subst hlast
      rw [List.getElem?_modify_eq, hold, h.last, Option.map_some, Option.map_eq_map, Option.map_some,
        Option.some.injEq] at he
      simp [← he, remove, h.obj, h.type, TimedEvent.rearm, TimedEvent.erase]
    · rw [List.getElem?_modify_ne _ _ hlast, hold, Option.map_eq_some_iff] at he
      obtain ⟨e', he', rfl⟩ := he
      have hdel := h.others i (by omega) e' he'
      simp only [remove]
      split_ifs
      · rfl
      · exact hdel

theorem visit_wait {s : Holder} {ev : TimedEvent Callback} {d : ℕ} (h : Live s ev) (hwait : d < ev.currTime) :
    (visit (execute off hour) d s (s.events.length - 1)).world = s.world ∧
      (visit (execute off hour) d s (s.events.length - 1)).events.length = s.events.length ∧
      Live (visit (execute off hour) d s (s.events.length - 1)) { ev with currTime := ev.currTime - d } := by
  have hvisit : visit (execute off hour) d s (s.events.length - 1) =
      { s with events := s.events.modify (s.events.length - 1) fun ev => { ev with currTime := ev.currTime - d } } := by
    simp [visit, h.last, h.alive, h.present, Nat.not_le.2 hwait]
  rw [hvisit]
  refine ⟨rfl, by simp, ⟨by simp [h.last], ?_, h.cb, h.obj, h.type, h.alive, h.present⟩⟩
  intro i hi e he
  simp only [List.length_modify] at hi
  rw [List.getElem?_modify_ne _ _ (by omega)] at he
  exact h.others i hi e he

/-- the entries before the event are only dropped -/
theorem visit_removed {s : Holder} {ev : TimedEvent Callback} {d i : ℕ} (h : Live s ev) (hi : i < s.events.length - 1) :
    (visit (execute off hour) d s i).world = s.world ∧
      (visit (execute off hour) d s i).events.length = s.events.length ∧ Live (visit (execute off hour) d s i) ev := by
  have hget : s.events[i]? = some s.events[i] := List.getElem?_eq_getElem (by omega)
  have hdel := h.others i hi _ hget
  rw [visit, hget]
  simp only [hdel, if_true]
  split_ifs with herased
  · exact ⟨rfl, rfl, h⟩
  · refine ⟨rfl, List.length_modify _ _ _, ?_, ?_, h.cb, h.obj, h.type, h.alive, h.present⟩
    · rw [List.length_modify, List.getElem?_modify_ne _ _ (by omega)]
      exact h.last
    · intro j hj e he
      rw [List.length_modify] at hj
      by_cases hij : i = j
      · subst hij
        rw [List.getElem?_modify_eq, hget] at he
        cases he
        rfl
      · rw [List.getElem?_modify_ne _ _ hij] at he
        exact h.others j hj e he

/-! ## Ticks -/

/-- the loop comes to the event of the manager, at the end of the list -/
theorem updateLoop_front (d : ℕ) (behind : List ℕ) {i : ℕ} {s : Holder} {ev : TimedEvent Callback} (h : Live s ev)
    (hi : i ≤ s.events.length - 1) (n : ℕ) :
    ∃ s', updateLoop (execute off hour) d behind (s.events.length - 1 - i + n) i s =
        updateLoop (execute off hour) d behind n (s'.events.length - 1) s' ∧
      s'.world = s.world ∧ s'.events.length = s.events.length ∧ Live s' ev := by
  obtain ⟨k, hk⟩ : ∃ k, s.events.length - 1 - i = k := ⟨_, rfl⟩
  induction k generalizing i s with
  | zero =>
    obtain rfl : i = s.events.length - 1 := by omega
    rw [hk, Nat.zero_add]
    exact ⟨s, rfl, rfl, rfl, h⟩
  | succ k ih =>
    obtain ⟨hworld, hlen, hlive⟩ := visit_removed (d := d) off hour h (by omega : i < s.events.length - 1)
    have hmore : hasNext behind s i = true :=
      hasNext_eq_true_iff.2 (.inr ⟨_, ev, by omega, h.last, h.present⟩)
    obtain ⟨s', hloop, hworld', hlen', hlive'⟩ := ih hlive (by omega : i + 1 ≤ _) (by omega)
    refine ⟨s', ?_, hworld'.trans hworld, hlen'.trans hlen, hlive'⟩
    have hrounds : (visit (execute off hour) d s i).events.length - 1 - (i + 1) = k := by omega
    rw [hrounds] at hloop
    rw [hk, Nat.add_right_comm, updateLoop, if_neg (by omega), if_pos hmore]
    exact hloop

/-- nothing stands behind the event -/
theorem hasNext_last {behind : List ℕ} {s : Holder} {ev : TimedEvent Callback} (h : Live s ev) :
    hasNext behind s (s.events.length - 1) = true ↔ s.events.length - 1 ∈ behind := by
  have hpos := h.length_pos
  rw [hasNext_eq_true_iff]
  constructor
  · rintro (hmem | ⟨j, e, hj, he, -⟩)
    · exact hmem
    · have hlt := (List.getElem?_eq_some_iff.1 he).1
      omega
  · exact .inl

/-- the loop at the event, when it is not due -/
theorem updateLoop_wait {d n : ℕ} (behind : List ℕ) {s : Holder} {ev : TimedEvent Callback} (h : Live s ev)
    (hwait : d < ev.currTime) :
    ∃ s', updateLoop (execute off hour) d behind (n + 2) (s.events.length - 1) s = some s' ∧ s'.world = s.world ∧
      Live s' { ev with currTime := ev.currTime - d } := by
  have hpos := h.length_pos
  obtain ⟨hworld, hlen, hlive⟩ := visit_wait off hour h hwait
  refine ⟨_, ?_, hworld, hlive⟩
  rw [updateLoop, if_neg (by omega)]
  split_ifs
  · rw [updateLoop, if_pos (by omega)]
  · rfl

/-- the world after `n` executions at one moment -/
def firedTimes (n : ℕ) (w : World) : World := (fired off hour)^[n] w

theorem firedTimes_eq {n : ℕ} (hn : 0 < n) (w : World) :
    firedTimes off hour n w =
      { w with lastPerMin := w.clock, shown := serverTime w % 2 ^ 32, dailyGameBeginTime := beginAfter off hour w,
               dayRefresh := callsAt (AtHour hour (minute off w.clock)) w.clock n w.dayRefresh,
               dayPass := callsAt (Midnight off hour w.clock) w.clock n w.dayPass,
               refreshDayNumber := callsAt (Midnight off hour w.clock) w.clock n w.refreshDayNumber } := by
  have hone : ∀ w, fired off hour w =
      { w with lastPerMin := w.clock, shown := serverTime w % 2 ^ 32, dailyGameBeginTime := beginAfter off hour w,
               dayRefresh := callAt (AtHour hour (minute off w.clock)) w.clock w.dayRefresh,
               dayPass := callAt (Midnight off hour w.clock) w.clock w.dayPass,
               refreshDayNumber := callAt (Midnight off hour w.clock) w.clock w.refreshDayNumber } := by
    intro w
    rw [fired, fullHour_eq]
  induction n generalizing w with
  | zero => omega
  | succ n ih =>
    rw [firedTimes, Function.iterate_succ_apply]
    by_cases hzero : n = 0
    · subst hzero
      rw [Function.iterate_zero, id_eq, hone]
      rfl
    · have hrest := ih (by omega) (fired off hour w)
      have hbegin : beginAfter off hour (fired off hour w) = beginAfter off hour w := by
        simp only [beginAfter, hone, serverTime]
        split_ifs <;> rfl
      rw [firedTimes] at hrest
      rw [hrest, hbegin, hone]
      simp only [callAt_callsAt, serverTime]

/-- the places from one of them on, and those behind it -/
theorem length_places_lt {behind : List ℕ} {k : ℕ} (hk : k ∈ behind) :
    (behind.filter fun j => k + 1 ≤ j).length < (behind.filter fun j => k ≤ j).length := by
  have hfilter : (behind.filter fun j => k + 1 ≤ j) = (behind.filter fun j => k ≤ j).filter fun j => k + 1 ≤ j := by
    rw [List.filter_filter]
    apply List.filter_congr
    intro j _
    simp only [← Bool.decide_and, decide_eq_decide]
    omega
  rw [hfilter, List.length_filter_lt_length_iff_exists]
  exact ⟨k, List.mem_filter.2 ⟨hk, by simp⟩, by simp⟩

/-- **The event is due.** It is executed once; when another timer stands behind it, the loop comes to the new event,
which may be due as well. -/
theorem updateLoop_fire {d n : ℕ} {behind : List ℕ} {s : Holder} {ev : TimedEvent Callback} (h : Live s ev)
    (hdue : ev.currTime ≤ d) (hn : (behind.filter fun j => s.events.length - 1 ≤ j).length + 2 ≤ n) :
    ∃ s' times left, updateLoop (execute off hour) d behind n (s.events.length - 1) s = some s' ∧ 0 < times ∧
      s'.world = firedTimes off hour times s.world ∧
      Live s' { armed off (p1Shows off hour s.world) with currTime := left } ∧
      (left = nextMin off (p1Shows off hour s.world) ∨
        d < nextMin off (p1Shows off hour s.world) ∧ left = nextMin off (p1Shows off hour s.world) - d) ∧
      (1 < times ↔ s.events.length - 1 ∈ behind ∧ nextMin off (p1Shows off hour s.world) ≤ d) := by
  induction n generalizing s ev with
  | zero => omega
  | succ n ih =>
    have hpos := h.length_pos
    obtain ⟨hlen, hlive⟩ := visit_fire off hour h hdue
    have hworld : (visit (execute off hour) d s (s.events.length - 1)).world = fired off hour s.world :=
      congrArg Timed.world (visit_due off hour h hdue)
    have htime : p1Shows off hour (visit (execute off hour) d s (s.events.length - 1)).world =
        p1Shows off hour s.world := by
      rw [hworld, p1Shows_fired]
    have hplace : (visit (execute off hour) d s (s.events.length - 1)).events.length - 1 = s.events.length - 1 + 1 := by
      omega
    by_cases hbehind : s.events.length - 1 ∈ behind
    · have hloop : updateLoop (execute off hour) d behind (n + 1) (s.events.length - 1) s =
          updateLoop (execute off hour) d behind n
            ((visit (execute off hour) d s (s.events.length - 1)).events.length - 1)
            (visit (execute off hour) d s (s.events.length - 1)) := by
        rw [updateLoop, if_neg (by omega), if_pos ((hasNext_last h).2 hbehind), hplace]
      have hfewer := length_places_lt hbehind
      by_cases hagain : nextMin off (p1Shows off hour s.world) ≤ d
      · obtain ⟨s', times, left, hrest, htimes, hworld', hlive', hleft, -⟩ := ih hlive hagain (by rw [hplace]; omega)
        rw [htime] at hlive' hleft
        refine ⟨s', times + 1, left, hloop.trans hrest, by omega, ?_, hlive', hleft, ?_⟩
        · rw [hworld', hworld, firedTimes, firedTimes, Function.iterate_succ_apply]
        · exact ⟨fun _ => ⟨hbehind, hagain⟩, fun _ => by omega⟩
      · obtain ⟨m, rfl⟩ : ∃ m, n = m + 2 := ⟨n - 2, by omega⟩
        obtain ⟨s', hrest, hworld', hlive'⟩ := updateLoop_wait off hour (n := m) behind hlive (Nat.not_le.1 hagain)
        refine ⟨s', 1, _, hloop.trans hrest, Nat.one_pos, hworld'.trans hworld, hlive',
          .inr ⟨Nat.not_le.1 hagain, rfl⟩, ?_⟩
        exact ⟨fun h => absurd h (lt_irrefl 1), fun h => absurd h.2 hagain⟩
    · refine ⟨_, 1, _, ?_, Nat.one_pos, hworld, hlive, .inl rfl, ?_⟩
      · rw [updateLoop, if_neg (by omega), if_neg fun hmore => hbehind ((hasNext_last h).1 hmore)]
      · exact ⟨fun h => absurd h (lt_irrefl 1), fun h => absurd h.1 hbehind⟩

/-- the world at the end of a tick, before the update -/
def advance (w : World) (d : ℕ) : World := { w with clock := w.clock + d }

variable {s : Holder} {ev : TimedEvent Callback} {t : Tick}

/-- a tick, from the loop at the event of the manager -/
theorem tick_eq (h : Live s ev) (hspawn : t.timeSpawn ≠ 0) :
    ∃ s1 n, Live s1 ev ∧ s1.world = advance s.world t.timeSpawn ∧ s1.events.length = s.events.length ∧
      (t.behind.filter fun j => s1.events.length - 1 ≤ j).length + 2 ≤ n ∧
      tick off hour s t =
        (updateLoop (execute off hour) (t.timeSpawn % 2 ^ 32) t.behind n (s1.events.length - 1) s1).getD
          { s with world := advance s.world t.timeSpawn } := by
  have hlive := h.world (advance s.world t.timeSpawn)
  have hpos := h.length_pos
  obtain ⟨s1, hloop, hworld, hlen, hlive1⟩ :=
    updateLoop_front off hour (t.timeSpawn % 2 ^ 32) t.behind hlive (Nat.zero_le _) (t.behind.length + 2)
  refine ⟨s1, _, hlive1, hworld, hlen, Nat.add_le_add_right (List.length_filter_le _ _) 2, ?_⟩
  have hrounds : s.events.length + t.behind.length + 1 = s.events.length - 1 - 0 + (t.behind.length + 2) := by omega
  rw [tick, if_neg hspawn, ← hloop]
  simp only [advance, hrounds]

theorem tick_wait (h : Live s ev) (hwait : t.timeSpawn % 2 ^ 32 < ev.currTime) :
    (tick off hour s t).world = advance s.world t.timeSpawn ∧
      Live (tick off hour s t) { ev with currTime := ev.currTime - t.timeSpawn % 2 ^ 32 } := by
  by_cases hspawn : t.timeSpawn = 0
  · have htick : tick off hour s t = s := by
      rw [tick, if_pos hspawn, hspawn]
      rfl
    rw [htick, hspawn]
    exact ⟨rfl, h⟩
  · obtain ⟨s1, n, hlive, hworld, -, hn, htick⟩ := tick_eq off hour h hspawn
    obtain ⟨m, rfl⟩ : ∃ m, n = m + 2 := ⟨n - 2, by omega⟩
    obtain ⟨s', hloop, hworld', hlive'⟩ := updateLoop_wait off hour (n := m) t.behind hlive hwait
    rw [htick, hloop]
    exact ⟨hworld'.trans hworld, hlive'⟩

theorem tick_fire (h : Live s ev) (hpos : 0 < ev.currTime) (hdue : ev.currTime ≤ t.timeSpawn % 2 ^ 32) :
    ∃ times left, 0 < times ∧
      (tick off hour s t).world = firedTimes off hour times (advance s.world t.timeSpawn) ∧
      Live (tick off hour s t) { armed off (p1Shows off hour (advance s.world t.timeSpawn)) with currTime := left } ∧
      (left = nextMin off (p1Shows off hour (advance s.world t.timeSpawn)) ∨
        t.timeSpawn % 2 ^ 32 < nextMin off (p1Shows off hour (advance s.world t.timeSpawn)) ∧
          left = nextMin off (p1Shows off hour (advance s.world t.timeSpawn)) - t.timeSpawn % 2 ^ 32) ∧
      (1 < times ↔ s.events.length - 1 ∈ t.behind ∧
        nextMin off (p1Shows off hour (advance s.world t.timeSpawn)) ≤ t.timeSpawn % 2 ^ 32) := by
  have hspawn : t.timeSpawn ≠ 0 := by
    intro hzero
    rw [hzero] at hdue
    omega
  obtain ⟨s1, n, hlive, hworld, hlen, hn, htick⟩ := tick_eq off hour h hspawn
  obtain ⟨s', times, left, hloop, htimes, hworld', hlive', hleft, hagain⟩ := updateLoop_fire off hour hlive hdue hn
  rw [hworld] at hworld' hlive' hleft hagain
  rw [hlen] at hagain
  rw [htick, hloop]
  exact ⟨times, left, htimes, hworld', hlive', hleft, hagain⟩

end DreamHeroes.GameServer.Minute

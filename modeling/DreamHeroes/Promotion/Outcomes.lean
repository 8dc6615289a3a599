/-
What the methods of a promotion come to.

- `Outcome`: the state a method leaves the promotion in, the timer it arms, and whether `excute` was called.
- `Moved`: a method has had this outcome, and has touched nothing else. One method after another: `Moved.trans`, and one
  that ends by arming a timer: `Moved.arm`.
- `shows`, `begins`, `ends`: the conditions of the three blocks of `DayPass`. `DayPass` calls itself inside `apply` and
  `excute`, but what it finds when it is back is `Settled`, and the rest of it does nothing.
- `dayPass_moved`, `init_moved`, `execute_moved`: the outcome of `DayPass`, of `init` and of a callback.
-/
import Mathlib.Tactic
import DreamHeroes.Promotion.Accumulators

namespace DreamHeroes.Promotion

open DreamHeroes.Lib DreamHeroes.Common

variable {cfg : Config} {i : ℕ}

/-! ## Outcomes -/

/-- the state a method leaves its promotion in, the timer it has armed, and whether `excute` was called -/
structure Outcome where
  type : ShopSalesPromotionType
  timer : Option (CallbackKind × ℕ) := none
  excuted : Bool := false

def CallbackKind.eventType : CallbackKind → ℕ
  | .exit => eventExit
  | _ => eventApply

/-- the state in which a promotion waits for the timer -/
def CallbackKind.stage : CallbackKind → ShopSalesPromotionType
  | .apply => .wait
  | .excute => .apply
  | .exit => .excute

def newEvent (i : ℕ) (timer : CallbackKind × ℕ) : TimedEvent Callback where
  obj := some i
  cb := ⟨timer.1, i⟩
  eventType := timer.1.eventType
  msTime := timer.2
  currTime := timer.2
  repeats := 1

/-- only events of the promotion are marked as removed -/
def Marks (i : ℕ) (f : TimedEvent Callback → TimedEvent Callback) : Prop :=
  ∀ ev, f ev = ev ∨ ev.obj = some i ∧ f ev = { ev with deleted := true }

theorem Marks.comp {f g : TimedEvent Callback → TimedEvent Callback} (hf : Marks i f) (hg : Marks i g) :
    Marks i (g ∘ f) := by
  intro ev
  rw [Function.comp_apply]
  rcases hf ev with hev | ⟨hobj, hev⟩
  · rw [hev]
    exact hg ev
  · rw [hev]
    rcases hg { ev with deleted := true } with hev' | ⟨-, hev'⟩ <;> exact .inr ⟨hobj, hev'⟩

/-- the method has had the outcome, and has touched nothing else -/
structure Moved (cfg : Config) (i : ℕ) (o : Outcome) (s s' : Holder) : Prop where
  type : s'.world.type = Function.update s.world.type i o.type
  list : s'.world.shopSalesPromotions = s.world.shopSalesPromotions
  clock : s'.world.clock = s.world.clock
  lastDayPass : s'.world.lastDayPass = s.world.lastDayPass
  excuted : s'.world.excuted = s.world.excuted ++ if o.excuted then [(i, s.world.clock)] else []
  booked : ∀ gold jewel, Booked cfg gold jewel s.world → Booked cfg gold jewel s'.world
  events : ∃ f, Marks i f ∧ s'.events = s.events.map f ++ o.timer.toList.map (newEvent i)

variable {s s' s'' : Holder}

theorem Moved.refl : Moved cfg i { type := s.world.type i } s s where
  type := (Function.update_eq_self i s.world.type).symm
  list := rfl
  clock := rfl
  lastDayPass := rfl
  excuted := (List.append_nil _).symm
  booked _ _ hb := hb
  events := ⟨id, fun _ => .inl rfl, by simp⟩

/-- one method after another that has armed nothing -/
theorem Moved.trans {type : ShopSalesPromotionType} {excuted : Bool} {o : Outcome}
    (h1 : Moved cfg i { type := type, excuted := excuted } s s') (h2 : Moved cfg i o s' s'')
    (honce : excuted = false ∨ o.excuted = false) :
    Moved cfg i { o with excuted := excuted || o.excuted } s s'' := by
  obtain ⟨f, hf, hevents1⟩ := h1.events
  obtain ⟨g, hg, hevents2⟩ := h2.events
  constructor
  case type => rw [h2.type, h1.type, Function.update_idem]
  case list => rw [h2.list, h1.list]
  case clock => rw [h2.clock, h1.clock]
  case lastDayPass => rw [h2.lastDayPass, h1.lastDayPass]
  case excuted =>
    rw [h2.excuted, h1.excuted, h1.clock]
    rcases honce with h | h <;> simp [h]
  case booked => exact fun gold jewel hb => h2.booked gold jewel (h1.booked gold jewel hb)
  case events =>
    refine ⟨g ∘ f, hf.comp hg, ?_⟩
    rw [hevents2, hevents1]
    simp

/-- the test for an event, and its removal -/
theorem cleared (s : Holder) (i ty : ℕ) :
    ∃ f, Marks i f ∧ (if hasEvent s i ty then removeEvents s i ty else s).events = s.events.map f ∧
      (if hasEvent s i ty then removeEvents s i ty else s).world = s.world := by
  split_ifs
  · refine ⟨fun ev => if ev.obj = some i ∧ ev.eventType = ty then { ev with deleted := true } else ev, ?_, rfl, rfl⟩
    intro ev
    dsimp only
    split_ifs with h
    · exact .inr ⟨h.1, rfl⟩
    · exact .inl rfl
  · exact ⟨id, fun _ => .inl rfl, by simp, rfl⟩

/-! ## The methods -/

theorem exit_moved (hi : i < cfg.size) (hold : s.world.type i = .excute) :
    Moved cfg i { type := .destroy } s (exit cfg i s) := by
  obtain ⟨f, hf, hevents, hworld⟩ := cleared s i eventExit
  have hexit : (exit cfg i s).world = exited cfg i s.world := by
    rw [exit]
    exact congrArg (exited cfg i) hworld
  have hswitch := excuteSwitch_sameBut (cfg.config i).promotion false ((s.world.setType i .wait).setType i .excute)
  constructor
  case type => rw [hexit, exited_type]
  case list => exact (congrArg World.shopSalesPromotions hexit).trans hswitch.list
  case clock => exact (congrArg World.clock hexit).trans hswitch.clock
  case lastDayPass => exact (congrArg World.lastDayPass hexit).trans hswitch.lastDayPass
  case excuted => exact ((congrArg World.excuted hexit).trans hswitch.excuted).trans (List.append_nil _).symm
  case booked =>
    intro gold jewel hb
    rw [hexit]
    exact hb.exited hi hold
  case events =>
    refine ⟨f, hf, ?_⟩
    rw [Option.toList_none, List.map_nil, List.append_nil]
    exact hevents

/-- the call of `excute(true)`, before anything is armed -/
theorem excuteTrue_moved (hi : i < cfg.size) (hold : s.world.type i ≠ .excute) :
    Moved cfg i { type := .excute, excuted := true } s
      (mapWorld s fun w => { excuteBool cfg i true w with excuted := w.excuted ++ [(i, w.clock)] }) := by
  have hswitch := excuteSwitch_sameBut (cfg.config i).promotion true (s.world.setType i .excute)
  constructor
  case type => exact hswitch.type
  case list => exact hswitch.list
  case clock => exact hswitch.clock
  case lastDayPass => exact hswitch.lastDayPass
  case excuted => rfl
  case booked =>
    intro gold jewel hb
    have hb' := hb.excuteBool hi hold
    exact ⟨hb'.cheap, hb'.all, hb'.gold, hb'.jewel⟩
  case events => exact ⟨id, fun _ => .inl rfl, by simp [mapWorld]⟩

/-- the beginning of `apply` -/
theorem applied_moved (hi : i < cfg.size) (hold : s.world.type i ≠ .excute) :
    Moved cfg i { type := .apply } s
      (mapWorld (if hasEvent s i eventApply then removeEvents s i eventApply else s) fun w => w.setType i .apply) := by
  obtain ⟨f, hf, hevents, hworld⟩ := cleared s i eventApply
  have happly : (mapWorld (if hasEvent s i eventApply then removeEvents s i eventApply else s)
      fun w => w.setType i .apply).world = s.world.setType i .apply :=
        congrArg (fun w => World.setType w i .apply) hworld
  constructor
  case type => exact congrArg World.type happly
  case list => exact (congrArg World.shopSalesPromotions happly).trans rfl
  case clock => exact (congrArg World.clock happly).trans rfl
  case lastDayPass => exact (congrArg World.lastDayPass happly).trans rfl
  case excuted => exact (congrArg World.excuted happly).trans (List.append_nil _).symm
  case booked =>
    intro gold jewel hb
    rw [happly]
    exact hb.setType hi hold (by decide)
  case events =>
    refine ⟨f, hf, ?_⟩
    rw [Option.toList_none, List.map_nil, List.append_nil]
    exact hevents

/-- a method that ends by arming a timer -/
theorem Moved.arm {type : ShopSalesPromotionType} {excuted : Bool}
    (h : Moved cfg i { type := type, excuted := excuted } s s') (kind : CallbackKind) (delay : ℕ) :
    Moved cfg i { type := type, timer := some (kind, delay), excuted := excuted } s
      (addEvent s' (some i) ⟨kind, i⟩ kind.eventType delay 1) := by
  obtain ⟨f, hf, hevents⟩ := h.events
  refine ⟨h.type, h.list, h.clock, h.lastDayPass, h.excuted, h.booked, f, hf, ?_⟩
  rw [addEvent, hevents]
  simp [newEvent]

/-! ## The outcomes of the methods -/

variable (cfg) (i)

/-- the conditions of the first block of `DayPass` -/
def shows (now : ℤ) : Bool :=
  let curTime := (cfg.config i).time
  match curTime.type with
  | .week => weekShows curTime (wday cfg.off now)
  | .openServerOffsetTime =>
    decide (curTime.showTime ≤ cfg.getOpenServerPassedDay now ∧ cfg.getOpenServerPassedDay now ≤ curTime.endTime)
  | .normal => false

def begins (now : ℤ) : Bool :=
  let curTime := (cfg.config i).time
  match curTime.type with
  | .week => weekBegins curTime (wday cfg.off now)
  | .openServerOffsetTime =>
    decide (curTime.beginTime ≤ cfg.getOpenServerPassedDay now ∧ cfg.getOpenServerPassedDay now ≤ curTime.endTime)
  | .normal => false

def ends (now : ℤ) : Bool :=
  let curTime := (cfg.config i).time
  match curTime.type with
  | .week => weekEnds curTime (wday cfg.off now)
  | .openServerOffsetTime =>
    decide (cfg.getOpenServerPassedDay now < curTime.beginTime ∨ curTime.endTime < cfg.getOpenServerPassedDay now)
  | .normal => false

def dayPassExcuteOutcome (now : ℤ) (type : ShopSalesPromotionType) : Outcome :=
  if type = .excute ∧ ends cfg i now then { type := .destroy } else { type := type }

def excuteOutcome (now : ℤ) : Outcome :=
  match (cfg.config i).time.type with
  | .normal =>
    let endTime := (cfg.config i).time.endTime
    if now < endTime then { type := .excute, timer := some (.exit, armed (endTime - now)), excuted := true }
    else { type := .destroy, excuted := true }
  | _ => { dayPassExcuteOutcome cfg i now .excute with excuted := true }

def dayPassApplyOutcome (now : ℤ) (type : ShopSalesPromotionType) : Outcome :=
  if type = .apply ∧ begins cfg i now then excuteOutcome cfg i now else dayPassExcuteOutcome cfg i now type

def applyOutcome (now : ℤ) : Outcome :=
  match (cfg.config i).time.type with
  | .normal =>
    let beginTime := (cfg.config i).time.beginTime
    if beginTime ≤ now then excuteOutcome cfg i now
    else { type := .apply, timer := some (.excute, armed (beginTime - now)) }
  | _ => dayPassApplyOutcome cfg i now .apply

def dayPassOutcome (now : ℤ) (type : ShopSalesPromotionType) : Outcome :=
  if type = .wait ∧ shows cfg i now then applyOutcome cfg i now else dayPassApplyOutcome cfg i now type

def initOutcome (now : ℤ) : Outcome :=
  let curTime := (cfg.config i).time
  match curTime.type with
  | .normal =>
    if curTime.endTime < curTime.showTime then { type := .wait }
    else if curTime.showTime ≤ now then applyOutcome cfg i now
    else { type := .wait, timer := some (.apply, armed (curTime.showTime - now)) }
  | _ => dayPassOutcome cfg i now .wait

def executeOutcome (kind : CallbackKind) (now : ℤ) : Outcome :=
  match kind with
  | .apply => applyOutcome cfg i now
  | .excute => excuteOutcome cfg i now
  | .exit => { type := .destroy }

variable {cfg} {i}

theorem Moved.now {o : Outcome} (h : Moved cfg i o s s') : serverTime s'.world = serverTime s.world := by
  rw [serverTime, serverTime, h.clock]

theorem Moved.type_self {o : Outcome} (h : Moved cfg i o s s') : s'.world.type i = o.type := by
  rw [h.type, Function.update_self]

theorem dayPassExcute_eq (s : Holder) :
    dayPassExcute cfg i s =
      if s.world.type i = .excute ∧ ends cfg i (serverTime s.world) then exit cfg i s else s := by
  unfold dayPassExcute ends
  by_cases hold : s.world.type i = .excute
  · cases htime : (cfg.config i).time.type <;> simp [hold, htime]
  · simp [hold]

theorem dayPassApply_eq (s : Holder) :
    dayPassApply cfg i s =
      dayPassExcute cfg i (if s.world.type i = .apply ∧ begins cfg i (serverTime s.world) then excute cfg i s
        else s) := by
  unfold dayPassApply begins
  by_cases hold : s.world.type i = .apply
  · cases htime : (cfg.config i).time.type <;> simp [hold, htime]
  · simp [hold]

theorem dayPass_eq (s : Holder) :
    dayPass cfg i s =
      dayPassApply cfg i (if s.world.type i = .wait ∧ shows cfg i (serverTime s.world) then apply cfg i s else s) := by
  unfold dayPass shows
  by_cases hold : s.world.type i = .wait
  · cases htime : (cfg.config i).time.type with
    | normal => simp [hold, htime]
    | week => simp [hold, htime]
    | openServerOffsetTime =>
      by_cases hnever : (cfg.config i).time.endTime < (cfg.config i).time.showTime
      · have hshows : ¬((cfg.config i).time.showTime ≤ cfg.getOpenServerPassedDay (serverTime s.world) ∧
            cfg.getOpenServerPassedDay (serverTime s.world) ≤ (cfg.config i).time.endTime) := by omega
        simp [hold, htime, hnever, hshows, dayPassApply_eq, dayPassExcute_eq]
      · simp [hold, htime, hnever]
  · simp [hold]

/-- a promotion of `Time_Normal` does not pass any days -/
theorem never_normal (h : (cfg.config i).time.type = .normal) (now : ℤ) :
    shows cfg i now = false ∧ begins cfg i now = false ∧ ends cfg i now = false := by
  simp [shows, begins, ends, h]

theorem dayPassExcute_moved (hi : i < cfg.size) (s : Holder) :
    Moved cfg i (dayPassExcuteOutcome cfg i (serverTime s.world) (s.world.type i)) s (dayPassExcute cfg i s) := by
  rw [dayPassExcute_eq, dayPassExcuteOutcome]
  split_ifs with h
  · exact exit_moved hi h.1
  · exact Moved.refl

theorem dayPassExcuteOutcome_excuted (now : ℤ) (type : ShopSalesPromotionType) :
    (dayPassExcuteOutcome cfg i now type).excuted = false := by
  unfold dayPassExcuteOutcome
  split_ifs <;> rfl

theorem dayPassExcuteOutcome_timer (now : ℤ) (type : ShopSalesPromotionType) :
    (dayPassExcuteOutcome cfg i now type).timer = none := by
  unfold dayPassExcuteOutcome
  split_ifs <;> rfl

theorem excute_moved (hi : i < cfg.size) (hold : s.world.type i ≠ .excute) :
    Moved cfg i (excuteOutcome cfg i (serverTime s.world)) s (excute cfg i s) := by
  have htrue := excuteTrue_moved hi hold
  have hexcute := htrue.type_self
  have hpass := htrue.trans (dayPassExcute_moved hi _) (.inr (dayPassExcuteOutcome_excuted _ _))
  rw [htrue.now, hexcute] at hpass
  unfold excute excuteOutcome
  cases (cfg.config i).time.type with
  | normal =>
    dsimp only
    rw [htrue.now]
    by_cases hend : serverTime s.world < (cfg.config i).time.endTime
    · rw [if_pos hend, if_pos (Int.sub_pos_of_lt hend)]
      exact htrue.arm .exit _
    · have hpast : ¬(cfg.config i).time.endTime - serverTime s.world > 0 := by omega
      rw [if_neg hend, if_neg hpast]
      exact htrue.trans (exit_moved hi hexcute) (.inr rfl)
  | week => exact hpass
  | openServerOffsetTime => exact hpass

/-- a promotion that has nothing to begin and nothing to end -/
def Settled (cfg : Config) (i : ℕ) (now : ℤ) (type : ShopSalesPromotionType) : Prop :=
  ¬(type = .apply ∧ begins cfg i now) ∧ ¬(type = .excute ∧ ends cfg i now)

/-- calling `DayPass` once more does nothing then -/
theorem Settled.dayPassApply (h : Settled cfg i (serverTime s.world) (s.world.type i)) : dayPassApply cfg i s = s := by
  rw [dayPassApply_eq, if_neg h.1, dayPassExcute_eq, if_neg h.2]

theorem settled_dayPassExcute (now : ℤ) {type : ShopSalesPromotionType} (h : ¬(type = .apply ∧ begins cfg i now)) :
    Settled cfg i now (dayPassExcuteOutcome cfg i now type).type := by
  unfold dayPassExcuteOutcome
  split_ifs with hends
  · exact ⟨by simp, by simp⟩
  · exact ⟨h, hends⟩

theorem settled_excute (now : ℤ) : Settled cfg i now (excuteOutcome cfg i now).type := by
  unfold excuteOutcome
  cases htime : (cfg.config i).time.type with
  | normal =>
    obtain ⟨-, hbegins, hends⟩ := never_normal htime now
    simp [Settled, hbegins, hends]
  | week => exact settled_dayPassExcute now (by simp)
  | openServerOffsetTime => exact settled_dayPassExcute now (by simp)

theorem settled_dayPassApply (now : ℤ) (type : ShopSalesPromotionType) :
    Settled cfg i now (dayPassApplyOutcome cfg i now type).type := by
  unfold dayPassApplyOutcome
  split_ifs with hbegins
  · exact settled_excute now
  · exact settled_dayPassExcute now hbegins

theorem settled_apply (now : ℤ) : Settled cfg i now (applyOutcome cfg i now).type := by
  unfold applyOutcome
  cases htime : (cfg.config i).time.type with
  | normal =>
    obtain ⟨-, hbegins, hends⟩ := never_normal htime now
    simp [Settled, hbegins, hends]
  | week => exact settled_dayPassApply now .apply
  | openServerOffsetTime => exact settled_dayPassApply now .apply

theorem dayPassApply_moved (hi : i < cfg.size) (s : Holder) :
    Moved cfg i (dayPassApplyOutcome cfg i (serverTime s.world) (s.world.type i)) s (dayPassApply cfg i s) := by
  rw [dayPassApply_eq, dayPassApplyOutcome]
  split_ifs with h
  · have hmoved := excute_moved hi (s := s) (by simp [h.1])
    have hsettled : ¬((excute cfg i s).world.type i = .excute ∧ ends cfg i (serverTime (excute cfg i s).world)) := by
      rw [hmoved.type_self, hmoved.now]
      exact (settled_excute _).2
    rw [dayPassExcute_eq, if_neg hsettled]
    exact hmoved
  · exact dayPassExcute_moved hi s

theorem apply_moved (hi : i < cfg.size) (hold : s.world.type i ≠ .excute) :
    Moved cfg i (applyOutcome cfg i (serverTime s.world)) s (apply cfg i s) := by
  have happlied := applied_moved hi hold
  have hwait := happlied.type_self
  have hexcute := excute_moved hi (s := mapWorld
    (if hasEvent s i eventApply then removeEvents s i eventApply else s) fun w => w.setType i .apply)
    (by rw [hwait]; simp)
  have hpass := happlied.trans (dayPassApply_moved hi _) (.inl rfl)
  rw [happlied.now] at hexcute
  rw [happlied.now, hwait] at hpass
  unfold apply applyOutcome
  cases (cfg.config i).time.type with
  | normal =>
    dsimp only
    rw [happlied.now]
    by_cases hbegin : (cfg.config i).time.beginTime ≤ serverTime s.world
    · rw [if_pos hbegin, if_pos (Int.sub_nonpos_of_le hbegin)]
      exact happlied.trans hexcute (.inl rfl)
    · have hlater : ¬(cfg.config i).time.beginTime - serverTime s.world ≤ 0 := by omega
      rw [if_neg hbegin, if_neg hlater]
      exact happlied.arm .excute _
  | week => exact hpass
  | openServerOffsetTime => exact hpass

/-- **`DayPass`.** -/
theorem dayPass_moved (hi : i < cfg.size) (s : Holder) :
    Moved cfg i (dayPassOutcome cfg i (serverTime s.world) (s.world.type i)) s (dayPass cfg i s) := by
  rw [dayPass_eq, dayPassOutcome]
  split_ifs with h
  · have hmoved := apply_moved hi (s := s) (by simp [h.1])
    rw [Settled.dayPassApply]
    · exact hmoved
    · rw [hmoved.type_self, hmoved.now]
      exact settled_apply _
  · exact dayPassApply_moved hi s

/-- **`init`.** -/
theorem init_moved (hi : i < cfg.size) (hold : s.world.type i = .wait) :
    Moved cfg i (initOutcome cfg i (serverTime s.world)) s (init cfg i s).1 := by
  have hwait : (mapWorld s fun w => w.setType i .wait) = s := by
    rw [mapWorld, World.setType, ← hold, Function.update_eq_self]
  have hstay : Moved cfg i { type := .wait } s s := hold ▸ Moved.refl
  have happly := apply_moved (s := s) hi (by simp [hold])
  have hpass := dayPass_moved hi s
  rw [hold] at hpass
  unfold init initOutcome
  rw [hwait]
  dsimp only
  cases (cfg.config i).time.type with
  | normal =>
    by_cases hnever : (cfg.config i).time.endTime < (cfg.config i).time.showTime
    · rw [if_pos hnever, if_pos hnever]
      exact hstay
    · rw [if_neg hnever, if_neg hnever]
      by_cases hshow : (cfg.config i).time.showTime ≤ serverTime s.world
      · rw [if_pos hshow, if_pos (Int.sub_nonpos_of_le hshow)]
        exact happly
      · have hlater : ¬(cfg.config i).time.showTime - serverTime s.world ≤ 0 := by omega
        rw [if_neg hshow, if_neg hlater]
        exact hstay.arm .apply _
  | week => exact hpass
  | openServerOffsetTime => exact hpass

theorem execute_moved {cb : Callback} (hi : cb.promotion < cfg.size)
    (hold : s.world.type cb.promotion = cb.kind.stage) :
    Moved cfg cb.promotion (executeOutcome cfg cb.promotion cb.kind (serverTime s.world)) s (execute cfg cb s) := by
  unfold execute executeOutcome
  cases hkind : cb.kind with
  | apply => exact apply_moved hi (by simp [hold, hkind, CallbackKind.stage])
  | excute => exact excute_moved hi (by simp [hold, hkind, CallbackKind.stage])
  | exit => exact exit_moved hi (by simp [hold, hkind, CallbackKind.stage])

end DreamHeroes.Promotion

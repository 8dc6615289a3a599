/-
The timers of the promotions, over the steps of the server.

- `Pending`: the timer of a promotion in the list of the holder. `Moved.pending`, `Moved.pending_of_ne`: what a method
  does to the pending timers.
- `Timers`: the pending timers are those of promotions of `Time_Normal`, one at most for each, and the promotion is in
  the state the timer waits in. `Moved.timers`: a method keeps this, when the timer it was called by is gone.
- `Sound`: the timers, the accumulators and the list of the manager. `sound_start`, `sound_step`: it holds in every
  state that is reached.
-/
import Mathlib.Tactic
import DreamHeroes.Promotion.Outcomes

namespace DreamHeroes.Promotion

open DreamHeroes.Lib DreamHeroes.Common

variable {cfg : Config} {i : ℕ} {o : Outcome} {s s' : Holder}

/-- `ev` is the timer of the promotion `i`, at the entry `k` -/
def Pending (s : Holder) (i k : ℕ) (ev : TimedEvent Callback) : Prop :=
  s.events[k]? = some ev ∧ ev.deleted = false ∧ ev.erased = false ∧ ev.cb.promotion = i

theorem Pending.place {k : ℕ} {ev : TimedEvent Callback} (h : Pending s i k ev) : s.events[k]? = some ev := h.1

theorem Pending.alive {k : ℕ} {ev : TimedEvent Callback} (h : Pending s i k ev) : ev.deleted = false := h.2.1

theorem Pending.present {k : ℕ} {ev : TimedEvent Callback} (h : Pending s i k ev) : ev.erased = false := h.2.2.1

theorem Pending.promotion {k : ℕ} {ev : TimedEvent Callback} (h : Pending s i k ev) : ev.cb.promotion = i := h.2.2.2

variable (cfg) in
/-- a timer of `i` is as `addEvent` has made it, and the promotion waits for it -/
structure Owned (i : ℕ) (w : World) (ev : TimedEvent Callback) : Prop where
  obj : ev.obj = some i
  known : i < cfg.size
  normal : (cfg.config i).time.type = .normal
  eventType : ev.eventType = ev.cb.kind.eventType
  once : ev.repeats = 1
  waits : w.type i = ev.cb.kind.stage

variable (cfg) in
structure Timers (s : Holder) : Prop where
  owned : ∀ i k ev, Pending s i k ev → Owned cfg i s.world ev
  single : ∀ i j k ev ev', Pending s i j ev → Pending s i k ev' → j = k

/-! ## What a method does to the timers -/

/-- what is pending after a method was pending before, or has just been armed -/
theorem Moved.pending (h : Moved cfg i o s s') {j k : ℕ} {ev : TimedEvent Callback} (hev : Pending s' j k ev) :
    Pending s j k ev ∨ (j = i ∧ k = s.events.length ∧ ∃ timer, o.timer = some timer ∧ ev = newEvent i timer) := by
  obtain ⟨f, hf, hevents⟩ := h.events
  obtain ⟨hk, hlive, hpresent, hj⟩ := hev
  rw [hevents] at hk
  by_cases hlt : k < s.events.length
  · left
    rw [List.getElem?_append_left (by simpa using hlt), List.getElem?_map] at hk
    obtain ⟨old, hold, rfl⟩ := Option.map_eq_some_iff.1 hk
    rcases hf old with hkeep | ⟨-, hmark⟩
    · rw [hkeep] at hlive hpresent hj ⊢
      exact ⟨hold, hlive, hpresent, hj⟩
    · rw [hmark] at hlive
      cases hlive
  · right
    rw [List.getElem?_append_right (by simpa using Nat.le_of_not_lt hlt), List.length_map] at hk
    cases htimer : o.timer with
    | none => simp [htimer] at hk
    | some timer =>
      rw [htimer, Option.toList_some, List.map_singleton, List.getElem?_singleton] at hk
      split_ifs at hk with hzero
      cases hk
      exact ⟨hj.symm, by omega, timer, rfl, rfl⟩

/-- the timers of the other promotions stay -/
theorem Moved.pending_of_ne (h : Moved cfg i o s s') (ht : Timers cfg s) {j k : ℕ} (hj : j ≠ i)
    {ev : TimedEvent Callback} (hev : Pending s j k ev) : Pending s' j k ev := by
  obtain ⟨f, hf, hevents⟩ := h.events
  have hlt : k < s.events.length := (List.getElem?_eq_some_iff.1 hev.place).1
  refine ⟨?_, hev.alive, hev.present, hev.promotion⟩
  rw [hevents, List.getElem?_append_left (by simpa using hlt), List.getElem?_map, hev.place, Option.map_some]
  rcases hf ev with hkeep | ⟨hobj, -⟩
  · rw [hkeep]
  · rw [(ht.owned j k ev hev).obj] at hobj
    cases hobj
    exact absurd rfl hj

/-- the new timer is pending -/
theorem Moved.pending_new (h : Moved cfg i o s s') {timer : CallbackKind × ℕ} (htimer : o.timer = some timer) :
    Pending s' i s.events.length (newEvent i timer) := by
  obtain ⟨f, -, hevents⟩ := h.events
  refine ⟨?_, rfl, rfl, rfl⟩
  rw [hevents, htimer, List.getElem?_append_right (by simp)]
  simp

variable (cfg) (i) in
/-- only promotions of `Time_Normal` arm timers, and each waits for the timer in its state -/
def Outcome.Waits (o : Outcome) : Prop :=
  ∀ timer, o.timer = some timer → (cfg.config i).time.type = .normal ∧ o.type = timer.1.stage

theorem Moved.timers (h : Moved cfg i o s s') (hi : i < cfg.size) (ht : Timers cfg s) (ho : o.Waits cfg i) {t : Holder}
    (hworld : t.world.type = s'.world.type) (hsub : ∀ j k ev, Pending t j k ev → Pending s' j k ev)
    (hgone : ∀ k ev, Pending t i k ev → ¬Pending s i k ev) : Timers cfg t := by
  -- a pending timer is an old one of another promotion, or the new one
  have hcases : ∀ j k ev, Pending t j k ev → (j ≠ i ∧ Pending s j k ev) ∨
      (j = i ∧ k = s.events.length ∧ ∃ timer, o.timer = some timer ∧ ev = newEvent i timer) := by
    intro j k ev hev
    rcases h.pending (hsub j k ev hev) with hold | hnew
    · refine .inl ⟨?_, hold⟩
      rintro rfl
      exact hgone k ev hev hold
    · exact .inr hnew
  refine ⟨?_, ?_⟩
  · intro j k ev hev
    rcases hcases j k ev hev with ⟨hj, hold⟩ | ⟨rfl, -, timer, htimer, rfl⟩
    · obtain ⟨hobj, hknown, hnormal, hty, honce, hwaits⟩ := ht.owned j k ev hold
      refine ⟨hobj, hknown, hnormal, hty, honce, ?_⟩
      rw [hworld, h.type, Function.update_of_ne hj, hwaits]
    · obtain ⟨hnormal, hstage⟩ := ho timer htimer
      refine ⟨rfl, hi, hnormal, rfl, rfl, ?_⟩
      rw [hworld, h.type_self, hstage]
      rfl
  · intro j k k' ev ev' hev hev'
    rcases hcases j k ev hev with ⟨hj, hold⟩ | ⟨hj, hk, -⟩
    · rcases hcases j k' ev' hev' with ⟨-, hold'⟩ | ⟨hj', -⟩
      · exact ht.single j k k' ev ev' hold hold'
      · exact absurd hj' hj
    · rcases hcases j k' ev' hev' with ⟨hj', -⟩ | ⟨-, hk', -⟩
      · exact absurd hj hj'
      · rw [hk, hk']

/-- nothing has happened to the promotion -/
structure Untouched (i : ℕ) (s s' : Holder) : Prop where
  type : s'.world.type i = s.world.type i
  excuted : ∀ t, (i, t) ∈ s'.world.excuted ↔ (i, t) ∈ s.world.excuted
  pending : ∀ k ev, Pending s' i k ev ↔ Pending s i k ev

theorem Untouched.refl (i : ℕ) (s : Holder) : Untouched i s s := ⟨rfl, fun _ => Iff.rfl, fun _ _ => Iff.rfl⟩

theorem Untouched.trans {s'' : Holder} (h : Untouched i s s') (h' : Untouched i s' s'') : Untouched i s s'' :=
  ⟨h'.type.trans h.type, fun t => (h'.excuted t).trans (h.excuted t),
    fun k ev => (h'.pending k ev).trans (h.pending k ev)⟩

/-- a method of another promotion -/
theorem Moved.untouched (h : Moved cfg i o s s') (ht : Timers cfg s) {j : ℕ} (hj : j ≠ i) : Untouched j s s' := by
  refine ⟨?_, ?_, ?_⟩
  · rw [h.type, Function.update_of_ne hj]
  · intro t
    rw [h.excuted, List.mem_append]
    split_ifs <;> simp [hj]
  · intro k ev
    constructor
    · intro hev
      rcases h.pending hev with hold | ⟨hi, -⟩
      · exact hold
      · exact absurd hi hj
    · exact h.pending_of_ne ht hj

/-! ## The timers of the outcomes -/

theorem waits_dayPassExcute (now : ℤ) (type : ShopSalesPromotionType) :
    (dayPassExcuteOutcome cfg i now type).Waits cfg i := by
  intro timer htimer
  rw [dayPassExcuteOutcome_timer] at htimer
  cases htimer

theorem waits_excute (now : ℤ) : (excuteOutcome cfg i now).Waits cfg i := by
  unfold excuteOutcome
  cases htime : (cfg.config i).time.type with
  | normal =>
    intro timer htimer
    dsimp only at htimer ⊢
    split_ifs at htimer ⊢
    cases htimer
    exact ⟨htime, rfl⟩
  | week => exact waits_dayPassExcute now .excute
  | openServerOffsetTime => exact waits_dayPassExcute now .excute

theorem waits_dayPassApply (now : ℤ) (type : ShopSalesPromotionType) :
    (dayPassApplyOutcome cfg i now type).Waits cfg i := by
  unfold dayPassApplyOutcome
  split_ifs
  · exact waits_excute now
  · exact waits_dayPassExcute now type

theorem waits_apply (now : ℤ) : (applyOutcome cfg i now).Waits cfg i := by
  unfold applyOutcome
  cases htime : (cfg.config i).time.type with
  | normal =>
    dsimp only
    split_ifs
    · exact waits_excute now
    · intro timer htimer
      cases htimer
      exact ⟨htime, rfl⟩
  | week => exact waits_dayPassApply now .apply
  | openServerOffsetTime => exact waits_dayPassApply now .apply

theorem waits_dayPass (now : ℤ) (type : ShopSalesPromotionType) : (dayPassOutcome cfg i now type).Waits cfg i := by
  unfold dayPassOutcome
  split_ifs
  · exact waits_apply now
  · exact waits_dayPassApply now type

theorem waits_init (now : ℤ) : (initOutcome cfg i now).Waits cfg i := by
  unfold initOutcome
  dsimp only
  cases htime : (cfg.config i).time.type with
  | normal =>
    dsimp only
    split_ifs
    · intro timer htimer
      cases htimer
    · exact waits_apply now
    · intro timer htimer
      cases htimer
      exact ⟨htime, rfl⟩
  | week => exact waits_dayPass now .wait
  | openServerOffsetTime => exact waits_dayPass now .wait

theorem waits_execute (kind : CallbackKind) (now : ℤ) : (executeOutcome cfg i kind now).Waits cfg i := by
  cases kind with
  | apply => exact waits_apply now
  | excute => exact waits_excute now
  | exit =>
    intro timer htimer
    cases htimer

/-! ## A visit -/

variable {d k : ℕ} {ev : TimedEvent Callback}

variable (cfg) (d) in
/-- an entry at which nothing is pending -/
theorem visit_idle (h : ∀ i ev, ¬Pending s i k ev) :
    (visit (execute cfg) d s k).world = s.world ∧
      ∀ i m ev, Pending (visit (execute cfg) d s k) i m ev ↔ Pending s i m ev := by
  unfold visit
  split
  · exact ⟨rfl, fun _ _ _ => Iff.rfl⟩
  · rename_i ev hev
    split_ifs with herased hdel
    · exact ⟨rfl, fun _ _ _ => Iff.rfl⟩
    · refine ⟨rfl, ?_⟩
      intro i m ev'
      by_cases hm : m = k
      · subst hm
        refine ⟨fun hev' => ?_, fun hev' => absurd hev' (h i ev')⟩
        have hgone := hev'.place
        rw [List.getElem?_modify_eq, hev] at hgone
        cases hgone
        cases hev'.alive
      · have hsame : (s.events.modify k TimedEvent.erase)[m]? = s.events[m]? :=
          List.getElem?_modify_ne _ _ (Ne.symm hm)
        constructor
        · rintro ⟨hplace, halive, hpresent, hpromotion⟩
          exact ⟨hsame.symm.trans hplace, halive, hpresent, hpromotion⟩
        · rintro ⟨hplace, halive, hpresent, hpromotion⟩
          exact ⟨hsame.trans hplace, halive, hpresent, hpromotion⟩
    all_goals exact absurd ⟨hev, by simpa using hdel, by simpa using herased, rfl⟩ (h ev.cb.promotion ev)

/-- an entry at which a timer is pending -/
theorem visit_pending (hev : Pending s i k ev) :
    visit (execute cfg) d s k =
      if ev.currTime ≤ d then
        { execute cfg ev.cb s with events := (execute cfg ev.cb s).events.modify k TimedEvent.rearm }
      else { s with events := s.events.modify k fun ev => { ev with currTime := ev.currTime - d } } := by
  rw [visit, hev.place]
  dsimp only
  rw [if_neg (by simp [hev.present]), if_neg (by simp [hev.alive])]

theorem visit_world (hev : Pending s i k ev) :
    (visit (execute cfg) d s k).world = if ev.currTime ≤ d then (execute cfg ev.cb s).world else s.world := by
  rw [visit_pending hev]
  split_ifs <;> rfl

/-- a timer that is not due goes on -/
theorem pending_visit_later (hev : Pending s i k ev) (hdue : ¬ev.currTime ≤ d) {j m : ℕ} {ev' : TimedEvent Callback} :
    Pending (visit (execute cfg) d s k) j m ev' ↔
      if m = k then j = i ∧ ev' = { ev with currTime := ev.currTime - d } else Pending s j m ev' := by
  rw [visit_pending hev, if_neg hdue]
  split_ifs with hm
  · subst hm
    have hget : (s.events.modify m fun ev => { ev with currTime := ev.currTime - d })[m]? =
        some { ev with currTime := ev.currTime - d } := by
      rw [List.getElem?_modify_eq, hev.place]
      rfl
    constructor
    · rintro ⟨hplace, -, -, hj⟩
      cases hget.symm.trans hplace
      exact ⟨hj.symm.trans hev.promotion, rfl⟩
    · rintro ⟨rfl, rfl⟩
      exact ⟨hget, hev.alive, hev.present, hev.promotion⟩
  · have hsame : (s.events.modify k fun ev => { ev with currTime := ev.currTime - d })[m]? = s.events[m]? :=
      List.getElem?_modify_ne _ _ (Ne.symm hm)
    constructor
    · rintro ⟨hplace, halive, hpresent, hj⟩
      exact ⟨hsame.symm.trans hplace, halive, hpresent, hj⟩
    · rintro ⟨hplace, halive, hpresent, hj⟩
      exact ⟨hsame.trans hplace, halive, hpresent, hj⟩

theorem rearm_deleted {ev : TimedEvent Callback} (h : ev.deleted = true ∨ ev.repeats = 1) :
    ev.rearm.deleted = true := by
  unfold TimedEvent.rearm TimedEvent.erase
  rcases h with h | h <;> simp [h]

theorem execute_moved_pending (ht : Timers cfg s) (hev : Pending s i k ev) :
    Moved cfg i (executeOutcome cfg i ev.cb.kind (serverTime s.world)) s (execute cfg ev.cb s) := by
  have howned := ht.owned i k ev hev
  obtain rfl := hev.promotion
  exact execute_moved howned.known howned.waits

/-- a timer that is due is gone, and its callback has been executed -/
theorem pending_visit_due (ht : Timers cfg s) (hev : Pending s i k ev) (hdue : ev.currTime ≤ d) {j m : ℕ}
    {ev' : TimedEvent Callback} :
    Pending (visit (execute cfg) d s k) j m ev' ↔ m ≠ k ∧ Pending (execute cfg ev.cb s) j m ev' := by
  obtain ⟨f, hf, hevents⟩ := (execute_moved_pending ht hev).events
  have honce := (ht.owned i k ev hev).once
  have hlt : k < s.events.length := (List.getElem?_eq_some_iff.1 hev.place).1
  have hentry : (execute cfg ev.cb s).events[k]? = some (f ev) := by
    rw [hevents, List.getElem?_append_left (by simpa using hlt), List.getElem?_map, hev.place, Option.map_some]
  have hgone : (f ev).rearm.deleted = true := by
    apply rearm_deleted
    rcases hf ev with hkeep | ⟨-, hmark⟩
    · rw [hkeep]
      exact .inr honce
    · rw [hmark]
      exact .inl rfl
  rw [visit_pending hev, if_pos hdue]
  by_cases hm : m = k
  · subst hm
    refine ⟨?_, fun h => absurd rfl h.1⟩
    rintro ⟨hplace, halive, -, -⟩
    dsimp only at hplace
    rw [List.getElem?_modify_eq, hentry] at hplace
    cases hplace
    rw [hgone] at halive
    cases halive
  · have hsame : ((execute cfg ev.cb s).events.modify k TimedEvent.rearm)[m]? = (execute cfg ev.cb s).events[m]? :=
      List.getElem?_modify_ne _ _ (Ne.symm hm)
    constructor
    · rintro ⟨hplace, halive, hpresent, hj⟩
      exact ⟨hm, hsame.symm.trans hplace, halive, hpresent, hj⟩
    · rintro ⟨-, hplace, halive, hpresent, hj⟩
      exact ⟨hsame.trans hplace, halive, hpresent, hj⟩

/-- a visit is at one moment, and leaves the list of the manager alone -/
theorem visit_frame (ht : Timers cfg s) (d k : ℕ) :
    (visit (execute cfg) d s k).world.clock = s.world.clock ∧
      (visit (execute cfg) d s k).world.lastDayPass = s.world.lastDayPass ∧
      (visit (execute cfg) d s k).world.shopSalesPromotions = s.world.shopSalesPromotions := by
  by_cases hidle : ∀ i ev, ¬Pending s i k ev
  · rw [(visit_idle cfg d hidle).1]
    exact ⟨rfl, rfl, rfl⟩
  · push Not at hidle
    obtain ⟨i, ev, hev⟩ := hidle
    have hmoved := execute_moved_pending ht hev
    rw [visit_world hev]
    split_ifs
    · exact ⟨hmoved.clock, hmoved.lastDayPass, hmoved.list⟩
    · exact ⟨rfl, rfl, rfl⟩

/-- a visit to the entry of another promotion -/
theorem visit_other (ht : Timers cfg s) {i : ℕ} (hi : ∀ ev, ¬Pending s i k ev) :
    Untouched i s (visit (execute cfg) d s k) := by
  by_cases hidle : ∀ j ev, ¬Pending s j k ev
  · obtain ⟨hworld, hpending⟩ := visit_idle cfg d hidle
    exact ⟨by rw [hworld], fun t => by rw [hworld], hpending i⟩
  · push Not at hidle
    obtain ⟨j, ev, hev⟩ := hidle
    have hne : i ≠ j := by
      rintro rfl
      exact hi ev hev
    by_cases hdue : ev.currTime ≤ d
    · have huntouched := (execute_moved_pending ht hev).untouched ht hne
      have hworld : (visit (execute cfg) d s k).world = (execute cfg ev.cb s).world := by
        rw [visit_world hev, if_pos hdue]
      refine ⟨hworld ▸ huntouched.type, hworld ▸ huntouched.excuted, ?_⟩
      intro m ev'
      rw [pending_visit_due ht hev hdue, huntouched.pending]
      constructor
      · exact And.right
      · intro hev'
        refine ⟨?_, hev'⟩
        rintro rfl
        exact hi ev' hev'
    · have hworld : (visit (execute cfg) d s k).world = s.world := by rw [visit_world hev, if_neg hdue]
      refine ⟨by rw [hworld], by simp [hworld], ?_⟩
      intro m ev'
      rw [pending_visit_later hev hdue]
      split_ifs with hm
      · subst hm
        exact ⟨fun h => absurd h.1 hne, fun h => absurd h (hi ev')⟩
      · exact Iff.rfl

/-! ## The states that are reached -/

variable (cfg) in
/-- `gold` and `jewel` are what the memory of the ratings held -/
structure Sound (gold jewel : ℤ) (s : Holder) : Prop where
  timers : Timers cfg s
  booked : Booked cfg gold jewel s.world
  listed : ∀ i ∈ s.world.shopSalesPromotions, i < cfg.size

variable {gold jewel : ℤ}

/-- a change that no timer and no accumulator sees -/
theorem Sound.change (hs : Sound cfg gold jewel s) (hevents : s'.events = s.events)
    (htype : s'.world.type = s.world.type) (hcheap : s'.world.cheapGold = s.world.cheapGold)
    (hall : s'.world.rechargeRatting = s.world.rechargeRatting)
    (hgold : s'.world.rechargeGoldRatting = s.world.rechargeGoldRatting)
    (hjewel : s'.world.rechargeJewelRatting = s.world.rechargeJewelRatting)
    (hlist : ∀ i ∈ s'.world.shopSalesPromotions, i < cfg.size) : Sound cfg gold jewel s' := by
  have hpending : ∀ i k ev, Pending s' i k ev ↔ Pending s i k ev := by
    intro i k ev
    rw [Pending, Pending, hevents]
  refine ⟨⟨?_, ?_⟩, ⟨?_, ?_, ?_, ?_⟩, hlist⟩
  · intro i k ev hev
    obtain ⟨hobj, hknown, hnormal, hty, honce, hwaits⟩ := hs.timers.owned i k ev ((hpending i k ev).1 hev)
    exact ⟨hobj, hknown, hnormal, hty, honce, (congrFun htype i).trans hwaits⟩
  · intro i j k ev ev' hev hev'
    exact hs.timers.single i j k ev ev' ((hpending i j ev).1 hev) ((hpending i k ev').1 hev')
  · intro grid
    rw [total_congr cfg htype, ← hs.booked.cheap, getCheapGold, getCheapGold, hcheap]
  · rw [hall, hs.booked.all]
  · rw [total_congr cfg htype, hgold, hs.booked.gold]
  · rw [hjewel, hs.booked.jewel]

/-- a method that is not called by a timer of the promotion, when it has none -/
theorem Sound.moved (hs : Sound cfg gold jewel s) (h : Moved cfg i o s s') (hi : i < cfg.size) (ho : o.Waits cfg i)
    (hnone : ∀ k ev, ¬Pending s i k ev) : Sound cfg gold jewel s' := by
  refine ⟨h.timers hi hs.timers ho rfl (fun _ _ _ hev => hev) (fun k ev _ => hnone k ev), h.booked _ _ hs.booked, ?_⟩
  rw [h.list]
  exact hs.listed

/-- `DayPass` leaves a promotion of `Time_Normal` alone -/
theorem dayPass_normal (h : (cfg.config i).time.type = .normal) (s : Holder) : dayPass cfg i s = s := by
  obtain ⟨hshows, hbegins, hends⟩ := never_normal h (serverTime s.world)
  rw [dayPass_eq, hshows, if_neg (by simp), Settled.dayPassApply]
  simp [Settled, hbegins, hends]

theorem sound_dayPass (hs : Sound cfg gold jewel s) (hi : i < cfg.size) : Sound cfg gold jewel (dayPass cfg i s) := by
  by_cases htime : (cfg.config i).time.type = .normal
  · rwa [dayPass_normal htime]
  · apply hs.moved (dayPass_moved hi s) hi (waits_dayPass _ _)
    intro k ev hev
    exact htime (hs.timers.owned i k ev hev).normal

theorem sound_visit (hs : Sound cfg gold jewel s) (d k : ℕ) : Sound cfg gold jewel (visit (execute cfg) d s k) := by
  by_cases hidle : ∀ i ev, ¬Pending s i k ev
  · obtain ⟨hworld, hpending⟩ := visit_idle cfg d hidle
    refine ⟨⟨?_, ?_⟩, hworld ▸ hs.booked, hworld ▸ hs.listed⟩
    · intro i m ev hev
      rw [hworld]
      exact hs.timers.owned i m ev ((hpending i m ev).1 hev)
    · intro i m m' ev ev' hev hev'
      exact hs.timers.single i m m' ev ev' ((hpending i m ev).1 hev) ((hpending i m' ev').1 hev')
  · push Not at hidle
    obtain ⟨i, ev, hev⟩ := hidle
    have howned := hs.timers.owned i k ev hev
    by_cases hdue : ev.currTime ≤ d
    · have hworld : (visit (execute cfg) d s k).world = (execute cfg ev.cb s).world := by
        rw [visit_world hev, if_pos hdue]
      have hmoved := execute_moved_pending hs.timers hev
      refine ⟨?_, by rw [hworld]; exact hmoved.booked _ _ hs.booked, by rw [hworld, hmoved.list]; exact hs.listed⟩
      apply hmoved.timers howned.known hs.timers (waits_execute _ _) (congrArg World.type hworld)
      · intro j m ev' hev'
        exact ((pending_visit_due hs.timers hev hdue).1 hev').2
      · intro m ev' hev' hold
        exact ((pending_visit_due hs.timers hev hdue).1 hev').1 (hs.timers.single i m k ev' ev hold hev)
    · have hworld : (visit (execute cfg) d s k).world = s.world := by rw [visit_world hev, if_neg hdue]
      -- the old timer behind a pending one
      have hold : ∀ j m ev', Pending (visit (execute cfg) d s k) j m ev' →
          ∃ old, Pending s j m old ∧ (Owned cfg j s.world old → Owned cfg j s.world ev') := by
        intro j m ev' hev'
        rw [pending_visit_later hev hdue] at hev'
        split_ifs at hev' with hm
        · obtain ⟨rfl, rfl⟩ := hev'
          exact ⟨ev, hm ▸ hev, fun h => ⟨h.obj, h.known, h.normal, h.eventType, h.once, h.waits⟩⟩
        · exact ⟨ev', hev', id⟩
      refine ⟨⟨?_, ?_⟩, hworld ▸ hs.booked, hworld ▸ hs.listed⟩
      · intro j m ev' hev'
        obtain ⟨old, hpending, howned⟩ := hold j m ev' hev'
        rw [hworld]
        exact howned (hs.timers.owned j m old hpending)
      · intro j m m' ev' ev'' hev' hev''
        obtain ⟨old, hpending, -⟩ := hold j m ev' hev'
        obtain ⟨old', hpending', -⟩ := hold j m' ev'' hev''
        exact hs.timers.single j m m' old old' hpending hpending'

/-- a callback of a rank adds callbacks of lower ranks only -/
def CallbackKind.rank : CallbackKind → ℕ
  | .apply => 2
  | .excute => 1
  | .exit => 0

theorem rank_excuteOutcome {now : ℤ} {timer : CallbackKind × ℕ} (h : (excuteOutcome cfg i now).timer = some timer) :
    timer.1.rank = 0 := by
  unfold excuteOutcome at h
  cases htime : (cfg.config i).time.type <;> simp only [htime, dayPassExcuteOutcome_timer] at h
  · split_ifs at h
    cases h
    rfl
  all_goals cases h

theorem rank_executeOutcome {kind : CallbackKind} {now : ℤ} {timer : CallbackKind × ℕ}
    (h : (executeOutcome cfg i kind now).timer = some timer) : timer.1.rank < kind.rank := by
  cases kind with
  | apply =>
    simp only [executeOutcome, applyOutcome, dayPassApplyOutcome] at h
    split at h <;> split_ifs at h
    · exact (rank_excuteOutcome h).trans_lt (by decide)
    · cases h
      exact Nat.lt_succ_self 1
    · exact (rank_excuteOutcome h).trans_lt (by decide)
    · rw [dayPassExcuteOutcome_timer] at h
      cases h
  | excute => exact (rank_excuteOutcome h).trans_lt (by decide)
  | exit => cases h

/-- the loop of a round ends within its rounds -/
theorem tick_loop (hs : Sound cfg gold jewel s) (d : ℕ) (behind : List ℕ) :
    ∃ s', updateLoop (execute cfg) d behind (3 * s.events.length + 1) 0 s = some s' := by
  apply updateLoop_ends _ _ _ (fun cb => cb.kind.rank) (I := Sound cfg gold jewel)
    (fun s k hs => sound_visit hs d k) ?_ hs
  · have hsum : ∀ l : List (TimedEvent Callback),
        ((l.map TimedEvent.cb).map fun cb => cb.kind.rank + 1).sum ≤ 3 * l.length := by
      intro l
      induction l with
      | nil => exact le_rfl
      | cons ev l ih =>
        have hrank : ev.cb.kind.rank ≤ 2 := by cases ev.cb.kind <;> decide
        rw [List.map_cons, List.map_cons, List.sum_cons, List.length_cons]
        omega
    exact Nat.lt_succ_of_le (hsum s.events)
  · intro s k ev hs hk hpresent halive
    have hmoved := execute_moved_pending hs.timers ⟨hk, halive, hpresent, rfl⟩
    obtain ⟨f, hf, hevents⟩ := hmoved.events
    have hcb : ∀ ev, (f ev).cb = ev.cb := by
      intro ev
      rcases hf ev with h | ⟨-, h⟩ <;> rw [h]
    refine ⟨((executeOutcome cfg ev.cb.promotion ev.cb.kind (serverTime s.world)).timer.toList.map
      (newEvent ev.cb.promotion)).map TimedEvent.cb, ?_, ?_⟩
    · rw [hevents, List.map_append, List.map_map]
      congr 1
      exact List.map_congr_left fun ev _ => hcb ev
    · cases htimer : (executeOutcome cfg ev.cb.promotion ev.cb.kind (serverTime s.world)).timer with
      | none => exact Nat.zero_le _
      | some timer => simpa [newEvent] using rank_executeOutcome htimer

theorem sound_tick (hs : Sound cfg gold jewel s) (timeSpawn : ℕ) (behind : List ℕ) :
    Sound cfg gold jewel (tick cfg s timeSpawn behind) := by
  have hclock : Sound cfg gold jewel (Promotion.mapWorld s fun w => { w with clock := w.clock + timeSpawn }) :=
    hs.change rfl rfl rfl rfl rfl rfl hs.listed
  unfold tick
  dsimp only
  split_ifs
  · exact hclock
  · cases hloop : updateLoop (execute cfg) (timeSpawn % 2 ^ 32) behind
        (3 * (Promotion.mapWorld s fun w => { w with clock := w.clock + timeSpawn }).events.length + 1) 0
        (Promotion.mapWorld s fun w => { w with clock := w.clock + timeSpawn }) with
    | none => exact hclock
    | some s' =>
      have hvisit : ∀ (s : Holder) (k : ℕ), Sound cfg gold jewel s →
          Sound cfg gold jewel (visit (execute cfg) (timeSpawn % 2 ^ 32) s k) := fun s k hs => sound_visit hs _ k
      exact updateLoop_inv _ _ _ hvisit hclock hloop

theorem sound_step (hs : Sound cfg gold jewel s) (op : Op) : Sound cfg gold jewel (step cfg s op) := by
  cases op with
  | tick timeSpawn behind => exact sound_tick hs timeSpawn behind
  | dayPass =>
    have hfold : ∀ l : List ℕ, (∀ i ∈ l, i < cfg.size) → ∀ s, Sound cfg gold jewel s →
        Sound cfg gold jewel (l.foldl (fun s i => dayPass cfg i s) s) := by
      intro l hl s hs
      exact List.foldlRecOn l _ hs fun s hs i hi => sound_dayPass hs (hl i hi)
    have hpassed := hfold _ hs.listed s hs
    exact hpassed.change rfl rfl rfl rfl rfl rfl hpassed.listed
  | update =>
    refine hs.change rfl rfl rfl rfl rfl rfl ?_
    intro i hi
    exact hs.listed i (List.mem_filter.1 hi).1

/-- before the promotion `i` is initialised, it and those behind it have done nothing -/
structure Fresh (n : ℕ) (s : Holder) : Prop where
  wait : ∀ i, n ≤ i → s.world.type i = .wait
  none : ∀ i, n ≤ i → ∀ k ev, ¬Pending s i k ev

theorem sound_initOne (hs : Sound cfg gold jewel s) (hf : Fresh i s) (hi : i < cfg.size) :
    Sound cfg gold jewel (initOne cfg s i) ∧ Fresh (i + 1) (initOne cfg s i) := by
  have hmoved := init_moved hi (hf.wait i le_rfl)
  have hinit := hs.moved hmoved hi (waits_init _) (hf.none i le_rfl)
  have hfresh : Fresh (i + 1) (init cfg i s).1 := by
    refine ⟨?_, ?_⟩
    · intro j hj
      rw [hmoved.type, Function.update_of_ne (by omega), hf.wait j (by omega)]
    · intro j hj k ev hev
      rcases hmoved.pending hev with hold | ⟨rfl, -⟩
      · exact hf.none j (by omega) k ev hold
      · omega
  unfold initOne
  dsimp only
  split_ifs
  · refine ⟨?_, hfresh.wait, hfresh.none⟩
    refine hinit.change rfl rfl rfl rfl rfl rfl ?_
    intro j hj
    rcases List.mem_append.1 hj with hj | hj
    · exact hinit.listed j hj
    · rwa [List.mem_singleton.1 hj]
  · exact ⟨hinit, hfresh⟩

/-- the state in which the promotions are initialised -/
def booted (time : ℕ) (gold jewel : ℤ) (shopOpen : Std.TreeMap ℤ Bool) : Holder :=
  { world := { clock := time, rechargeGoldRatting := gold, rechargeJewelRatting := jewel, shopOpen := shopOpen,
               lastDayPass := time } }

variable (cfg) (time : ℕ) (gold jewel : ℤ) (shopOpen : Std.TreeMap ℤ Bool)

theorem sound_booted :
    Sound cfg gold jewel (booted time gold jewel shopOpen) ∧ Fresh 0 (booted time gold jewel shopOpen) := by
  have hnone : ∀ i k ev, ¬Pending (booted time gold jewel shopOpen) i k ev := by
    intro i k ev hev
    simp [Pending, booted] at hev
  have htotal (f : ℕ → ℤ) : total cfg (booted time gold jewel shopOpen).world f = 0 := by simp [total, booted]
  refine ⟨⟨⟨?_, ?_⟩, ⟨?_, rfl, ?_, rfl⟩, ?_⟩, fun _ _ => rfl, fun i _ => hnone i⟩
  · intro i k ev hev
    exact absurd hev (hnone i k ev)
  · intro i j k ev ev' hev _
    exact absurd hev (hnone i j ev)
  · intro grid
    rw [htotal]
    exact Std.TreeMap.getD_emptyc
  · rw [htotal, add_zero]
    rfl
  · intro i hi
    cases hi

/-- after some of the promotions have been initialised -/
theorem sound_starting (n : ℕ) (hn : n ≤ cfg.size) :
    Sound cfg gold jewel ((List.range n).foldl (initOne cfg) (booted time gold jewel shopOpen)) ∧
      Fresh n ((List.range n).foldl (initOne cfg) (booted time gold jewel shopOpen)) := by
  induction n with
  | zero => exact sound_booted cfg time gold jewel shopOpen
  | succ n ih =>
    obtain ⟨hs, hf⟩ := ih (by omega)
    rw [List.range_succ, List.foldl_append]
    exact sound_initOne hs hf (by omega)

theorem sound_start : Sound cfg gold jewel (start cfg time gold jewel shopOpen) :=
  (sound_starting cfg time gold jewel shopOpen cfg.size le_rfl).1

theorem sound_reached (ops : List Op) :
    Sound cfg gold jewel (run (step cfg) (start cfg time gold jewel shopOpen) ops) :=
  inv_run_all (I := Sound cfg gold jewel) (fun _ op hs => sound_step hs op) ops
    (sound_start cfg time gold jewel shopOpen)

end DreamHeroes.Promotion

/-
The promotions of `Time_Normal`, whose times are absolute.

- `hasNextAt`: whether the round comes to a timer that is armed at a place, from the state before the round.
  `Coming`, `coming_visit`: the places that a round has not come to yet are as they were before it.
- `Fires`: what becomes of a timer in a round. A timer that is due may arm another one, which the same round comes to,
  and compares with the same time.
- `Round`, `round_visit`: the promotion while the loop runs. `tick_fires`: what a round does to a promotion that waits.
- `Punctual`: what a round has to find for the promotion to come out right. A delay is multiplied by 1000 and cut to 32
  bits (`armed`), so a timer is due too early when the delay is of 2^32 milliseconds or more; and a timer that the round
  that arms it comes to is early by the time of the round. `fires_iff`: it is exactly this.
- `absolute_time_iff`: the run is right all the way exactly when every round is punctual.
-/
import Mathlib.Tactic
import DreamHeroes.Promotion.Steps

namespace DreamHeroes.Promotion

open DreamHeroes.Lib DreamHeroes.Common

variable {cfg : Config} {i : ℕ} {gold jewel : ℤ} {s : Holder}

/-! ## The places of a round -/

/-- the callback of the event is executed in a round of `d` milliseconds that ends at `now`, and arms a timer -/
def arms (cfg : Config) (d : ℕ) (now : ℤ) (ev : TimedEvent Callback) : Bool :=
  !ev.deleted && !ev.erased && decide (ev.currTime ≤ d) &&
  (executeOutcome cfg ev.cb.promotion ev.cb.kind now).timer.isSome

/-- the iterator behind the place `k` will not be at the end when the round has come to it -/
def hasNextAt (cfg : Config) (d : ℕ) (now : ℤ) (behind : List ℕ) (s : Holder) (k : ℕ) : Bool :=
  hasNext behind s k || (s.events.take k).any (arms cfg d now)

theorem modify_append_of_lt {α : Type*} (f : α → α) {l : List α} {k : ℕ} (hk : k < l.length) (l' : List α) :
    (l ++ l').modify k f = l.modify k f ++ l' := by
  induction l generalizing k with
  | nil => cases hk
  | cons a l ih =>
    cases k with
    | zero => rfl
    | succ k =>
      have hrest := ih (Nat.lt_of_succ_lt_succ hk)
      rw [List.cons_append, List.modify_succ_cons, hrest, List.modify_succ_cons, List.cons_append]

/-- the list after a visit: the old entries, of which only the visited one may have been erased, and what was armed -/
theorem visit_events (ht : Timers cfg s) {d m : ℕ} (hm : m < s.events.length) :
    ∃ old new, (visit (execute cfg) d s m).events = old ++ new ∧ old.length = s.events.length ∧
      (∀ j, j ≠ m → old[j]?.map TimedEvent.erased = s.events[j]?.map TimedEvent.erased) ∧
      (∀ ev ∈ new, ev.erased = false) ∧ (new ≠ [] ↔ arms cfg d (serverTime s.world) s.events[m] = true) := by
  have hget : s.events[m]? = some s.events[m] := List.getElem?_eq_getElem hm
  have hmodify : ∀ (l : List (TimedEvent Callback)) (f : TimedEvent Callback → TimedEvent Callback) (j : ℕ), j ≠ m →
      (l.modify m f)[j]?.map TimedEvent.erased = l[j]?.map TimedEvent.erased := by
    intro l f j hj
    rw [List.getElem?_modify_ne _ _ (Ne.symm hj)]
  by_cases hlive : s.events[m].deleted = false ∧ s.events[m].erased = false
  · have hev : Pending s s.events[m].cb.promotion m s.events[m] := ⟨hget, hlive.1, hlive.2, rfl⟩
    rw [visit_pending hev]
    split_ifs with hdue
    · have hmoved := execute_moved_pending ht hev
      obtain ⟨f, hf, hevents⟩ := hmoved.events
      refine ⟨(s.events.map f).modify m TimedEvent.rearm,
        (executeOutcome cfg s.events[m].cb.promotion s.events[m].cb.kind (serverTime s.world)).timer.toList.map
          (newEvent s.events[m].cb.promotion), ?_, by simp, ?_, ?_, ?_⟩
      · dsimp only
        rw [hevents, modify_append_of_lt _ (by simpa using hm)]
      · intro j hj
        rw [hmodify _ _ j hj, List.getElem?_map, Option.map_map]
        congr 1
        funext ev
        rcases hf ev with h | ⟨-, h⟩ <;> simp [h]
      · intro ev hmem
        obtain ⟨timer, -, rfl⟩ := List.mem_map.1 hmem
        rfl
      · unfold arms
        cases (executeOutcome cfg s.events[m].cb.promotion s.events[m].cb.kind (serverTime s.world)).timer <;>
          simp [hlive, hdue]
    · refine ⟨_, [], (List.append_nil _).symm, List.length_modify _ _ _, hmodify _ _, by simp, ?_⟩
      simp [arms, hdue]
  · have hdead : arms cfg d (serverTime s.world) s.events[m] = false := by
      unfold arms
      cases hdel : s.events[m].deleted <;> cases her : s.events[m].erased <;> simp_all
    rw [visit, hget]
    dsimp only
    split_ifs with herased hdel
    · exact ⟨s.events, [], (List.append_nil _).symm, rfl, fun _ _ => rfl, by simp, by simp [hdead]⟩
    · exact ⟨_, [], (List.append_nil _).symm, List.length_modify _ _ _, hmodify _ _, by simp, by simp [hdead]⟩
    all_goals exact absurd ⟨by simpa using hdel, by simpa using herased⟩ hlive

/-- the places of `s0` that a round has not come to at the place `m` are as they were, and more entries have been added
exactly if one of the places before has armed a timer -/
structure Coming (cfg : Config) (d : ℕ) (s0 : Holder) (m : ℕ) (s : Holder) : Prop where
  clock : s.world.clock = s0.world.clock
  pending : ∀ i j ev, m ≤ j → j < s0.events.length → (Pending s i j ev ↔ Pending s0 i j ev)
  erased : ∀ j, m ≤ j → j < s0.events.length →
    s.events[j]?.map TimedEvent.erased = s0.events[j]?.map TimedEvent.erased
  length : s0.events.length ≤ s.events.length
  grown : s0.events.length < s.events.length ↔
    (s0.events.take m).any (arms cfg d (serverTime s0.world)) = true
  new : ∀ j ev, s0.events.length ≤ j → s.events[j]? = some ev → ev.erased = false

theorem coming_start (s0 : Holder) (d : ℕ) : Coming cfg d s0 0 s0 := by
  refine ⟨rfl, fun _ _ _ _ _ => Iff.rfl, fun _ _ _ => rfl, le_rfl, by simp, ?_⟩
  intro j ev hj hev
  have hlt := (List.getElem?_eq_some_iff.1 hev).1
  omega

/-- a place that has nothing pending arms nothing -/
theorem arms_pending {d : ℕ} {now : ℤ} {m : ℕ} (hm : m < s.events.length) (h : arms cfg d now s.events[m] = true) :
    Pending s s.events[m].cb.promotion m s.events[m] := by
  unfold arms at h
  simp only [Bool.and_eq_true, Bool.not_eq_true', decide_eq_true_eq] at h
  exact ⟨List.getElem?_eq_getElem hm, h.1.1.1, h.1.1.2, rfl⟩

theorem coming_visit {d m : ℕ} {s0 : Holder} (hs : Sound cfg gold jewel s) (h : Coming cfg d s0 m s)
    (hm : m < s0.events.length) : Coming cfg d s0 (m + 1) (visit (execute cfg) d s m) := by
  have hm' : m < s.events.length := hm.trans_le h.length
  obtain ⟨old, new, hevents, hold, herased, hnew, harms⟩ := visit_events (d := d) hs.timers hm'
  have hget : ∀ j, j < s.events.length → (visit (execute cfg) d s m).events[j]? = old[j]? := by
    intro j hj
    rw [hevents, List.getElem?_append_left (by omega)]
  have hlen : (visit (execute cfg) d s m).events.length = s.events.length + new.length := by
    rw [hevents, List.length_append, hold]
  -- the visited entry is as it was before the round
  have hentry : arms cfg d (serverTime s.world) s.events[m] = arms cfg d (serverTime s0.world) s0.events[m] := by
    have hnow : serverTime s.world = serverTime s0.world := by rw [serverTime, h.clock, serverTime]
    rw [hnow, Bool.eq_iff_iff]
    constructor
    · intro harmed
      have hplace := ((h.pending _ m _ le_rfl hm).1 (arms_pending hm' harmed)).place
      rw [List.getElem?_eq_getElem hm, Option.some_inj] at hplace
      rwa [hplace]
    · intro harmed
      have hplace := ((h.pending _ m _ le_rfl hm).2 (arms_pending hm harmed)).place
      rw [List.getElem?_eq_getElem hm', Option.some_inj] at hplace
      rwa [hplace]
  refine ⟨(visit_frame hs.timers d m).1.trans h.clock, ?_, ?_, by
    rw [hlen]; exact Nat.le_add_right_of_le h.length, ?_, ?_⟩
  · intro i j ev hj hj0
    rw [← h.pending i j ev (by omega) hj0]
    by_cases hown : ∃ ev', Pending s i m ev'
    · -- the visited entry is the one timer of the promotion
      obtain ⟨ev', hev'⟩ := hown
      constructor
      · intro hev
        exfalso
        by_cases hdue : ev'.currTime ≤ d
        · obtain ⟨-, hpending⟩ := (pending_visit_due hs.timers hev' hdue).1 hev
          rcases (execute_moved_pending hs.timers hev').pending hpending with hsame | ⟨-, hlast, -⟩
          · exact absurd (hs.timers.single i j m ev ev' hsame hev') (by omega)
          · have hle := h.length
            omega
        · rw [pending_visit_later hev' hdue, if_neg (by omega)] at hev
          exact absurd (hs.timers.single i j m ev ev' hev hev') (by omega)
      · intro hev
        exact absurd (hs.timers.single i j m ev ev' hev hev') (by omega)
    · have hu := visit_other (d := d) hs.timers fun ev' hev' => hown ⟨ev', hev'⟩
      exact hu.pending j ev
  · intro j hj hj0
    rw [hget j (hj0.trans_le h.length), herased j (by omega)]
    exact h.erased j (by omega) hj0
  · rw [hlen, List.take_add_one, List.any_append, Bool.or_eq_true, ← h.grown, List.getElem?_eq_getElem hm]
    have hone : (some s0.events[m]).toList.any (arms cfg d (serverTime s0.world)) = true ↔ 0 < new.length := by
      rw [Option.toList_some, List.any_cons, List.any_nil, Bool.or_false, ← hentry, ← harms, List.length_pos_iff]
    rw [hone]
    have hle := h.length
    omega
  · intro j ev hj hev
    rw [hevents] at hev
    by_cases hlt : j < s.events.length
    · rw [List.getElem?_append_left (by omega)] at hev
      have hsame := herased j (by omega)
      rw [hev, List.getElem?_eq_getElem hlt] at hsame
      have hfresh := h.new j _ hj (List.getElem?_eq_getElem hlt)
      rw [← hfresh]
      exact Option.some_injective _ hsame
    · rw [List.getElem?_append_right (by omega)] at hev
      exact hnew ev (List.mem_of_getElem? hev)

/-- when the round has come to a place, the iterator behind it is as predicted -/
theorem hasNext_coming {d k : ℕ} {behind : List ℕ} {s0 : Holder} (h : Coming cfg d s0 k s) (hk : k < s0.events.length) :
    hasNext behind s k = hasNextAt cfg d (serverTime s0.world) behind s0 k := by
  rw [Bool.eq_iff_iff, hasNextAt, Bool.or_eq_true, ← h.grown, hasNext_eq_true_iff, hasNext_eq_true_iff]
  constructor
  · rintro (hmem | ⟨j, ev, hj, hev, herased⟩)
    · exact .inl (.inl hmem)
    · by_cases hlt : j < s0.events.length
      · have hsame := h.erased j hj.le hlt
        rw [hev, List.getElem?_eq_getElem hlt] at hsame
        exact .inl (.inr ⟨j, _, hj, List.getElem?_eq_getElem hlt, (Option.some_injective _ hsame).symm.trans herased⟩)
      · have hlen := (List.getElem?_eq_some_iff.1 hev).1
        exact .inr (by omega)
  · rintro ((hmem | ⟨j, ev, hj, hev, herased⟩) | hgrown)
    · exact .inl hmem
    · have hlt := (List.getElem?_eq_some_iff.1 hev).1
      have hlt' : j < s.events.length := hlt.trans_le h.length
      have hsame := h.erased j hj.le hlt
      rw [hev, List.getElem?_eq_getElem hlt'] at hsame
      exact .inr ⟨j, _, hj, List.getElem?_eq_getElem hlt', (Option.some_injective _ hsame).trans herased⟩
    · exact .inr ⟨s0.events.length, _, hk, List.getElem?_eq_getElem hgrown,
        h.new _ _ le_rfl (List.getElem?_eq_getElem hgrown)⟩

/-! ## A round -/

/-- a timer in a round of `d` milliseconds that ends at `now`: the state it leaves the promotion in, and whether
`excute` has been called; `next` says whether the round comes to what it arms -/
inductive Fires (cfg : Config) (i d : ℕ) (now : ℤ) : Bool → CallbackKind → ℕ → ShopSalesPromotionType →
    Bool → Prop where
  | later {next : Bool} {kind : CallbackKind} {currTime : ℕ} (h : ¬currTime ≤ d) :
      Fires cfg i d now next kind currTime kind.stage false
  | last {next : Bool} {kind : CallbackKind} {currTime : ℕ} (h : currTime ≤ d)
      (hlast : (executeOutcome cfg i kind now).timer = none) :
      Fires cfg i d now next kind currTime (executeOutcome cfg i kind now).type (executeOutcome cfg i kind now).excuted
  | left {kind : CallbackKind} {currTime : ℕ} {timer : CallbackKind × ℕ} (h : currTime ≤ d)
      (hleft : (executeOutcome cfg i kind now).timer = some timer) :
      Fires cfg i d now false kind currTime (executeOutcome cfg i kind now).type (executeOutcome cfg i kind now).excuted
  | next {more : Bool} {kind : CallbackKind} {currTime : ℕ} {timer : CallbackKind × ℕ} {type : ShopSalesPromotionType}
      {excuted : Bool} (h : currTime ≤ d) (hnext : (executeOutcome cfg i kind now).timer = some timer)
      (hrest : Fires cfg i d now more timer.1 timer.2 type excuted) :
      Fires cfg i d now true kind currTime type ((executeOutcome cfg i kind now).excuted || excuted)

/-- the promotion waits for a timer, or is over -/
def Waiting (i : ℕ) (s : Holder) : Prop := s.world.type i = .destroy ∨ ∃ k ev, Pending s i k ev

theorem excuteOutcome_normal (htime : (cfg.config i).time.type = .normal) (now : ℤ) :
    excuteOutcome cfg i now =
      if now < (cfg.config i).time.endTime then
        { type := .excute, timer := some (.exit, armed ((cfg.config i).time.endTime - now)), excuted := true }
      else { type := .destroy, excuted := true } := by
  unfold excuteOutcome
  rw [htime]

theorem applyOutcome_normal (htime : (cfg.config i).time.type = .normal) (now : ℤ) :
    applyOutcome cfg i now =
      if (cfg.config i).time.beginTime ≤ now then excuteOutcome cfg i now
      else { type := .apply, timer := some (.excute, armed ((cfg.config i).time.beginTime - now)) } := by
  unfold applyOutcome
  rw [htime]

/-- a promotion of `Time_Normal` that arms no timer is over -/
theorem executeOutcome_over (htime : (cfg.config i).time.type = .normal) {kind : CallbackKind} {now : ℤ}
    (h : (executeOutcome cfg i kind now).timer = none) : (executeOutcome cfg i kind now).type = .destroy := by
  cases kind with
  | apply =>
    rw [executeOutcome, applyOutcome_normal htime, excuteOutcome_normal htime] at h ⊢
    split_ifs at h ⊢
    rfl
  | excute =>
    rw [executeOutcome, excuteOutcome_normal htime] at h ⊢
    split_ifs at h ⊢
    rfl
  | exit => rfl

/-- the log of the promotion has grown by what the callback does, if it calls `excute` -/
def Logged (i : ℕ) (s s' : Holder) (excuted : Bool) : Prop :=
  ∀ t, (i, t) ∈ s'.world.excuted ↔ (i, t) ∈ s.world.excuted ∨ (excuted = true ∧ t = s.world.clock)

/-- what a visit to its own timer does to the promotion -/
theorem visit_own (hs : Sound cfg gold jewel s) {d k : ℕ} {ev : TimedEvent Callback} (hev : Pending s i k ev)
    {now : ℤ} (hnow : serverTime s.world = now) :
    (¬ev.currTime ≤ d ∧ (visit (execute cfg) d s k).world.type i = ev.cb.kind.stage ∧
        Logged i s (visit (execute cfg) d s k) false ∧ (∃ ev', Pending (visit (execute cfg) d s k) i k ev') ∧
        ∀ j ev', Pending (visit (execute cfg) d s k) i j ev' → j = k) ∨
      (ev.currTime ≤ d ∧
        (visit (execute cfg) d s k).world.type i = (executeOutcome cfg i ev.cb.kind now).type ∧
        Logged i s (visit (execute cfg) d s k) (executeOutcome cfg i ev.cb.kind now).excuted ∧
        (((executeOutcome cfg i ev.cb.kind now).timer = none ∧
            ∀ j ev', ¬Pending (visit (execute cfg) d s k) i j ev') ∨
          ∃ timer, (executeOutcome cfg i ev.cb.kind now).timer = some timer ∧
            Pending (visit (execute cfg) d s k) i s.events.length (newEvent i timer))) := by
  subst hnow
  by_cases hdue : ev.currTime ≤ d
  · right
    have hmoved := execute_moved_pending hs.timers hev
    have hworld : (visit (execute cfg) d s k).world = (execute cfg ev.cb s).world := by
      rw [visit_world hev, if_pos hdue]
    refine ⟨hdue, by rw [hworld, hmoved.type_self], ?_, ?_⟩
    · intro t
      rw [hworld, hmoved.excuted, List.mem_append]
      cases (executeOutcome cfg i ev.cb.kind (serverTime s.world)).excuted <;> simp
    · cases htimer : (executeOutcome cfg i ev.cb.kind (serverTime s.world)).timer with
      | none =>
        refine .inl ⟨rfl, ?_⟩
        intro j ev' hev'
        obtain ⟨hne, hpending⟩ := (pending_visit_due hs.timers hev hdue).1 hev'
        rcases hmoved.pending hpending with hold | ⟨-, -, timer, hnone, -⟩
        · exact hne (hs.timers.single i j k ev' ev hold hev)
        · rw [htimer] at hnone
          cases hnone
      | some timer =>
        have hlt : k < s.events.length := (List.getElem?_eq_some_iff.1 hev.place).1
        exact .inr ⟨timer, rfl, (pending_visit_due hs.timers hev hdue).2 ⟨by omega, hmoved.pending_new htimer⟩⟩
  · left
    have hworld : (visit (execute cfg) d s k).world = s.world := by rw [visit_world hev, if_neg hdue]
    refine ⟨hdue, by rw [hworld]; exact (hs.timers.owned i k ev hev).waits, ?_, ?_, ?_⟩
    · intro t
      rw [hworld]
      simp
    · exact ⟨_, (pending_visit_later hev hdue).2 (by rw [if_pos rfl]; exact ⟨rfl, rfl⟩)⟩
    · intro j ev' hev'
      rw [pending_visit_later hev hdue] at hev'
      split_ifs at hev' with hj
      · exact hj
      · exact hs.timers.single i j k ev' ev hev' hev

/-- the promotion after a round that began with the timer `kind`, `currTime` -/
structure Decided (cfg : Config) (i d : ℕ) (s0 : Holder) (next : Bool) (kind : CallbackKind) (currTime : ℕ)
    (s : Holder) :
    Prop where
  fires : ∃ excuted, Fires cfg i d (serverTime s0.world) next kind currTime (s.world.type i) excuted ∧
  Logged i s0 s excuted
  waiting : Waiting i s

/-- the promotion when the loop has come to the place `m`: its timer is still to come; or one is still to come that the
first one has armed, and that will decide what becomes of it; or it has been decided -/
inductive Round (cfg : Config) (i d : ℕ) (behind : List ℕ) (s0 : Holder) (k : ℕ) (ev : TimedEvent Callback) (m : ℕ)
    (s : Holder) : Prop where
  | first (hm : m ≤ k) (hk : k < s0.events.length) (hcoming : Coming cfg d s0 m s) (hev : Pending s i k ev)
      (hlog : Logged i s0 s false)
  | chain (k' : ℕ) (ev' : TimedEvent Callback) (excuted : Bool) (hm : m ≤ k') (hclock : s.world.clock = s0.world.clock)
      (hev : Pending s i k' ev') (hlog : Logged i s0 s excuted)
      (hdecides : ∀ next type excuted',
        Fires cfg i d (serverTime s0.world) next ev'.cb.kind ev'.currTime type excuted' →
        Fires cfg i d (serverTime s0.world)
          (hasNextAt cfg d (serverTime s0.world) behind s0 k) ev.cb.kind ev.currTime type
          (excuted || excuted'))
  | decided (hpast : ∀ j ev', Pending s i j ev' → j < m)
      (hdecided : Decided cfg i d s0 (hasNextAt cfg d (serverTime s0.world) behind s0 k) ev.cb.kind ev.currTime s)

theorem Logged.trans {s0 s s' : Holder} {excuted excuted' : Bool} (h : Logged i s0 s excuted)
    (h' : Logged i s s' excuted') (hclock : s.world.clock = s0.world.clock) : Logged i s0 s' (excuted || excuted') := by
  intro t
  rw [h' t, h t, hclock]
  cases excuted <;> cases excuted' <;> simp

section Loop

variable {d k m : ℕ} {behind : List ℕ} {s0 : Holder} {ev : TimedEvent Callback}

/-- the loop at a timer of the promotion, which decides what becomes of the first one -/
theorem round_own (hs : Sound cfg gold jewel s) {ev' : TimedEvent Callback} (hev : Pending s i m ev')
    {excuted : Bool} (hclock : s.world.clock = s0.world.clock) (hlog : Logged i s0 s excuted)
    (hdecides : ∀ type excuted', Fires cfg i d (serverTime s0.world) (hasNext behind s m) ev'.cb.kind ev'.currTime type
      excuted' → Fires cfg i d (serverTime s0.world) (hasNextAt cfg d (serverTime s0.world) behind s0 k) ev.cb.kind
        ev.currTime type (excuted || excuted')) :
    (hasNext behind s m = true → Round cfg i d behind s0 k ev (m + 1) (visit (execute cfg) d s m)) ∧
      (hasNext behind s m = false → Decided cfg i d s0 (hasNextAt cfg d (serverTime s0.world) behind s0 k) ev.cb.kind
        ev.currTime (visit (execute cfg) d s m)) := by
  have hnow : serverTime s.world = serverTime s0.world := by rw [serverTime, hclock, serverTime]
  have hlt : m < s.events.length := (List.getElem?_eq_some_iff.1 hev.place).1
  have hclock' := (visit_frame hs.timers d m).1.trans hclock
  have hnormal := (hs.timers.owned i m ev' hev).normal
  rcases visit_own hs hev (d := d) hnow with ⟨hdue, htype, hlog', ⟨rest, hrest⟩, honly⟩ | ⟨hdue, htype, hlog', hnext⟩
  · have hdecided : Decided cfg i d s0 (hasNextAt cfg d (serverTime s0.world) behind s0 k) ev.cb.kind ev.currTime
        (visit (execute cfg) d s m) := by
      refine ⟨⟨_, ?_, hlog.trans hlog' hclock⟩, .inr ⟨m, rest, hrest⟩⟩
      rw [htype]
      exact hdecides _ _ (.later hdue)
    refine ⟨fun _ => .decided ?_ hdecided, fun _ => hdecided⟩
    intro j ev'' hev''
    rw [honly j ev'' hev'']
    exact Nat.lt_succ_self m
  · rcases hnext with ⟨htimer, hnone⟩ | ⟨timer, htimer, hnew⟩
    · have hdecided : Decided cfg i d s0 (hasNextAt cfg d (serverTime s0.world) behind s0 k) ev.cb.kind ev.currTime
          (visit (execute cfg) d s m) := by
        refine ⟨⟨_, ?_, hlog.trans hlog' hclock⟩, .inl (htype.trans (executeOutcome_over hnormal htimer))⟩
        rw [htype]
        exact hdecides _ _ (.last hdue htimer)
      exact ⟨fun _ => .decided (fun j ev'' hev'' => absurd hev'' (hnone j ev'')) hdecided, fun _ => hdecided⟩
    · refine ⟨?_, ?_⟩
      · intro hmore
        rw [hmore] at hdecides
        refine .chain _ _ _ hlt hclock' hnew (hlog.trans hlog' hclock) ?_
        intro next type excuted' hfires
        rw [Bool.or_assoc]
        exact hdecides _ _ (.next hdue htimer hfires)
      · intro hend
        rw [hend] at hdecides
        refine ⟨⟨_, ?_, hlog.trans hlog' hclock⟩, .inr ⟨_, _, hnew⟩⟩
        rw [htype]
        exact hdecides _ _ (.left hdue htimer)

/-- the loop at the entry of another promotion -/
theorem round_other (hs : Sound cfg gold jewel s) (hown : ∀ ev', ¬Pending s i m ev')
    (h : Round cfg i d behind s0 k ev m s) : Round cfg i d behind s0 k ev (m + 1) (visit (execute cfg) d s m) := by
  have hu := visit_other (d := d) hs.timers hown
  have hlogs : ∀ excuted, Logged i s0 s excuted → Logged i s0 (visit (execute cfg) d s m) excuted :=
    fun excuted hlog t => (hu.excuted t).trans (hlog t)
  have hpast : ∀ j ev', m ≤ j → Pending s i j ev' → m + 1 ≤ j := by
    intro j ev' hm hev'
    rcases hm.eq_or_lt with rfl | hlt
    · exact absurd hev' (hown ev')
    · exact hlt
  cases h with
  | first hm hk hcoming hev hlog =>
    have hlt : m < k := hpast k ev hm hev
    exact .first hlt hk (coming_visit hs hcoming (hlt.trans hk)) ((hu.pending k ev).2 hev) (hlogs _ hlog)
  | chain k' ev' excuted hm hclock hev hlog hdecides =>
    exact .chain k' ev' excuted (hpast k' ev' hm hev) ((visit_frame hs.timers d m).1.trans hclock)
      ((hu.pending k' ev').2 hev)
      (hlogs _ hlog) hdecides
  | decided hall hdecided =>
    obtain ⟨⟨excuted, hfires, hlog⟩, hwaiting⟩ := hdecided
    refine .decided ?_ ⟨⟨excuted, by rwa [hu.type], hlogs _ hlog⟩, hwaiting.imp (fun h => hu.type.trans h) ?_⟩
    · intro j ev' hev'
      exact (hall j ev' ((hu.pending j ev').1 hev')).trans (Nat.lt_succ_self m)
    · rintro ⟨j, ev', hev'⟩
      exact ⟨j, ev', (hu.pending j ev').2 hev'⟩

/-- the loop at any entry -/
theorem round_visit (hs : Sound cfg gold jewel s) (h : Round cfg i d behind s0 k ev m s) :
    (hasNext behind s m = true → Round cfg i d behind s0 k ev (m + 1) (visit (execute cfg) d s m)) ∧
      (hasNext behind s m = false → Decided cfg i d s0 (hasNextAt cfg d (serverTime s0.world) behind s0 k) ev.cb.kind
        ev.currTime (visit (execute cfg) d s m)) := by
  by_cases hown : ∃ ev', Pending s i m ev'
  · obtain ⟨ev', hev'⟩ := hown
    cases h with
    | first hm hk hcoming hev hlog =>
      obtain rfl : k = m := hs.timers.single i k m ev ev' hev hev'
      obtain rfl : ev = ev' := Option.some_injective _ (hev.place.symm.trans hev'.place)
      apply round_own hs hev hcoming.clock hlog
      rw [hasNext_coming hcoming hk]
      intro type excuted' hfires
      rwa [Bool.false_or]
    | chain k' ev'' excuted hm hclock hev hlog hdecides =>
      obtain rfl : k' = m := hs.timers.single i k' m ev'' ev' hev hev'
      obtain rfl : ev'' = ev' := Option.some_injective _ (hev.place.symm.trans hev'.place)
      exact round_own hs hev hclock hlog fun type excuted' => hdecides _ type excuted'
    | decided hall hdecided => exact absurd (hall m ev' hev') (lt_irrefl m)
  · have hother := round_other hs (fun ev' hev' => hown ⟨ev', hev'⟩) h
    refine ⟨fun _ => hother, ?_⟩
    intro hend
    -- a timer that is still to come stands behind the entry
    have hnext : ∀ j ev', m ≤ j → Pending s i j ev' → False := by
      intro j ev' hm hev'
      have hlt : m < j := hm.lt_of_ne (by rintro rfl; exact hown ⟨ev', hev'⟩)
      rw [hasNext_eq_true_iff.2 (.inr ⟨j, ev', hlt, hev'.place, hev'.present⟩)] at hend
      cases hend
    cases h with
    | first hm hk hcoming hev hlog => exact (hnext k ev hm hev).elim
    | chain k' ev' excuted hm hclock hev hlog hdecides => exact (hnext k' ev' hm hev).elim
    | decided hall hdecided =>
      cases hother with
      | first hm hk hcoming hev hlog =>
        exact absurd
          (hall k ev (((visit_other (d := d) hs.timers fun ev' hev' => hown ⟨ev', hev'⟩).pending k ev).1 hev))
          (by omega)
      | chain k' ev' excuted hm hclock hev hlog hdecides =>
        exact absurd
          (hall k' ev' (((visit_other (d := d) hs.timers fun ev' hev' => hown ⟨ev', hev'⟩).pending k' ev').1 hev))
          (by omega)
      | decided hall' hdecided' => exact hdecided'

end Loop

/-- **A round**, for a promotion that waits for a timer. -/
theorem tick_fires (hs : Sound cfg gold jewel s) {k : ℕ} {ev : TimedEvent Callback} (hev : Pending s i k ev)
    {timeSpawn : ℕ} (hspawn : timeSpawn ≠ 0) (behind : List ℕ) :
    Decided cfg i (timeSpawn % 2 ^ 32) (advance s timeSpawn)
      (hasNextAt cfg (timeSpawn % 2 ^ 32) ((s.world.clock + timeSpawn) / 1000 : ℕ) behind s k) ev.cb.kind ev.currTime
      (tick cfg s timeSpawn behind) := by
  have hlt : k < s.events.length := (List.getElem?_eq_some_iff.1 hev.place).1
  apply tick_rule hs hspawn
    (I := fun m s' => Round cfg i (timeSpawn % 2 ^ 32) behind (advance s timeSpawn) k ev m s')
  · refine .first (Nat.zero_le k) hlt (coming_start _ _) hev ?_
    intro t
    simp
  · intro s' m hm hs' h
    have hplace : ∀ j ev', m ≤ j → Pending s' i j ev' → False := by
      intro j ev' hj hev'
      have hlt := (List.getElem?_eq_some_iff.1 hev'.place).1
      omega
    cases h with
    | first hk _ _ hev _ => exact (hplace k ev hk hev).elim
    | chain k' ev' _ hk _ hev _ _ => exact (hplace k' ev' hk hev).elim
    | decided _ hdecided => exact hdecided
  · intro s' m _ hmore hs' h
    exact (round_visit hs' h).1 hmore
  · intro s' m _ hend hs' h
    exact (round_visit hs' h).2 hend

/-! ## Punctual rounds -/

/-- the state after a round in which `excute` has been called; `next` says whether the round comes to the timer of
`exit` -/
def begun (cfg : Config) (i d : ℕ) (now : ℤ) (next : Bool) : ShopSalesPromotionType :=
  if now < (cfg.config i).time.endTime ∧ (next = true → d < armed ((cfg.config i).time.endTime - now)) then .excute
  else .destroy

variable {d : ℕ} {now : ℤ} {next : Bool} {currTime : ℕ} {type : ShopSalesPromotionType} {excuted : Bool}

theorem fires_exit (h : Fires cfg i d now next .exit currTime type excuted) :
    excuted = false ∧ type = if currTime ≤ d then .destroy else .excute := by
  cases h with
  | later h => rw [if_neg h]; exact ⟨rfl, rfl⟩
  | last h => rw [if_pos h]; exact ⟨rfl, rfl⟩
  | left h hleft => cases hleft
  | next h hnext => cases hnext

theorem fires_excute (htime : (cfg.config i).time.type = .normal)
    (h : Fires cfg i d now next .excute currTime type excuted) :
    if currTime ≤ d then excuted = true ∧ type = begun cfg i d now next else excuted = false ∧ type = .apply := by
  unfold begun
  cases h with
  | later h =>
    rw [if_neg h]
    exact ⟨rfl, rfl⟩
  | last h hlast =>
    rw [if_pos h]
    rw [executeOutcome, excuteOutcome_normal htime] at hlast ⊢
    split_ifs at hlast ⊢ with hend hwindow
    · exact absurd hwindow.1 hend
    · exact ⟨rfl, rfl⟩
  | left h hleft =>
    rw [if_pos h]
    rw [executeOutcome, excuteOutcome_normal htime] at hleft ⊢
    split_ifs at hleft ⊢ with hend hwindow
    · exact ⟨rfl, rfl⟩
    · exact absurd ⟨hend, fun hfalse => (by cases hfalse)⟩ hwindow
  | @next _ _ _ timer _ excuted' h hnext hrest =>
    rw [if_pos h]
    rw [executeOutcome, excuteOutcome_normal htime] at hnext ⊢
    split_ifs at hnext ⊢ with hend hwindow
    · cases hnext
      refine ⟨rfl, ?_⟩
      rw [(fires_exit hrest).2, if_neg (hwindow.2 rfl).not_ge]
    · cases hnext
      refine ⟨rfl, ?_⟩
      rw [(fires_exit hrest).2, if_pos (Nat.le_of_not_lt fun hlt => hwindow ⟨hend, fun _ => hlt⟩)]

theorem fires_apply (htime : (cfg.config i).time.type = .normal)
    (h : Fires cfg i d now next .apply currTime type excuted) :
    if currTime ≤ d then
      if (cfg.config i).time.beginTime ≤ now then excuted = true ∧ type = begun cfg i d now next
      else if next = true ∧ armed ((cfg.config i).time.beginTime - now) ≤ d then excuted = true
      else excuted = false ∧ type = .apply
    else excuted = false ∧ type = .wait := by
  cases h with
  | later h =>
    rw [if_neg h]
    exact ⟨rfl, rfl⟩
  | last h hlast =>
    rw [if_pos h]
    rw [executeOutcome, applyOutcome_normal htime] at hlast ⊢
    split_ifs at hlast ⊢
    have hfires : Fires cfg i d now next .excute 0 _ _ := .last (Nat.zero_le d) hlast
    have hexcute := fires_excute htime hfires
    rwa [if_pos (Nat.zero_le d)] at hexcute
  | left h hleft =>
    rw [if_pos h]
    rw [executeOutcome, applyOutcome_normal htime] at hleft ⊢
    split_ifs at hleft ⊢ with hbegin hdue
    · have hfires : Fires cfg i d now false .excute 0 _ _ := .left (Nat.zero_le d) hleft
      have hexcute := fires_excute htime hfires
      rwa [if_pos (Nat.zero_le d)] at hexcute
    · exact hdue.1.elim
    · exact ⟨rfl, rfl⟩
  | @next _ _ _ timer _ excuted' h hnext hrest =>
    rw [if_pos h]
    rw [executeOutcome, applyOutcome_normal htime] at hnext ⊢
    split_ifs at hnext ⊢ with hbegin hdue
    · have hfires : Fires cfg i d now true .excute 0 _ _ := .next (Nat.zero_le d) hnext hrest
      have hexcute := fires_excute htime hfires
      rwa [if_pos (Nat.zero_le d)] at hexcute
    · cases hnext
      have hexcute := fires_excute htime hrest
      rw [if_pos hdue.2] at hexcute
      exact hexcute.1
    · cases hnext
      have hexcute := fires_excute htime hrest
      rwa [if_neg fun hle => hdue ⟨rfl, hle⟩] at hexcute

/-- the timer that ends the window is not due in the round that arms it -/
def Lasts (time : EventTimeBase) (d : ℕ) (now : ℤ) (next : Bool) : Prop :=
  now < time.endTime → next = true → d < armed (time.endTime - now)

/-- what a round of `d` milliseconds that ends at `now` has to find: the timer of the promotion, what is left of it, and
whether the round comes to what it arms -/
def Punctual (time : EventTimeBase) (d : ℕ) (now : ℤ) (next : Bool) : CallbackKind → ℕ → Prop
  | .apply, currTime =>
    if currTime ≤ d then
      if time.beginTime ≤ now then Lasts time d now next else next = true → d < armed (time.beginTime - now)
    else ¬(time.beginTime ≤ now ∧ now < time.endTime)
  | .excute, currTime =>
    if currTime ≤ d then time.beginTime ≤ now ∧ Lasts time d now next
    else ¬(time.beginTime ≤ now ∧ now < time.endTime)
  | .exit, currTime => currTime ≤ d ↔ time.endTime ≤ now

instance decidablePunctual (time : EventTimeBase) (d : ℕ) (now : ℤ) (next : Bool) (kind : CallbackKind) (currTime : ℕ) :
    Decidable (Punctual time d now next kind currTime) := by
  cases kind <;> unfold Punctual <;> (try unfold Lasts) <;> infer_instance

theorem begun_iff (time : EventTimeBase) (htime : time = (cfg.config i).time) (hbegin : time.beginTime ≤ now) :
    (begun cfg i d now next = .excute ↔ time.beginTime ≤ now ∧ now < time.endTime) ↔ Lasts time d now next := by
  subst htime
  unfold begun Lasts
  split_ifs with h
  · exact ⟨fun _ _ => h.2, fun _ => ⟨fun _ => ⟨hbegin, h.1⟩, fun _ => rfl⟩⟩
  · constructor
    · intro hiff hend
      cases hiff.2 ⟨hbegin, hend⟩
    · intro hlasts
      refine ⟨fun hdestroy => (by cases hdestroy), ?_⟩
      rintro ⟨-, hend⟩
      exact absurd ⟨hend, hlasts hend⟩ h

/-- **The condition of a round is exact.** -/
theorem fires_iff (htime : (cfg.config i).time.type = .normal) {kind : CallbackKind}
    (hexit : kind = .exit → (cfg.config i).time.beginTime ≤ now)
    (h : Fires cfg i d now next kind currTime type excuted) :
    Punctual (cfg.config i).time d now next kind currTime ↔
      (type = .excute ↔ (cfg.config i).time.beginTime ≤ now ∧ now < (cfg.config i).time.endTime) ∧
        (excuted = true → (cfg.config i).time.beginTime ≤ now) := by
  cases kind with
  | apply =>
    have hfires := fires_apply htime h
    by_cases hdue : currTime ≤ d
    · simp only [Punctual, if_pos hdue] at hfires ⊢
      by_cases hbegin : (cfg.config i).time.beginTime ≤ now
      · rw [if_pos hbegin] at hfires ⊢
        obtain ⟨rfl, rfl⟩ := hfires
        rw [begun_iff _ rfl hbegin]
        exact (and_iff_left fun _ => hbegin).symm
      · rw [if_neg hbegin] at hfires ⊢
        by_cases hagain : next = true ∧ armed ((cfg.config i).time.beginTime - now) ≤ d
        · rw [if_pos hagain] at hfires
          exact ⟨fun hlt => absurd (hlt hagain.1) hagain.2.not_gt, fun hright => absurd (hright.2 hfires) hbegin⟩
        · rw [if_neg hagain] at hfires
          obtain ⟨rfl, rfl⟩ := hfires
          have hlater : next = true → d < armed ((cfg.config i).time.beginTime - now) := by
            intro hnext
            exact Nat.not_le.1 fun hle => hagain ⟨hnext, hle⟩
          simpa [hbegin] using hlater
    · simp only [Punctual, if_neg hdue] at hfires ⊢
      obtain ⟨rfl, rfl⟩ := hfires
      simp
  | excute =>
    have hfires := fires_excute htime h
    by_cases hdue : currTime ≤ d
    · simp only [Punctual, if_pos hdue] at hfires ⊢
      obtain ⟨rfl, rfl⟩ := hfires
      constructor
      · rintro ⟨hbegin, hlasts⟩
        exact ⟨(begun_iff _ rfl hbegin).2 hlasts, fun _ => hbegin⟩
      · rintro ⟨hiff, hbegin⟩
        exact ⟨hbegin rfl, (begun_iff _ rfl (hbegin rfl)).1 hiff⟩
    · simp only [Punctual, if_neg hdue] at hfires ⊢
      obtain ⟨rfl, rfl⟩ := hfires
      simp
  | exit =>
    obtain ⟨rfl, rfl⟩ := fires_exit h
    have hbegin := hexit rfl
    simp only [Punctual]
    split_ifs with hdue
    · simp [hdue, hbegin]
    · simp [hdue, hbegin]

/-- who executes or is over has been begun in the round, or before it -/
theorem fires_began (htime : (cfg.config i).time.type = .normal) {kind : CallbackKind}
    (h : Fires cfg i d now next kind currTime type excuted) (htype : type = .excute ∨ type = .destroy) :
    excuted = true ∨ kind = .exit := by
  cases kind with
  | apply =>
    have hfires := fires_apply htime h
    split_ifs at hfires
    · exact .inl hfires.1
    · exact .inl hfires
    all_goals
      rw [hfires.2] at htype
      simp at htype
  | excute =>
    have hfires := fires_excute htime h
    split_ifs at hfires
    · exact .inl hfires.1
    · rw [hfires.2] at htype
      simp at htype
  | exit => exact .inr rfl

/-! ## Runs -/

/-- in every state that is reached: the promotion waits for a timer or is over, and it has not begun in the future -/
structure Begun (i : ℕ) (s : Holder) : Prop where
  waiting : Waiting i s
  past : s.world.type i = .excute ∨ s.world.type i = .destroy → ∃ t ≤ s.world.clock, (i, t) ∈ s.world.excuted

/-- the promotion executes exactly in its window, and `excute` has not been called before it -/
structure InWindow (cfg : Config) (i : ℕ) (s : Holder) : Prop where
  excute : s.world.type i = .excute ↔
    (cfg.config i).time.beginTime ≤ serverTime s.world ∧ serverTime s.world < (cfg.config i).time.endTime
  excuted : ∀ t, (i, t) ∈ s.world.excuted → (cfg.config i).time.beginTime ≤ (t / 1000 : ℕ)

/-- a round finds the timer of the promotion as it has to be -/
def OnTime (cfg : Config) (i : ℕ) (s : Holder) : Op → Prop
  | .tick timeSpawn behind => timeSpawn ≠ 0 → ∀ (k : ℕ) (hk : k < s.events.length), s.events[k].deleted = false →
      s.events[k].erased = false → s.events[k].cb.promotion = i →
        Punctual (cfg.config i).time (timeSpawn % 2 ^ 32) ((s.world.clock + timeSpawn) / 1000 : ℕ)
          (hasNextAt cfg (timeSpawn % 2 ^ 32) ((s.world.clock + timeSpawn) / 1000 : ℕ) behind s k)
          s.events[k].cb.kind s.events[k].currTime
  | _ => True

instance decidableOnTime (cfg : Config) (i : ℕ) (s : Holder) (op : Op) : Decidable (OnTime cfg i s op) := by
  cases op <;> unfold OnTime <;> infer_instance

theorem onTime_tick (hs : Sound cfg gold jewel s) {k : ℕ} {ev : TimedEvent Callback} (hev : Pending s i k ev)
    {timeSpawn : ℕ} (hspawn : timeSpawn ≠ 0) (behind : List ℕ) :
    OnTime cfg i s (.tick timeSpawn behind) ↔ Punctual (cfg.config i).time (timeSpawn % 2 ^ 32)
      ((s.world.clock + timeSpawn) / 1000 : ℕ)
      (hasNextAt cfg (timeSpawn % 2 ^ 32) ((s.world.clock + timeSpawn) / 1000 : ℕ) behind s k) ev.cb.kind
        ev.currTime := by
  obtain ⟨hlt, hget⟩ := List.getElem?_eq_some_iff.1 hev.place
  constructor
  · intro h
    have hpunctual := h hspawn k hlt
    rw [hget] at hpunctual
    exact hpunctual hev.alive hev.present hev.promotion
  · intro h _ k' hk' halive hpresent hpromotion
    have hev' : Pending s i k' s.events[k'] := ⟨List.getElem?_eq_getElem hk', halive, hpresent, hpromotion⟩
    obtain rfl : k' = k := hs.timers.single i k' k _ ev hev' hev
    rwa [hget]

/-- nothing happens to a promotion that is over -/
theorem not_pending_of_destroy (hs : Sound cfg gold jewel s) (hdestroy : s.world.type i = .destroy) (k : ℕ)
    (ev : TimedEvent Callback) : ¬Pending s i k ev := by
  intro hev
  have hwaits := (hs.timers.owned i k ev hev).waits
  rw [hdestroy] at hwaits
  cases hkind : ev.cb.kind <;> rw [hkind] at hwaits <;> cases hwaits

theorem Begun.untouched {s' : Holder} (h : Begun i s) (hu : Untouched i s s')
    (hclock : s.world.clock ≤ s'.world.clock) :
    Begun i s' := by
  refine ⟨?_, ?_⟩
  · refine h.waiting.imp (fun hdestroy => hu.type.trans hdestroy) ?_
    rintro ⟨k, ev, hev⟩
    exact ⟨k, ev, (hu.pending k ev).2 hev⟩
  · rw [hu.type]
    intro htype
    obtain ⟨t, ht, hmem⟩ := h.past htype
    exact ⟨t, ht.trans hclock, (hu.excuted t).2 hmem⟩

theorem begun_tick (htime : (cfg.config i).time.type = .normal) (hs : Sound cfg gold jewel s) (h : Begun i s)
    (timeSpawn : ℕ) (behind : List ℕ) : Begun i (tick cfg s timeSpawn behind) := by
  by_cases hspawn : timeSpawn = 0
  · subst hspawn
    exact h
  · have hclock := (tick_frame hs timeSpawn behind).1
    obtain hdestroy | ⟨k, ev, hev⟩ := h.waiting
    · exact h.untouched (tick_other hs (not_pending_of_destroy hs hdestroy) timeSpawn behind) (by omega)
    · obtain ⟨⟨excuted, hfires, hlog⟩, hwaiting⟩ := tick_fires hs hev hspawn behind
      refine ⟨hwaiting, ?_⟩
      intro htype
      rcases fires_began htime hfires htype with rfl | hexit
      · exact ⟨_, hclock.ge, (hlog _).2 (.inr ⟨rfl, rfl⟩)⟩
      · have hwaits := (hs.timers.owned i k ev hev).waits
        rw [hexit] at hwaits
        obtain ⟨t, ht, hmem⟩ := h.past (.inl hwaits)
        exact ⟨t, by omega, (hlog t).2 (.inl hmem)⟩

theorem begun_step (htime : (cfg.config i).time.type = .normal) (hs : Sound cfg gold jewel s)
    (h : Begun i s) (op : Op) :
    Begun i (step cfg s op) := by
  cases op with
  | tick timeSpawn behind => exact begun_tick htime hs h timeSpawn behind
  | dayPass => exact h.untouched (dayPassAll_normal hs htime) (foldl_dayPass (i := i) hs.listed s).1.ge
  | update => exact h.untouched ⟨rfl, fun _ => Iff.rfl, fun _ _ => Iff.rfl⟩ le_rfl

theorem InWindow.untouched {s' : Holder} (hu : Untouched i s s') (hclock : s'.world.clock = s.world.clock) :
    InWindow cfg i s' ↔ InWindow cfg i s := by
  have hnow : serverTime s'.world = serverTime s.world := by rw [serverTime, hclock, serverTime]
  constructor
  · rintro ⟨hexcute, hexcuted⟩
    rw [hnow, hu.type] at hexcute
    exact ⟨hexcute, fun t hmem => hexcuted t ((hu.excuted t).2 hmem)⟩
  · rintro ⟨hexcute, hexcuted⟩
    rw [← hnow, ← hu.type] at hexcute
    exact ⟨hexcute, fun t hmem => hexcuted t ((hu.excuted t).1 hmem)⟩

/-- **A round of a promotion that is right.** -/
theorem window_tick (htime : (cfg.config i).time.type = .normal) (hs : Sound cfg gold jewel s) (h : Begun i s)
    (hright : InWindow cfg i s) (timeSpawn : ℕ) (behind : List ℕ) :
    OnTime cfg i s (.tick timeSpawn behind) ↔ InWindow cfg i (tick cfg s timeSpawn behind) := by
  by_cases hspawn : timeSpawn = 0
  · subst hspawn
    exact ⟨fun _ => hright, fun _ h => absurd rfl h⟩
  have hclock := (tick_frame hs timeSpawn behind).1
  have hnow : serverTime (tick cfg s timeSpawn behind).world = ((s.world.clock + timeSpawn) / 1000 : ℕ) := by
    rw [serverTime, hclock]
  have hlater : serverTime s.world ≤ ((s.world.clock + timeSpawn) / 1000 : ℕ) :=
    Int.ofNat_le.2 (Nat.div_le_div_right (Nat.le_add_right _ _))
  -- who executes or is over has begun at the beginning of the window or later
  have hbegan : s.world.type i = .excute ∨ s.world.type i = .destroy →
      (cfg.config i).time.beginTime ≤ serverTime s.world := by
    intro htype
    obtain ⟨t, ht, hmem⟩ := h.past htype
    exact (hright.excuted t hmem).trans (Int.ofNat_le.2 (Nat.div_le_div_right ht))
  obtain hdestroy | ⟨k, ev, hev⟩ := h.waiting
  · have hnone := not_pending_of_destroy hs hdestroy
    have hu := tick_other hs hnone timeSpawn behind
    constructor
    · rintro -
      refine ⟨?_, fun t hmem => hright.excuted t ((hu.excuted t).1 hmem)⟩
      rw [hu.type, hdestroy, hnow]
      refine ⟨fun hfalse => (by cases hfalse), ?_⟩
      rintro ⟨-, hend⟩
      have hexcute := hright.excute.2 ⟨hbegan (.inr hdestroy), hlater.trans_lt hend⟩
      rw [hdestroy] at hexcute
      cases hexcute
    · intro _ _ k hk halive hpresent hpromotion
      exact absurd ⟨List.getElem?_eq_getElem hk, halive, hpresent, hpromotion⟩ (hnone k _)
  · obtain ⟨⟨excuted, hfires, hlog⟩, -⟩ := tick_fires hs hev hspawn behind
    have hexit : ev.cb.kind = .exit → (cfg.config i).time.beginTime ≤ ((s.world.clock + timeSpawn) / 1000 : ℕ) := by
      intro hkind
      have hwaits := (hs.timers.owned i k ev hev).waits
      rw [hkind] at hwaits
      exact (hbegan (.inl hwaits)).trans hlater
    rw [onTime_tick hs hev hspawn behind]
    apply (fires_iff htime hexit hfires).trans
    constructor
    · rintro ⟨hexcute, hexcuted⟩
      refine ⟨by rwa [hnow], ?_⟩
      intro t hmem
      rcases (hlog t).1 hmem with hold | ⟨hnew, rfl⟩
      · exact hright.excuted t hold
      · exact hexcuted hnew
    · rintro ⟨hexcute, hexcuted⟩
      rw [hnow] at hexcute
      exact ⟨hexcute, fun hnew => hexcuted _ ((hlog _).2 (.inr ⟨hnew, rfl⟩))⟩

/-- the promotion when the server has started -/
theorem window_start (hi : i < cfg.size) (htime : (cfg.config i).time.type = .normal)
    (hshow : (cfg.config i).time.showTime ≤ (cfg.config i).time.beginTime)
    (hbegin : (cfg.config i).time.beginTime ≤ (cfg.config i).time.endTime) (time : ℕ) (gold jewel : ℤ)
    (shopOpen : Std.TreeMap ℤ Bool) :
    Begun i (start cfg time gold jewel shopOpen) ∧ InWindow cfg i (start cfg time gold jewel shopOpen) := by
  have hstart := start_promotion cfg time gold jewel shopOpen
  obtain ⟨htype, hexcuted, hpending, -⟩ := hstart.done i hi
  have hnow : serverTime (start cfg time gold jewel shopOpen).world = (time / 1000 : ℕ) := by
    rw [serverTime, hstart.clock]
  -- the outcome of `init` by itself has what the two properties ask for
  suffices ho : ∀ o, o = initOutcome cfg i (time / 1000 : ℕ) → (o.type = .destroy ∨ ∃ timer, o.timer = some timer) ∧
      (o.type = .excute ∨ o.type = .destroy → o.excuted = true) ∧
      (o.type = .excute ↔
        (cfg.config i).time.beginTime ≤ (time / 1000 : ℕ) ∧ (time / 1000 : ℕ) < (cfg.config i).time.endTime) ∧
      (o.excuted = true → (cfg.config i).time.beginTime ≤ (time / 1000 : ℕ)) by
    obtain ⟨hwaiting, hpast, hexcute, hbegan⟩ := ho _ rfl
    refine ⟨⟨?_, ?_⟩, ?_, ?_⟩
    · rcases hwaiting with hdestroy | ⟨timer, htimer⟩
      · exact .inl (htype.trans hdestroy)
      · obtain ⟨k, hk⟩ := hpending timer htimer
        exact .inr ⟨k, _, hk⟩
    · intro h
      rw [htype] at h
      exact ⟨time, hstart.clock.ge, (hexcuted time).2 ⟨hpast h, rfl⟩⟩
    · rw [htype, hnow]
      exact hexcute
    · intro t hmem
      obtain ⟨hcalled, rfl⟩ := (hexcuted t).1 hmem
      exact hbegan hcalled
  intro o ho
  unfold initOutcome at ho
  dsimp only at ho
  rw [htime] at ho
  dsimp only at ho
  rw [if_neg (by omega)] at ho
  by_cases hshown : (cfg.config i).time.showTime ≤ (time / 1000 : ℕ)
  · rw [if_pos hshown, applyOutcome_normal htime] at ho
    by_cases hbegan : (cfg.config i).time.beginTime ≤ (time / 1000 : ℕ)
    · rw [if_pos hbegan, excuteOutcome_normal htime] at ho
      split_ifs at ho with hend
      · subst ho
        exact ⟨.inr ⟨_, rfl⟩, fun _ => rfl, ⟨fun _ => ⟨hbegan, hend⟩, fun _ => rfl⟩, fun _ => hbegan⟩
      · subst ho
        exact ⟨.inl rfl, fun _ => rfl, ⟨fun h => (by cases h), fun h => absurd h.2 hend⟩, fun _ => hbegan⟩
    · rw [if_neg hbegan] at ho
      subst ho
      exact ⟨.inr ⟨_, rfl⟩, fun h => (by simp at h), ⟨fun h => (by cases h), fun h => absurd h.1 hbegan⟩,
        fun h => (by cases h)⟩
  · rw [if_neg hshown] at ho
    subst ho
    have hnever : ¬(cfg.config i).time.beginTime ≤ (time / 1000 : ℕ) := fun h => hshown (hshow.trans h)
    exact ⟨.inr ⟨_, rfl⟩, fun h => (by simp at h), ⟨fun h => (by cases h), fun h => absurd h.1 hnever⟩,
      fun h => (by cases h)⟩

/-- **Absolute times.** A promotion of `Time_Normal` executes exactly in its window in every state of a run, and has not
been called before it, exactly when every round finds its timer as it has to be. -/
theorem absolute_time_iff (cfg : Config) (i : ℕ) (hi : i < cfg.size) (htime : (cfg.config i).time.type = .normal)
    (hshow : (cfg.config i).time.showTime ≤ (cfg.config i).time.beginTime)
    (hbegin : (cfg.config i).time.beginTime ≤ (cfg.config i).time.endTime) (time : ℕ) (gold jewel : ℤ)
    (shopOpen : Std.TreeMap ℤ Bool) (ops : List Op) :
    Along (step cfg) (OnTime cfg i) (start cfg time gold jewel shopOpen) ops ↔
      ∀ pre, pre <+: ops → InWindow cfg i (run (step cfg) (start cfg time gold jewel shopOpen) pre) := by
  obtain ⟨hbegun, hright⟩ := window_start hi htime hshow hbegin time gold jewel shopOpen
  have hI : ∀ s (op : Op), Sound cfg gold jewel s ∧ Begun i s → True →
      Sound cfg gold jewel (step cfg s op) ∧ Begun i (step cfg s op) := by
    rintro s op ⟨hs, hbegun⟩ -
    exact ⟨sound_step hs op, begun_step htime hs hbegun op⟩
  have hJ : ∀ s (op : Op), Sound cfg gold jewel s ∧ Begun i s → True → InWindow cfg i s →
      (OnTime cfg i s op ↔ InWindow cfg i (step cfg s op)) := by
    rintro s op ⟨hs, hbegun⟩ - hright
    cases op with
    | tick timeSpawn behind => exact window_tick htime hs hbegun hright timeSpawn behind
    | dayPass =>
      have hkeep : InWindow cfg i (dayPassAll cfg s) ↔ InWindow cfg i s :=
        InWindow.untouched (dayPassAll_normal hs htime) (foldl_dayPass (i := i) hs.listed s).1
      exact ⟨fun _ => hkeep.2 hright, fun _ => trivial⟩
    | update =>
      have hkeep : InWindow cfg i (updateAll s) ↔ InWindow cfg i s :=
        InWindow.untouched ⟨rfl, fun _ => Iff.rfl, fun _ _ => Iff.rfl⟩ rfl
      exact ⟨fun _ => hkeep.2 hright, fun _ => trivial⟩
  have hexact := along_iff_under (g := fun _ _ => True) hI hJ ⟨sound_start cfg time gold jewel shopOpen, hbegun⟩
    (Along.of_forall _ ops fun _ _ _ => trivial)
  rw [← hexact]
  exact (and_iff_right hright).symm

/-- one promotion, from the second 2 to the second 5 -/
def threeSeconds : Config where
  size := 1
  config _ := { time := { type := .normal, showTime := 0, beginTime := 2, endTime := 5 },
                promotion := .openHideHero [] }

theorem absolute_time_in_time : InWindow threeSeconds 0
    (run (step threeSeconds) (start threeSeconds 0 0 0 {}) [.tick 2000 [], .update, .tick 3000 [0]]) :=
  (absolute_time_iff threeSeconds 0 (by decide) rfl (by decide) (by decide) 0 0 0 {} _).1 (by decide) _
    List.prefix_rfl

/-- a promotion that begins in fifty days; the delay is 704 milliseconds more than 2^32 -/
def fiftyDays : Config where
  size := 1
  config _ :=
    { time := { type := .normal, showTime := 4294968, beginTime := 4294968, endTime := 5000000 },
      promotion := .openHideHero [] }

theorem executes_at_once :
    let s := run (step fiftyDays) (start fiftyDays 0 0 0 {}) [.tick 704 [], .tick 704 []]
    s.world.excuted = [(0, 1408)] ∧ ¬InWindow fiftyDays 0 s := by
  refine ⟨by decide, ?_⟩
  rintro ⟨-, hexcuted⟩
  have hbegin := hexcuted 1408 (by decide)
  revert hbegin
  decide

end DreamHeroes.Promotion

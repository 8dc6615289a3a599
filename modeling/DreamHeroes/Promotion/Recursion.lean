/-
The methods of `TimeShopPromotion` as they call each other: `apply` calls `DayPass`, `DayPass` calls `apply`, `excute`
and `exit`, and `excute` calls `DayPass` and `exit`.

- `Recorder`: the promotions, with a record of the calls of `excute(bool)`.
- `body`: the bodies of the methods, and `invoke` the methods when their calls nest less than a number deep.
  `showBlock`, `applyBlock`, `excuteBlock`: the three blocks of `DayPass`. Each tests `_type` again, after what the one
  before has called.
- `measure`: how deep the calls of a method nest, from the state it is called in.
- `body_spec`: with less depth for each call, a method returns, with what the methods of `ShopSales` compute, and
  `excute(true)` and `excute(false)` take turns (`Turned`). `invoke_eq`: a depth of six is enough for all of them.
-/
import Mathlib.Tactic
import DreamHeroes.Lib.Calls
import DreamHeroes.Lib.Switch
import DreamHeroes.Promotion.Outcomes

namespace DreamHeroes.Promotion.Calls

open DreamHeroes.Lib DreamHeroes.Common

/-! ## The methods -/

structure Recorded where
  world : World
  /-- the calls of `excute(bool)`, with the promotion and the argument -/
  calls : List (ℕ × Bool) := []

abbrev Recorder := Timed Recorded Callback

def now (s : Recorder) : ℤ := serverTime s.world.world

def typeOf (s : Recorder) (i : ℕ) : ShopSalesPromotionType := s.world.world.type i

def onWorld (s : Recorder) (f : World → World) : Recorder :=
  { s with world := { s.world with world := f s.world.world } }

variable (cfg : Config) (i : ℕ)

/-- a call of `excute(b)`, which changes the promotions by `f` -/
def recorded (s : Recorder) (b : Bool) (f : World → World) : Recorder :=
  { s with world := { world := f s.world.world, calls := s.world.calls ++ [(i, b)] } }

def excuteTrue (s : Recorder) : Recorder :=
  recorded i s true fun w => { excuteBool cfg i true w with excuted := w.excuted ++ [(i, w.clock)] }

def excuteFalse (s : Recorder) : Recorder := recorded i s false (excuteBool cfg i false)

/-- the timers of a type are removed, and the promotion comes to a state -/
def entered (eventType : ℕ) (type : ShopSalesPromotionType) (s : Recorder) : Recorder :=
  let s := if hasEvent s i eventType then removeEvents s i eventType else s
  onWorld s fun w => w.setType i type

/-- `ShopSalesPromotion::apply` -/
def baseApply (s : Recorder) : Recorder := entered i eventApply .apply s

/-- `ShopSalesPromotion::init` -/
def baseInit (s : Recorder) : Recorder := onWorld s fun w => w.setType i .wait

/-- `ShopSalesPromotion::exit` -/
def baseExit (s : Recorder) : Recorder := entered i eventExit .wait s

def ended (s : Recorder) : Recorder := onWorld (excuteFalse cfg i (baseExit i s)) fun w => w.setType i .destroy

/-- the methods that call each other -/
inductive Method where
  | exit
  | excute
  | apply
  | dayPass
deriving DecidableEq, Repr

section

variable (call : Method → Recorder → Option Recorder)

/-- the third block of `DayPass` -/
def excuteBlock (s : Recorder) : Option Recorder :=
  let curTime := (cfg.config i).time
  if typeOf s i = .excute then
    match curTime.type with
    | .week => if weekEnds curTime (wday cfg.off (now s)) then call .exit s else some s
    | .openServerOffsetTime =>
      let passedDay := cfg.getOpenServerPassedDay (now s)
      if passedDay < curTime.beginTime ∨ passedDay > curTime.endTime then call .exit s else some s
    | .normal => some s
  else some s

/-- the second block -/
def applyBlock (s : Recorder) : Option Recorder :=
  let curTime := (cfg.config i).time
  if typeOf s i = .apply then
    match curTime.type with
    | .week => if weekBegins curTime (wday cfg.off (now s)) then call .excute s else some s
    | .openServerOffsetTime =>
      let passedDay := cfg.getOpenServerPassedDay (now s)
      if passedDay ≥ curTime.beginTime ∧ passedDay ≤ curTime.endTime then call .excute s else some s
    | .normal => some s
  else some s

/-- the first block, and then the rest of `DayPass`, which a window that shows after its end does not come to -/
def showBlock (rest : Recorder → Option Recorder) (s : Recorder) : Option Recorder :=
  let curTime := (cfg.config i).time
  if typeOf s i = .wait then
    match curTime.type with
    | .week => (if weekShows curTime (wday cfg.off (now s)) then call .apply s else some s).bind rest
    | .openServerOffsetTime =>
      let passedDay := cfg.getOpenServerPassedDay (now s)
      if curTime.showTime > curTime.endTime then some s
      else (if passedDay ≥ curTime.showTime ∧ passedDay ≤ curTime.endTime then call .apply s else some s).bind rest
    | .normal => rest s
  else rest s

/-- the bodies of the methods -/
def body : Method → Recorder → Option Recorder
  | .exit, s => some (ended cfg i s)
  | .excute, s =>
    let s := excuteTrue cfg i s
    match (cfg.config i).time.type with
    | .normal =>
      let delayTime := (cfg.config i).time.endTime - now s
      if delayTime > 0 then some (addEvent s (some i) ⟨.exit, i⟩ eventExit (armed delayTime) 1) else call .exit s
    | .week | .openServerOffsetTime => call .dayPass s
  | .apply, s =>
    let s := baseApply i s
    match (cfg.config i).time.type with
    | .normal =>
      let delayTime := (cfg.config i).time.beginTime - now s
      if delayTime ≤ 0 then call .excute s
      else some (addEvent s (some i) ⟨.excute, i⟩ eventApply (armed delayTime) 1)
    | .week | .openServerOffsetTime => call .dayPass s
  | .dayPass, s => showBlock cfg i call (fun s => (applyBlock cfg i call s).bind (excuteBlock cfg i call)) s

end

/-- the methods, when their calls nest less than `n` deep -/
def invoke (n : ℕ) : Method → Recorder → Option Recorder := callN (body cfg i) n

/-- `init`, and whether the object is kept -/
def init (n : ℕ) (s : Recorder) : Option (Recorder × Bool) :=
  let curTime := (cfg.config i).time
  let s := baseInit i s
  match curTime.type with
  | .normal =>
    if curTime.showTime > curTime.endTime then some (s, false)
    else
      let delayTime := curTime.showTime - now s
      if delayTime ≤ 0 then (invoke cfg i n .apply s).map fun s => (s, true)
      else some (addEvent s (some i) ⟨.apply, i⟩ eventApply (armed delayTime) 1, true)
  | .week | .openServerOffsetTime => (invoke cfg i n .dayPass s).map fun s => (s, true)

/-! ## The blocks -/

variable {cfg} {i} {call call' : Method → Recorder → Option Recorder}

theorem excuteBlock_eq (s : Recorder) :
    excuteBlock cfg i call s = if typeOf s i = .excute ∧ ends cfg i (now s) then call .exit s else some s := by
  unfold excuteBlock ends
  by_cases hold : typeOf s i = .excute
  · cases htime : (cfg.config i).time.type <;> simp [hold, htime]
  · simp [hold]

theorem applyBlock_eq (s : Recorder) :
    applyBlock cfg i call s = if typeOf s i = .apply ∧ begins cfg i (now s) then call .excute s else some s := by
  unfold applyBlock begins
  by_cases hold : typeOf s i = .apply
  · cases htime : (cfg.config i).time.type <;> simp [hold, htime]
  · simp [hold]

/-- the early return is at a promotion that waits, where the rest does nothing -/
theorem showBlock_eq {rest : Recorder → Option Recorder} {s : Recorder} (hrest : typeOf s i = .wait → rest s = some s) :
    showBlock cfg i call rest s =
      (if typeOf s i = .wait ∧ shows cfg i (now s) then call .apply s else some s).bind rest := by
  unfold showBlock shows
  by_cases hold : typeOf s i = .wait
  · cases htime : (cfg.config i).time.type with
    | normal => simp [hold, htime]
    | week => simp [hold, htime]
    | openServerOffsetTime =>
      by_cases hnever : (cfg.config i).time.endTime < (cfg.config i).time.showTime
      · have hshows : ¬((cfg.config i).time.showTime ≤ cfg.getOpenServerPassedDay (now s) ∧
            cfg.getOpenServerPassedDay (now s) ≤ (cfg.config i).time.endTime) := by omega
        simp [hold, htime, hnever, hshows, hrest hold]
      · simp [hold, htime, hnever]
  · simp [hold]

/-- the three blocks, one after the other -/
theorem dayPass_eq (s : Recorder) :
    body cfg i call .dayPass s =
      (if typeOf s i = .wait ∧ shows cfg i (now s) then call .apply s else some s).bind fun s =>
        (if typeOf s i = .apply ∧ begins cfg i (now s) then call .excute s else some s).bind fun s =>
          if typeOf s i = .excute ∧ ends cfg i (now s) then call .exit s else some s := by
  simp only [body, applyBlock_eq, excuteBlock_eq]
  apply showBlock_eq
  intro hwait
  simp [hwait]

theorem excute_days (htime : (cfg.config i).time.type ≠ .normal) (s : Recorder) :
    body cfg i call .excute s = call .dayPass (excuteTrue cfg i s) := by
  cases hdays : (cfg.config i).time.type with
  | normal => exact absurd hdays htime
  | week => simp only [body, hdays]
  | openServerOffsetTime => simp only [body, hdays]

theorem apply_days (htime : (cfg.config i).time.type ≠ .normal) (s : Recorder) :
    body cfg i call .apply s = call .dayPass (baseApply i s) := by
  cases hdays : (cfg.config i).time.type with
  | normal => exact absurd hdays htime
  | week => simp only [body, hdays]
  | openServerOffsetTime => simp only [body, hdays]

variable (cfg) (i) in
theorem monotonic_body : Monotonic (body cfg i) := by
  intro call call' h m s t ht
  have hif (p : Prop) [Decidable p] (m : Method) (s t : Recorder) :
      (if p then call m s else some s) = some t → (if p then call' m s else some s) = some t := by
    split_ifs
    · exact h m s t
    · exact id
  cases m with
  | exit => exact ht
  | excute =>
    by_cases htime : (cfg.config i).time.type = .normal
    · simp only [body, htime] at ht ⊢
      split_ifs at ht ⊢
      · exact ht
      · exact h _ _ _ ht
    · rw [excute_days htime] at ht ⊢
      exact h _ _ _ ht
  | apply =>
    by_cases htime : (cfg.config i).time.type = .normal
    · simp only [body, htime] at ht ⊢
      split_ifs at ht ⊢
      · exact h _ _ _ ht
      · exact ht
    · rw [apply_days htime] at ht ⊢
      exact h _ _ _ ht
  | dayPass =>
    rw [dayPass_eq] at ht ⊢
    exact bind_extends (hif _ _ s) (fun s => bind_extends (hif _ _ s) fun s => hif _ _ s) t ht

/-! ## What a method comes to -/

/-- without the record -/
def erase (s : Recorder) : Holder := s.map Recorded.world

variable (cfg) (i) in
/-- the method, as `ShopSales` has it -/
def Method.plain : Method → Holder → Holder
  | .exit => Promotion.exit cfg i
  | .excute => Promotion.excute cfg i
  | .apply => Promotion.apply cfg i
  | .dayPass => Promotion.dayPass cfg i

/-- the states in which a method is called -/
def Method.Ready : Method → ShopSalesPromotionType → Prop
  | .exit, type => type = .excute
  | .excute, type => type ≠ .excute
  | .apply, type => type ≠ .excute
  | .dayPass, _ => True

/-- the effect of the promotion is applied -/
def executing (s : Recorder) (i : ℕ) : Bool := typeOf s i = .excute

/-- `excute(true)` and `excute(false)` of the promotion have taken turns, and nothing has happened to the others -/
structure Turned (i : ℕ) (s t : Recorder) : Prop where
  turns : ∃ l, t.world.calls = s.world.calls ++ l.map (Prod.mk i) ∧ Switches (executing s i) l (executing t i)
  others : ∀ j, j ≠ i → typeOf t j = typeOf s j

theorem Turned.refl (i : ℕ) (s : Recorder) : Turned i s s := ⟨⟨[], by simp, switches_refl _⟩, fun _ _ => rfl⟩

theorem Turned.trans {s t u : Recorder} (h : Turned i s t) (h' : Turned i t u) : Turned i s u := by
  obtain ⟨l, hl, hturns⟩ := h.turns
  obtain ⟨l', hl', hturns'⟩ := h'.turns
  refine ⟨⟨l ++ l', ?_, hturns.trans hturns'⟩, fun j hj => (h'.others j hj).trans (h.others j hj)⟩
  rw [hl', hl, List.map_append, List.append_assoc]

/-- a change that leaves the record, and the promotion executing or not -/
theorem Turned.of_type {s t : Recorder} (hcalls : t.world.calls = s.world.calls) (hself : executing t i = executing s i)
    (hothers : ∀ j, j ≠ i → typeOf t j = typeOf s j) : Turned i s t :=
  ⟨⟨[], by simp [hcalls], hself⟩, hothers⟩

/-- one turn -/
theorem Turned.turn {s t : Recorder} {b : Bool} (hcalls : t.world.calls = s.world.calls ++ [(i, b)])
    (hbefore : executing s i = !b) (hafter : executing t i = b) (hothers : ∀ j, j ≠ i → typeOf t j = typeOf s j) :
    Turned i s t := by
  refine ⟨⟨[b], hcalls, ?_⟩, hothers⟩
  rw [hbefore, hafter]
  exact ⟨(Bool.not_not b).symm, rfl⟩

variable (cfg) (i) in
theorem typeOf_excuteBool (b : Bool) (w : World) (j : ℕ) :
    (excuteBool cfg i b w).type j = if j = i then .excute else w.type j := by
  rw [excuteBool, (excuteSwitch_sameBut _ _ _).type]
  exact Function.update_apply _ _ _ _

theorem typeOf_entered (eventType : ℕ) (type : ShopSalesPromotionType) (s : Recorder) (j : ℕ) :
    typeOf (entered i eventType type s) j = if j = i then type else typeOf s j := by
  have hworld : (entered i eventType type s).world.world = s.world.world.setType i type := by
    unfold entered
    split_ifs <;> rfl
  rw [typeOf, hworld]
  exact Function.update_apply _ _ _ _

theorem entered_calls (eventType : ℕ) (type : ShopSalesPromotionType) (s : Recorder) :
    (entered i eventType type s).world.calls = s.world.calls := by
  unfold entered
  split_ifs <;> rfl

theorem excuteTrue_turned {s : Recorder} (hready : typeOf s i ≠ .excute) : Turned i s (excuteTrue cfg i s) := by
  have htype (j : ℕ) : typeOf (excuteTrue cfg i s) j = if j = i then .excute else typeOf s j :=
    typeOf_excuteBool cfg i true s.world.world j
  apply Turned.turn rfl
  · simp [executing, hready]
  · simp [executing, htype]
  · intro j hj
    rw [htype, if_neg hj]

theorem baseApply_turned {s : Recorder} (hready : typeOf s i ≠ .excute) : Turned i s (baseApply i s) := by
  apply Turned.of_type (entered_calls _ _ s)
  · simp [executing, typeOf_entered, hready]
  · intro j hj
    exact (typeOf_entered _ _ s j).trans (if_neg hj)

theorem exit_turned {s : Recorder} (hready : typeOf s i = .excute) : Turned i s (ended cfg i s) := by
  have htype (j : ℕ) : typeOf (ended cfg i s) j = if j = i then .destroy else typeOf s j := by
    by_cases hj : j = i
    · subst hj
      simp [ended, typeOf, onWorld]
    · rw [if_neg hj]
      calc typeOf (ended cfg i s) j
          = (excuteBool cfg i false (baseExit i s).world.world).type j := setType_ne _ hj _
        _ = typeOf (baseExit i s) j := by rw [typeOf_excuteBool, if_neg hj, typeOf]
        _ = typeOf s j := (typeOf_entered _ _ s j).trans (if_neg hj)
  apply Turned.turn (b := false)
  · exact congrArg (· ++ [(i, false)]) (entered_calls _ _ s)
  · simp [executing, hready]
  · simp [executing, htype]
  · intro j hj
    rw [htype, if_neg hj]

/-! ## Every call returns -/

variable (cfg) (i) in
/-- the method has returned, from the first state in the second -/
structure Returned (m : Method) (s t : Recorder) : Prop where
  plain : erase t = m.plain cfg i (erase s)
  turned : m.Ready (typeOf s i) → Turned i s t

variable (i) in
/-- how deep the calls of the method nest -/
def measure : Method → Recorder → ℕ
  | .exit, _ => 0
  | .excute, _ => 2
  | .apply, _ => 4
  | .dayPass, s =>
    match typeOf s i with
    | .wait => 5
    | .apply => 3
    | .excute | .destroy => 1

theorem dayPass_of_excute {s : Holder} (h : s.world.type i = .excute) :
    Promotion.dayPass cfg i s = dayPassExcute cfg i s := by
  rw [Promotion.dayPass_eq, if_neg (by simp [h]), dayPassApply_eq, if_neg (by simp [h])]

theorem dayPass_of_apply {s : Holder} (h : s.world.type i = .apply) :
    Promotion.dayPass cfg i s = dayPassApply cfg i s := by
  rw [Promotion.dayPass_eq, if_neg (by simp [h])]

theorem erase_entered (eventType : ℕ) (type : ShopSalesPromotionType) (s : Recorder) :
    erase (entered i eventType type s) =
      mapWorld (if hasEvent (erase s) i eventType then removeEvents (erase s) i eventType else erase s)
        fun w => w.setType i type := by
  have hsame : hasEvent (erase s) i eventType = hasEvent s i eventType := rfl
  rw [entered, hsame]
  split_ifs <;> rfl

theorem excute_plain (htime : (cfg.config i).time.type ≠ .normal) (s : Recorder) :
    Promotion.excute cfg i (erase s) = dayPassExcute cfg i (erase (excuteTrue cfg i s)) := by
  unfold Promotion.excute
  cases hdays : (cfg.config i).time.type with
  | normal => exact absurd hdays htime
  | week => rfl
  | openServerOffsetTime => rfl

theorem apply_plain (htime : (cfg.config i).time.type ≠ .normal) (s : Recorder) :
    Promotion.apply cfg i (erase s) = dayPassApply cfg i (erase (baseApply i s)) := by
  unfold Promotion.apply
  cases hdays : (cfg.config i).time.type with
  | normal => exact absurd hdays htime
  | week => rw [baseApply, erase_entered]
  | openServerOffsetTime => rw [baseApply, erase_entered]

theorem exit_spec (s : Recorder) : ∃ t, body cfg i call .exit s = some t ∧ Returned cfg i .exit s t := by
  refine ⟨ended cfg i s, rfl, ?_, exit_turned⟩
  exact congrArg (fun s => mapWorld s fun w => (excuteBool cfg i false w).setType i .destroy) (erase_entered _ _ s)

theorem excute_spec (hexit : ∀ s, ∃ t, call .exit s = some t ∧ Returned cfg i .exit s t)
    (hpass : ∀ s, typeOf s i = .excute → ∃ t, call .dayPass s = some t ∧ Returned cfg i .dayPass s t) (s : Recorder) :
    ∃ t, body cfg i call .excute s = some t ∧ Returned cfg i .excute s t := by
  have hexcute : typeOf (excuteTrue cfg i s) i = .excute :=
    (typeOf_excuteBool cfg i true s.world.world i).trans (if_pos rfl)
  by_cases htime : (cfg.config i).time.type = .normal
  · simp only [body, htime]
    by_cases hdelay : (cfg.config i).time.endTime - now (excuteTrue cfg i s) > 0
    · rw [if_pos hdelay]
      refine ⟨_, rfl, ?_, ?_⟩
      · simp only [Method.plain, Promotion.excute, htime]
        exact (if_pos hdelay).symm
      · intro hready
        exact (excuteTrue_turned hready).trans (Turned.of_type rfl rfl fun _ _ => rfl)
    · rw [if_neg hdelay]
      obtain ⟨t, ht, hreturned⟩ := hexit (excuteTrue cfg i s)
      refine ⟨t, ht, ?_, ?_⟩
      · simp only [Method.plain, Promotion.excute, htime]
        exact hreturned.plain.trans (if_neg hdelay).symm
      · intro hready
        exact (excuteTrue_turned hready).trans (hreturned.turned hexcute)
  · obtain ⟨t, ht, hreturned⟩ := hpass _ hexcute
    refine ⟨t, (excute_days htime s).trans ht, ?_, ?_⟩
    · exact (hreturned.plain.trans (dayPass_of_excute hexcute)).trans (excute_plain htime s).symm
    · intro hready
      exact (excuteTrue_turned hready).trans (hreturned.turned trivial)

theorem apply_spec (hexcute : ∀ s, ∃ t, call .excute s = some t ∧ Returned cfg i .excute s t)
    (hpass : ∀ s, typeOf s i = .apply → ∃ t, call .dayPass s = some t ∧ Returned cfg i .dayPass s t) (s : Recorder) :
    ∃ t, body cfg i call .apply s = some t ∧ Returned cfg i .apply s t := by
  have happly : typeOf (baseApply i s) i = .apply := (typeOf_entered _ _ s i).trans (if_pos rfl)
  by_cases htime : (cfg.config i).time.type = .normal
  · have hplain : Promotion.apply cfg i (erase s) =
        if (cfg.config i).time.beginTime - now (baseApply i s) ≤ 0 then Promotion.excute cfg i (erase (baseApply i s))
        else addEvent (erase (baseApply i s)) (some i) ⟨.excute, i⟩ eventApply
          (armed ((cfg.config i).time.beginTime - now (baseApply i s))) 1 := by
      simp only [Promotion.apply, htime, baseApply, ← erase_entered]
      rfl
    simp only [body, htime]
    by_cases hdelay : (cfg.config i).time.beginTime - now (baseApply i s) ≤ 0
    · rw [if_pos hdelay] at hplain ⊢
      obtain ⟨t, ht, hreturned⟩ := hexcute (baseApply i s)
      refine ⟨t, ht, hreturned.plain.trans hplain.symm, ?_⟩
      intro hready
      exact (baseApply_turned hready).trans (hreturned.turned (by simp [Method.Ready, happly]))
    · rw [if_neg hdelay] at hplain ⊢
      refine ⟨_, rfl, hplain.symm, ?_⟩
      intro hready
      exact (baseApply_turned hready).trans (Turned.of_type rfl rfl fun _ _ => rfl)
  · obtain ⟨t, ht, hreturned⟩ := hpass _ happly
    refine ⟨t, (apply_days htime s).trans ht, ?_, ?_⟩
    · exact (hreturned.plain.trans (dayPass_of_apply happly)).trans (apply_plain htime s).symm
    · intro hready
      exact (baseApply_turned hready).trans (hreturned.turned trivial)

/-- a block that calls a method, or does nothing -/
theorem block_spec {m : Method} {p : Prop} [Decidable p] {s : Recorder} (hready : p → m.Ready (typeOf s i))
    (hcall : p → ∃ t, call m s = some t ∧ Returned cfg i m s t) :
    ∃ t, (if p then call m s else some s) = some t ∧
      erase t = (if p then m.plain cfg i (erase s) else erase s) ∧ Turned i s t := by
  by_cases hp : p
  · obtain ⟨t, ht, hreturned⟩ := hcall hp
    rw [if_pos hp, if_pos hp]
    exact ⟨t, ht, hreturned.plain, hreturned.turned (hready hp)⟩
  · rw [if_neg hp, if_neg hp]
    exact ⟨s, rfl, rfl, Turned.refl i s⟩

/-- the promotion changes its state in each block, and the next one tests it again -/
theorem dayPass_spec {s : Recorder} (happly : typeOf s i = .wait → ∃ t, call .apply s = some t ∧
    Returned cfg i .apply s t)
    (hexcute : typeOf s i = .wait ∨ typeOf s i = .apply →
      ∀ s, ∃ t, call .excute s = some t ∧ Returned cfg i .excute s t)
    (hexit : ∀ s, ∃ t, call .exit s = some t ∧ Returned cfg i .exit s t) :
    ∃ t, body cfg i call .dayPass s = some t ∧ Returned cfg i .dayPass s t := by
  obtain ⟨t1, ht1, hplain1, hturned1⟩ := block_spec (m := .apply) (p := typeOf s i = .wait ∧ shows cfg i (now s))
    (s := s) (fun hp => by simp [Method.Ready, hp.1]) fun hp => happly hp.1
  -- a promotion that is applied has waited before the first block, or was applied
  have hbefore : typeOf t1 i = .apply → typeOf s i = .wait ∨ typeOf s i = .apply := by
    intro happlied
    by_cases hwait : typeOf s i = .wait
    · exact .inl hwait
    · rw [if_neg (by simp [hwait])] at ht1
      cases ht1
      exact .inr happlied
  obtain ⟨t2, ht2, hplain2, hturned2⟩ := block_spec (m := .excute) (p := typeOf t1 i = .apply ∧ begins cfg i (now t1))
    (s := t1) (fun hp => by simp [Method.Ready, hp.1]) fun hp => hexcute (hbefore hp.1) t1
  obtain ⟨t3, ht3, hplain3, hturned3⟩ := block_spec (m := .exit) (p := typeOf t2 i = .excute ∧ ends cfg i (now t2))
    (s := t2) (fun hp => hp.1) fun _ => hexit t2
  refine ⟨t3, ?_, ?_, fun _ => (hturned1.trans hturned2).trans hturned3⟩
  · rw [dayPass_eq, ht1, Option.bind_some, ht2, Option.bind_some, ht3]
  · calc erase t3 = dayPassExcute cfg i (erase t2) := hplain3.trans (dayPassExcute_eq (erase t2)).symm
      _ = dayPassApply cfg i (erase t1) := by
        rw [dayPassApply_eq (erase t1)]
        exact congrArg (dayPassExcute cfg i) hplain2
      _ = Promotion.dayPass cfg i (erase s) := by
        rw [Promotion.dayPass_eq (erase s)]
        exact congrArg (dayPassApply cfg i) hplain1

/-- **One call**, when those it makes return. -/
theorem body_spec (call : Method → Recorder → Option Recorder) (m : Method) (s : Recorder)
    (hcall : ∀ m' s', measure i m' s' < measure i m s → ∃ t, call m' s' = some t ∧ Returned cfg i m' s' t) :
    ∃ t, body cfg i call m s = some t ∧ Returned cfg i m s t := by
  cases m with
  | exit => exact exit_spec s
  | excute =>
    apply excute_spec (fun s => hcall .exit s (by simp [measure]))
    intro s hexcute
    exact hcall .dayPass s (by simp [measure, hexcute])
  | apply =>
    apply apply_spec (fun s => hcall .excute s (by simp [measure]))
    intro s happly
    exact hcall .dayPass s (by simp [measure, happly])
  | dayPass =>
    apply dayPass_spec
    · intro hwait
      exact hcall .apply s (by simp [measure, hwait])
    · intro hbefore s'
      apply hcall .excute s'
      rcases hbefore with hwait | happly
      · simp [measure, hwait]
      · simp [measure, happly]
    · intro s'
      apply hcall .exit s'
      cases htype : typeOf s i <;> simp [measure, htype]

theorem measure_lt (m : Method) (s : Recorder) : measure i m s < 6 := by
  cases m with
  | dayPass => cases htype : typeOf s i <;> simp [measure, htype]
  | _ => simp [measure]

/-- the method, with depth for all of its calls (`invoke_eq`) -/
def invoked (cfg : Config) (i : ℕ) (m : Method) (s : Recorder) : Recorder := (invoke cfg i 6 m s).getD s

/-- **Every call returns.** -/
theorem invoke_ends (cfg : Config) (i : ℕ) (m : Method) (s : Recorder) :
    Returned cfg i m s (invoked cfg i m s) ∧ ∀ n, measure i m s < n →
    invoke cfg i n m s = some (invoked cfg i m s) := by
  obtain ⟨t, hreturned, ht⟩ := callN_ends (monotonic_body cfg i) (measure i) body_spec m s
  have hsix : invoked cfg i m s = t := by
    rw [invoked, invoke, ht 6 (measure_lt m s)]
    rfl
  rw [hsix]
  exact ⟨hreturned, ht⟩

theorem invoked_spec (cfg : Config) (i : ℕ) (m : Method) (s : Recorder) : Returned cfg i m s (invoked cfg i m s) :=
  (invoke_ends cfg i m s).1

theorem invoke_eq (m : Method) (s : Recorder) {n : ℕ} (hn : 6 ≤ n) :
    invoke cfg i n m s = some (invoked cfg i m s) :=
  (invoke_ends cfg i m s).2 n ((measure_lt m s).trans_le hn)

/-! ## `init` -/

theorem typeOf_baseInit (s : Recorder) (j : ℕ) : typeOf (baseInit i s) j = if j = i then .wait else typeOf s j :=
  Function.update_apply _ _ _ _

theorem baseInit_turned {s : Recorder} (hready : typeOf s i ≠ .excute) : Turned i s (baseInit i s) := by
  refine Turned.of_type rfl ?_ ?_
  · simp [executing, typeOf_baseInit, hready]
  · intro j hj
    rw [typeOf_baseInit, if_neg hj]

theorem init_eq (cfg : Config) (i : ℕ) (s : Recorder) {n : ℕ} (hn : 6 ≤ n) : init cfg i n s = init cfg i 6 s := by
  have hsame : invoke cfg i n = invoke cfg i 6 := by
    funext m s
    rw [invoke_eq m s hn, invoke_eq m s le_rfl]
  rw [init, init, hsame]

/-- `init` of a promotion that does not execute -/
theorem init_spec (cfg : Config) (i : ℕ) (s : Recorder) : ∃ r, init cfg i 6 s = some r ∧
    (erase r.1, r.2) = Promotion.init cfg i (erase s) ∧ (typeOf s i ≠ .excute → Turned i s r.1) := by
  have hready : typeOf (baseInit i s) i ≠ .excute := by simp [typeOf_baseInit]
  have happly := invoked_spec cfg i .apply (baseInit i s)
  have hpass := invoked_spec cfg i .dayPass (baseInit i s)
  cases htime : (cfg.config i).time.type with
  | normal =>
    simp only [init, Promotion.init, htime, invoke_eq .apply (baseInit i s) le_rfl]
    by_cases hnever : (cfg.config i).time.showTime > (cfg.config i).time.endTime
    · rw [if_pos hnever, if_pos hnever]
      exact ⟨_, rfl, rfl, baseInit_turned⟩
    · rw [if_neg hnever, if_neg hnever]
      by_cases hdelay : (cfg.config i).time.showTime - now (baseInit i s) ≤ 0
      · rw [if_pos hdelay]
        refine ⟨_, rfl, (congrArg (·, true) happly.plain).trans (if_pos hdelay).symm, ?_⟩
        intro hold
        exact (baseInit_turned hold).trans (happly.turned hready)
      · rw [if_neg hdelay]
        refine ⟨_, rfl, (if_neg hdelay).symm, ?_⟩
        intro hold
        exact (baseInit_turned hold).trans (Turned.of_type rfl rfl fun _ _ => rfl)
  | week =>
    simp only [init, Promotion.init, htime, invoke_eq .dayPass (baseInit i s) le_rfl]
    refine ⟨_, rfl, congrArg (·, true) hpass.plain, ?_⟩
    intro hold
    exact (baseInit_turned hold).trans (hpass.turned trivial)
  | openServerOffsetTime =>
    simp only [init, Promotion.init, htime, invoke_eq .dayPass (baseInit i s) le_rfl]
    refine ⟨_, rfl, congrArg (·, true) hpass.plain, ?_⟩
    intro hold
    exact (baseInit_turned hold).trans (hpass.turned trivial)

end DreamHeroes.Promotion.Calls

/-
The life cycle of a promotion, over the steps of the server.

- `start`, `step`: the server, with the methods as they call each other. `erase_run`: without the record its runs are
  those of `ShopSales`.
- `Alternating`: of every promotion, `excute(true)` and `excute(false)` have taken turns from the start, and it executes
  when `excute(true)` was the last. `alternating_reached`: this holds in every state that is reached. A timer finds the
  promotion in the state it has been armed in (`Sound`), so `exit` is called only where the promotion executes, and the
  others only where it does not.
- `lifeCycle`: the calls return, and alternate.
-/
import Mathlib.Tactic
import DreamHeroes.Promotion.Recursion
import DreamHeroes.Promotion.Timers

namespace DreamHeroes.Promotion.Calls

open DreamHeroes.Lib DreamHeroes.Common

/-! ## The server -/

variable (cfg : Config)

def methodOf : CallbackKind → Method
  | .apply => .apply
  | .excute => .excute
  | .exit => .exit

def execute (cb : Callback) : Recorder → Recorder := invoked cfg cb.promotion (methodOf cb.kind)

def dayPassAll (s : Recorder) : Recorder :=
  let s := s.world.world.shopSalesPromotions.foldl (fun s i => invoked cfg i .dayPass s) s
  onWorld s fun w => { w with lastDayPass := w.clock }

def updateAll (s : Recorder) : Recorder :=
  onWorld s fun w => { w with shopSalesPromotions := w.shopSalesPromotions.filter fun i => w.type i ≠ .destroy }

def initOne (s : Recorder) (i : ℕ) : Recorder :=
  let r := (init cfg i 6 s).getD (s, false)
  if r.2 then onWorld r.1 fun w => { w with shopSalesPromotions := w.shopSalesPromotions ++ [i] } else r.1

def initAll (s : Recorder) : Recorder := (List.range cfg.size).foldl (initOne cfg) s

def start (time : ℕ) (gold jewel : ℤ) (shopOpen : Std.TreeMap ℤ Bool) : Recorder :=
  initAll cfg { world := { world := (booted time gold jewel shopOpen).world } }

def tick (s : Recorder) (timeSpawn : ℕ) (behind : List ℕ) : Recorder :=
  let s := onWorld s fun w => { w with clock := w.clock + timeSpawn }
  if timeSpawn = 0 then s
  else (updateLoop (execute cfg) (timeSpawn % 2 ^ 32) behind (3 * s.events.length + 1) 0 s).getD s

def step (s : Recorder) : Op → Recorder
  | .tick timeSpawn behind => tick cfg s timeSpawn behind
  | .dayPass => dayPassAll cfg s
  | .update => updateAll s

/-- the calls of `excute(bool)` of one promotion -/
def callsOf (s : Recorder) (i : ℕ) : List Bool := (s.world.calls.filter fun c => c.1 = i).map Prod.snd

/-! ## Without the record -/

variable {cfg}

theorem erase_execute (cb : Callback) (s : Recorder) :
    erase (execute cfg cb s) = Promotion.execute cfg cb (erase s) := by
  have hplain := (invoked_spec cfg cb.promotion (methodOf cb.kind) s).plain
  rw [execute, hplain, Promotion.execute]
  cases cb.kind <;> rfl

theorem erase_dayPassAll (s : Recorder) : erase (dayPassAll cfg s) = Promotion.dayPassAll cfg (erase s) := by
  have hfold : erase (s.world.world.shopSalesPromotions.foldl (fun s i => invoked cfg i .dayPass s) s) =
      (erase s).world.shopSalesPromotions.foldl (fun s i => Promotion.dayPass cfg i s) (erase s) :=
    (List.foldl_hom erase fun s i => (invoked_spec cfg i .dayPass s).plain.symm).symm
  exact congrArg (fun s => mapWorld s fun w => { w with lastDayPass := w.clock }) hfold

theorem erase_initOne (s : Recorder) (i : ℕ) : erase (initOne cfg s i) = Promotion.initOne cfg (erase s) i := by
  obtain ⟨r, hr, hplain, -⟩ := init_spec cfg i s
  rw [initOne, hr, Option.getD_some, Promotion.initOne, ← hplain]
  dsimp only
  split_ifs <;> rfl

theorem erase_tick (s : Recorder) (timeSpawn : ℕ) (behind : List ℕ) :
    erase (tick cfg s timeSpawn behind) = Promotion.tick cfg (erase s) timeSpawn behind := by
  unfold tick Promotion.tick
  dsimp only
  split_ifs
  · rfl
  · rw [← Option.getD_map erase]
    exact congrArg (Option.getD · _) (updateLoop_map _ behind erase_execute _ 0 _)

theorem erase_step (s : Recorder) (op : Op) : erase (step cfg s op) = Promotion.step cfg (erase s) op := by
  cases op with
  | tick timeSpawn behind => exact erase_tick s timeSpawn behind
  | dayPass => exact erase_dayPassAll s
  | update => rfl

variable (cfg) (time : ℕ) (gold jewel : ℤ) (shopOpen : Std.TreeMap ℤ Bool)

/-- after some of the promotions have been initialised -/
def starting (n : ℕ) : Recorder :=
  (List.range n).foldl (initOne cfg) { world := { world := (booted time gold jewel shopOpen).world } }

theorem erase_starting (n : ℕ) : erase (starting cfg time gold jewel shopOpen n) =
    (List.range n).foldl (Promotion.initOne cfg) (booted time gold jewel shopOpen) :=
  (List.foldl_hom erase fun s i => (erase_initOne s i).symm).symm

theorem erase_start : erase (start cfg time gold jewel shopOpen) = Promotion.start cfg time gold jewel shopOpen :=
  erase_starting cfg time gold jewel shopOpen cfg.size

/-- **Refinement.** The runs of the server are those of the model in which the methods do not call each other. -/
theorem erase_run (ops : List Op) : erase (run (step cfg) (start cfg time gold jewel shopOpen) ops) =
    run (Promotion.step cfg) (Promotion.start cfg time gold jewel shopOpen) ops := by
  rw [← erase_start]
  exact (List.foldl_hom erase fun s op => (erase_step s op).symm).symm

/-! ## Turns -/

/-- of every promotion, `excute(true)` and `excute(false)` have taken turns, and the last says whether it executes -/
def Alternating (s : Recorder) : Prop := ∀ i, Switches false (callsOf s i) (executing s i)

variable {cfg} {time} {gold} {jewel} {shopOpen} {s t : Recorder} {i : ℕ}

theorem Alternating.change (h : Alternating s) (hcalls : t.world.calls = s.world.calls)
    (htype : t.world.world.type = s.world.world.type) : Alternating t := by
  intro i
  have hi := h i
  rw [callsOf, executing, typeOf] at hi ⊢
  rwa [hcalls, htype]

theorem callsOf_of_calls {l : List Bool} (hcalls : t.world.calls = s.world.calls ++ l.map (Prod.mk i)) (j : ℕ) :
    callsOf t j = callsOf s j ++ if i = j then l else [] := by
  rw [callsOf, hcalls, List.filter_append, List.map_append, List.filter_map]
  by_cases hij : i = j <;> simp [callsOf, Function.comp_def, hij]

theorem Alternating.turned (h : Alternating s) (hturned : Turned i s t) : Alternating t := by
  obtain ⟨l, hcalls, hturns⟩ := hturned.turns
  intro j
  rw [callsOf_of_calls hcalls]
  by_cases hij : i = j
  · subst hij
    rw [if_pos rfl]
    exact (h i).trans hturns
  · rw [if_neg hij, List.append_nil, executing, hturned.others j (Ne.symm hij)]
    exact h j

/-- the timer of a promotion finds it in the state it has been armed in -/
theorem alternating_visit (hs : Sound cfg gold jewel (erase s)) (h : Alternating s) (d k : ℕ) :
    Alternating (visit (execute cfg) d s k) := by
  rcases visit_world_cases (execute cfg) d s k with hworld | ⟨ev, hev, hpresent, halive, hworld⟩
  · exact h.change (by rw [hworld]) (by rw [hworld])
  · have hpending : Pending (erase s) ev.cb.promotion k ev := ⟨hev, halive, hpresent, rfl⟩
    have hwaits : typeOf s ev.cb.promotion = ev.cb.kind.stage := (hs.timers.owned _ k ev hpending).waits
    have hready : (methodOf ev.cb.kind).Ready (typeOf s ev.cb.promotion) := by
      rw [hwaits]
      cases ev.cb.kind <;> simp [methodOf, Method.Ready, CallbackKind.stage]
    have hexecuted := h.turned ((invoked_spec cfg ev.cb.promotion (methodOf ev.cb.kind) s).turned hready)
    exact hexecuted.change (by rw [hworld, execute]) (by rw [hworld, execute])

theorem alternating_tick (hs : Sound cfg gold jewel (erase s)) (h : Alternating s) (timeSpawn : ℕ) (behind : List ℕ) :
    Alternating (tick cfg s timeSpawn behind) := by
  have hclock : Alternating (onWorld s fun w => { w with clock := w.clock + timeSpawn }) := h.change rfl rfl
  have hsound : Sound cfg gold jewel (erase (onWorld s fun w => { w with clock := w.clock + timeSpawn })) :=
    hs.change rfl rfl rfl rfl rfl rfl hs.listed
  unfold tick
  dsimp only
  split_ifs
  · exact hclock
  · cases hloop : updateLoop (execute cfg) (timeSpawn % 2 ^ 32) behind
        (3 * (onWorld s fun w => { w with clock := w.clock + timeSpawn }).events.length + 1) 0
        (onWorld s fun w => { w with clock := w.clock + timeSpawn }) with
    | none => exact hclock
    | some s' =>
      have hvisit : ∀ (s : Recorder) (k : ℕ), Sound cfg gold jewel (erase s) ∧ Alternating s →
          Sound cfg gold jewel (erase (visit (execute cfg) (timeSpawn % 2 ^ 32) s k)) ∧
            Alternating (visit (execute cfg) (timeSpawn % 2 ^ 32) s k) := by
        intro s k hs
        refine ⟨?_, alternating_visit hs.1 hs.2 _ k⟩
        rw [erase, visit_map _ erase_execute]
        exact sound_visit hs.1 _ k
      exact (updateLoop_inv _ _ _ hvisit ⟨hsound, hclock⟩ hloop).2

/-- **One step.** -/
theorem alternating_step (hs : Sound cfg gold jewel (erase s)) (h : Alternating s) (op : Op) :
    Alternating (step cfg s op) := by
  cases op with
  | tick timeSpawn behind => exact alternating_tick hs h timeSpawn behind
  | dayPass =>
    have hfold : Alternating (s.world.world.shopSalesPromotions.foldl (fun s i => invoked cfg i .dayPass s) s) :=
      List.foldlRecOn _ _ h fun s hs i _ => hs.turned ((invoked_spec cfg i .dayPass s).turned trivial)
    exact hfold.change rfl rfl
  | update => exact h.change rfl rfl

theorem alternating_initOne (h : Alternating s) (hold : typeOf s i ≠ .excute) : Alternating (initOne cfg s i) := by
  obtain ⟨r, hr, -, hturned⟩ := init_spec cfg i s
  have hinit := h.turned (hturned hold)
  rw [initOne, hr, Option.getD_some]
  split_ifs
  · exact hinit.change rfl rfl
  · exact hinit

variable (cfg) (time) (gold) (jewel) (shopOpen)

theorem alternating_starting (n : ℕ) (hn : n ≤ cfg.size) : Alternating (starting cfg time gold jewel shopOpen n) := by
  induction n with
  | zero => exact fun i => switches_refl false
  | succ n ih =>
    have hwait : typeOf (starting cfg time gold jewel shopOpen n) n = .wait := by
      have hfresh := (sound_starting cfg time gold jewel shopOpen n (by omega)).2.wait n le_rfl
      rwa [← erase_starting] at hfresh
    have hready : typeOf (starting cfg time gold jewel shopOpen n) n ≠ .excute := by
      rw [hwait]
      decide
    rw [starting, List.range_succ, List.foldl_append]
    exact alternating_initOne (ih (by omega)) hready

/-- **Every run.** -/
theorem alternating_reached (ops : List Op) :
    Alternating (run (step cfg) (start cfg time gold jewel shopOpen) ops) := by
  have hstart : Sound cfg gold jewel (erase (start cfg time gold jewel shopOpen)) ∧
      Alternating (start cfg time gold jewel shopOpen) := by
    refine ⟨?_, alternating_starting cfg time gold jewel shopOpen cfg.size le_rfl⟩
    rw [erase_start]
    exact sound_start cfg time gold jewel shopOpen
  have hstep : ∀ (s : Recorder) (op : Op), Sound cfg gold jewel (erase s) ∧ Alternating s →
      Sound cfg gold jewel (erase (step cfg s op)) ∧ Alternating (step cfg s op) := by
    intro s op hs
    refine ⟨?_, alternating_step hs.1 hs.2 op⟩
    rw [erase_step]
    exact sound_step hs.1 op
  exact (inv_run_all hstep ops hstart).2

/-- **The life cycle.** Every call returns from every state, when calls may nest six deep; and over every run the calls
of `excute(bool)` of a promotion alternate, the first is `excute(true)`, and at every moment there has been one
`excute(false)` for each, or for each but the last. -/
theorem lifeCycle (cfg : Config) :
    (∀ i m s, ∃ t, ∀ n, 6 ≤ n → invoke cfg i n m s = some t) ∧
      (∀ i s, ∃ r, ∀ n, 6 ≤ n → init cfg i n s = some r) ∧
      ∀ time gold jewel shopOpen ops i,
        let calls := callsOf (run (step cfg) (start cfg time gold jewel shopOpen) ops) i
        calls.IsChain (· ≠ ·) ∧ (∀ b ∈ calls.head?, b = true) ∧
          ∀ pre, pre <+: calls → pre.count false ≤ pre.count true ∧ pre.count true ≤ pre.count false + 1 := by
  refine ⟨fun i m s => ⟨_, fun n hn => invoke_eq m s hn⟩, ?_, ?_⟩
  · intro i s
    obtain ⟨r, hr, -⟩ := init_spec cfg i s
    exact ⟨r, fun n hn => (init_eq cfg i s hn).trans hr⟩
  · intro time gold jewel shopOpen ops i calls
    have halternating : Switches false calls _ := alternating_reached cfg time gold jewel shopOpen ops i
    have hchain := List.isChain_cons.1 halternating.chain
    refine ⟨hchain.2, ?_, fun pre hpre => halternating.balanced hpre⟩
    intro b hb
    simpa using (hchain.1 b hb).symm

/-- one promotion, for one day of the week -/
def thursday : Config where
  size := 1
  config _ :=
    { time := { type := .week, showTime := 4, beginTime := 4, endTime := 4 }, promotion := .recharge 20 rechargeGold }

example : callsOf (run (step thursday) (start thursday 0 0 0 {}) [.tick 86400000 [], .dayPass]) 0 = [true, false] := by
  decide

end DreamHeroes.Promotion.Calls

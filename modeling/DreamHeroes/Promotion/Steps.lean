/-
What a step of the server does to one promotion.

- `tick_rule`: a property of the entry a round has come to, from the beginning of the round to its end. `tick_inv`: one
  of the state alone. `tick_frame`, `tick_other`: a round does nothing to a promotion that has no timer.
- `dayPassAll_type`: `ShopSalesPromotionManager::DayPass` does to a promotion what `DayPass` does.
- `start_promotion`: the promotions when the server has started.
-/
import Mathlib.Tactic
import DreamHeroes.Promotion.Timers

namespace DreamHeroes.Promotion

open DreamHeroes.Lib DreamHeroes.Common

variable {cfg : Config} {i : ℕ} {gold jewel : ℤ} {s : Holder}

/-! ## A round of the holder -/

def advance (s : Holder) (timeSpawn : ℕ) : Holder := mapWorld s fun w => { w with clock := w.clock + timeSpawn }

theorem sound_advance (hs : Sound cfg gold jewel s) (timeSpawn : ℕ) : Sound cfg gold jewel (advance s timeSpawn) :=
  hs.change rfl rfl rfl rfl rfl rfl hs.listed

variable {timeSpawn : ℕ} {behind : List ℕ}

/-- **A round.** -/
theorem tick_rule (hs : Sound cfg gold jewel s) (hspawn : timeSpawn ≠ 0) {I : ℕ → Holder → Prop} {F : Holder → Prop}
    (h0 : I 0 (advance s timeSpawn))
    (hend : ∀ (s : Holder) (k : ℕ), s.events.length ≤ k → Sound cfg gold jewel s → I k s → F s)
    (hnext : ∀ (s : Holder) (k : ℕ), k < s.events.length → hasNext behind s k = true → Sound cfg gold jewel s → I k s →
      I (k + 1) (visit (execute cfg) (timeSpawn % 2 ^ 32) s k))
    (hlast : ∀ (s : Holder) (k : ℕ), k < s.events.length → hasNext behind s k = false → Sound cfg gold jewel s → I k s →
      F (visit (execute cfg) (timeSpawn % 2 ^ 32) s k)) : F (tick cfg s timeSpawn behind) := by
  have hs' := sound_advance hs timeSpawn
  obtain ⟨t, ht⟩ := tick_loop hs' (timeSpawn % 2 ^ 32) behind
  have htick : tick cfg s timeSpawn behind = t := by
    rw [tick, if_neg hspawn]
    exact congrArg (fun r => Option.getD r (advance s timeSpawn)) ht
  rw [htick]
  refine updateLoop_rule _ _ _ (I := fun k s => Sound cfg gold jewel s ∧ I k s) (fun s k hk h => hend s k hk h.1 h.2) ?_
    (fun s k hk hmore h => hlast s k hk hmore h.1 h.2) ⟨hs', h0⟩ ht
  intro s k hk hmore h
  exact ⟨sound_visit h.1 _ k, hnext s k hk hmore h.1 h.2⟩

theorem tick_inv (hs : Sound cfg gold jewel s) (hspawn : timeSpawn ≠ 0) {I : Holder → Prop}
    (h0 : I (advance s timeSpawn))
    (hvisit : ∀ (s : Holder) (k : ℕ), Sound cfg gold jewel s → I s →
      I (visit (execute cfg) (timeSpawn % 2 ^ 32) s k)) : I (tick cfg s timeSpawn behind) :=
  tick_rule hs hspawn (I := fun _ => I) h0 (fun _ _ _ _ h => h) (fun s k _ _ hs h => hvisit s k hs h)
    fun s k _ _ hs h => hvisit s k hs h

theorem tick_frame (hs : Sound cfg gold jewel s) (timeSpawn : ℕ) (behind : List ℕ) :
    (tick cfg s timeSpawn behind).world.clock = s.world.clock + timeSpawn ∧
      (tick cfg s timeSpawn behind).world.lastDayPass = s.world.lastDayPass ∧
      (tick cfg s timeSpawn behind).world.shopSalesPromotions = s.world.shopSalesPromotions := by
  by_cases hspawn : timeSpawn = 0
  · subst hspawn
    exact ⟨rfl, rfl, rfl⟩
  · apply tick_inv hs hspawn (I := fun t => t.world.clock = s.world.clock + timeSpawn ∧
      t.world.lastDayPass = s.world.lastDayPass ∧ t.world.shopSalesPromotions = s.world.shopSalesPromotions)
    · exact ⟨rfl, rfl, rfl⟩
    · intro t k ht h
      obtain ⟨hclock, hlast, hlist⟩ := visit_frame ht.timers (timeSpawn % 2 ^ 32) k
      exact ⟨hclock.trans h.1, hlast.trans h.2.1, hlist.trans h.2.2⟩

/-- a promotion that has no timer stays as it is -/
theorem tick_other (hs : Sound cfg gold jewel s) (hi : ∀ k ev, ¬Pending s i k ev) (timeSpawn : ℕ) (behind : List ℕ) :
    Untouched i s (tick cfg s timeSpawn behind) := by
  by_cases hspawn : timeSpawn = 0
  · subst hspawn
    exact Untouched.refl i s
  · apply tick_inv hs hspawn (I := Untouched i s)
    · exact ⟨rfl, fun _ => Iff.rfl, fun _ _ => Iff.rfl⟩
    · intro u k hu h
      apply h.trans (visit_other hu.timers _)
      intro ev hev
      exact hi k ev ((h.pending k ev).1 hev)

/-! ## `DayPass` -/

/-- the state after `DayPass`, from what its conditions find -/
def passed (shows begins ends : Bool) : ShopSalesPromotionType → ShopSalesPromotionType
  | .wait => if shows then if begins then if ends then .destroy else .excute else .apply else .wait
  | .apply => if begins then if ends then .destroy else .excute else .apply
  | .excute => if ends then .destroy else .excute
  | .destroy => .destroy

theorem passed_again (shows begins ends : Bool) (type : ShopSalesPromotionType) :
    passed shows begins ends (passed shows begins ends type) = passed shows begins ends type := by
  cases type <;> revert shows begins ends <;> decide

theorem dayPassOutcome_type (now : ℤ) (type : ShopSalesPromotionType) :
    (dayPassOutcome cfg i now type).type = passed (shows cfg i now) (begins cfg i now) (ends cfg i now) type := by
  by_cases hnormal : (cfg.config i).time.type = .normal
  · obtain ⟨hshows, hbegins, hends⟩ := never_normal hnormal now
    simp only [dayPassOutcome, dayPassApplyOutcome, dayPassExcuteOutcome, hshows, hbegins, hends]
    cases type <;> rfl
  · have hexcute : (excuteOutcome cfg i now).type = if ends cfg i now then .destroy else .excute := by
      unfold excuteOutcome dayPassExcuteOutcome
      cases htime : (cfg.config i).time.type with
      | normal => exact absurd htime hnormal
      | week => cases ends cfg i now <;> rfl
      | openServerOffsetTime => cases ends cfg i now <;> rfl
    have happly : applyOutcome cfg i now = dayPassApplyOutcome cfg i now .apply := by
      unfold applyOutcome
      cases htime : (cfg.config i).time.type with
      | normal => exact absurd htime hnormal
      | week => rfl
      | openServerOffsetTime => rfl
    unfold dayPassOutcome
    rw [happly]
    unfold dayPassApplyOutcome dayPassExcuteOutcome
    cases type <;> cases shows cfg i now <;> cases begins cfg i now <;> cases hends : ends cfg i now <;>
      simp [passed, hexcute, hends]

theorem foldl_dayPass {l : List ℕ} (hl : ∀ j ∈ l, j < cfg.size) (s : Holder) :
    (l.foldl (fun s i => dayPass cfg i s) s).world.clock = s.world.clock ∧
      (l.foldl (fun s i => dayPass cfg i s) s).world.shopSalesPromotions = s.world.shopSalesPromotions ∧
      (l.foldl (fun s i => dayPass cfg i s) s).world.type i =
        if i ∈ l then (dayPassOutcome cfg i (serverTime s.world) (s.world.type i)).type else s.world.type i := by
  induction l generalizing s with
  | nil => exact ⟨rfl, rfl, rfl⟩
  | cons j l ih =>
    have hmoved := dayPass_moved (hl j List.mem_cons_self) s
    obtain ⟨hclock, hlist, htype⟩ := ih (fun j' hj' => hl j' (List.mem_cons_of_mem j hj')) (dayPass cfg j s)
    refine ⟨hclock.trans hmoved.clock, hlist.trans hmoved.list, ?_⟩
    rw [List.foldl_cons, htype, hmoved.now]
    by_cases hij : i = j
    · subst hij
      rw [hmoved.type_self, if_pos List.mem_cons_self, dayPassOutcome_type, dayPassOutcome_type, passed_again, ite_self]
    · rw [hmoved.type, Function.update_of_ne hij]
      simp [hij]

theorem dayPassAll_type (hs : Sound cfg gold jewel s) (i : ℕ) :
    (dayPassAll cfg s).world.type i =
      if i ∈ s.world.shopSalesPromotions then (dayPassOutcome cfg i (serverTime s.world) (s.world.type i)).type
      else s.world.type i :=
  (foldl_dayPass hs.listed s).2.2

/-- a promotion of `Time_Normal` is left alone -/
theorem dayPassAll_normal (hs : Sound cfg gold jewel s) (htime : (cfg.config i).time.type = .normal) :
    Untouched i s (dayPassAll cfg s) := by
  have hfold : ∀ (l : List ℕ), (∀ j ∈ l, j < cfg.size) → ∀ s, Sound cfg gold jewel s →
      Untouched i s (l.foldl (fun s i => dayPass cfg i s) s) := by
    intro l hl
    induction l with
    | nil => exact fun s _ => Untouched.refl i s
    | cons j l ih =>
      intro s hs
      have hj := hl j List.mem_cons_self
      have hrest := ih (fun j' hj' => hl j' (List.mem_cons_of_mem j hj')) _ (sound_dayPass hs hj)
      by_cases hij : i = j
      · subst hij
        rw [dayPass_normal htime] at hrest
        rwa [List.foldl_cons, dayPass_normal htime]
      · exact ((dayPass_moved hj s).untouched hs.timers hij).trans hrest
  have h := hfold _ hs.listed s hs
  exact ⟨h.type, h.excuted, h.pending⟩

/-! ## The start -/

/-- the promotion has been initialised, and nothing has happened to it since -/
structure Initialised (cfg : Config) (time : ℕ) (i : ℕ) (s : Holder) : Prop where
  type : s.world.type i = (initOutcome cfg i (time / 1000 : ℕ)).type
  excuted : ∀ t, (i, t) ∈ s.world.excuted ↔ (initOutcome cfg i (time / 1000 : ℕ)).excuted = true ∧ t = time
  pending : ∀ timer, (initOutcome cfg i (time / 1000 : ℕ)).timer = some timer → ∃ k, Pending s i k (newEvent i timer)
  listed : i ∈ s.world.shopSalesPromotions ∨
    ((cfg.config i).time.type = .normal ∧ (cfg.config i).time.endTime < (cfg.config i).time.showTime)

/-- the state before the promotion `n` is initialised -/
structure Starting (cfg : Config) (time n : ℕ) (s : Holder) : Prop where
  clock : s.world.clock = time
  lastDayPass : s.world.lastDayPass = time
  done : ∀ i < n, Initialised cfg time i s
  quiet : ∀ i, n ≤ i → ∀ t, (i, t) ∉ s.world.excuted

theorem Initialised.untouched {time : ℕ} {s s' : Holder} (h : Initialised cfg time i s) (hu : Untouched i s s')
    (hlist : i ∈ s.world.shopSalesPromotions → i ∈ s'.world.shopSalesPromotions) : Initialised cfg time i s' := by
  refine ⟨hu.type.trans h.type, fun t => (hu.excuted t).trans (h.excuted t), ?_, h.listed.imp hlist id⟩
  intro timer htimer
  obtain ⟨k, hk⟩ := h.pending timer htimer
  exact ⟨k, (hu.pending k _).2 hk⟩

theorem init_kept (cfg : Config) (i : ℕ) (s : Holder) : (init cfg i s).2 = true ∨
    ((cfg.config i).time.type = .normal ∧ (cfg.config i).time.endTime < (cfg.config i).time.showTime) := by
  unfold init
  dsimp only
  cases htime : (cfg.config i).time.type with
  | normal =>
    dsimp only
    split_ifs with hnever
    · exact .inr ⟨rfl, hnever⟩
    · exact .inl rfl
    · exact .inl rfl
  | week => exact .inl rfl
  | openServerOffsetTime => exact .inl rfl

theorem starting_initOne {time n : ℕ} (hs : Sound cfg gold jewel s) (hf : Fresh n s) (h : Starting cfg time n s)
    (hn : n < cfg.size) : Starting cfg time (n + 1) (initOne cfg s n) := by
  have hmoved := init_moved hn (hf.wait n le_rfl)
  have hworld : (initOne cfg s n).world.type = (init cfg n s).1.world.type ∧
      (initOne cfg s n).world.clock = (init cfg n s).1.world.clock ∧
      (initOne cfg s n).world.lastDayPass = (init cfg n s).1.world.lastDayPass ∧
      (initOne cfg s n).world.excuted = (init cfg n s).1.world.excuted ∧
      (initOne cfg s n).events = (init cfg n s).1.events ∧
      (initOne cfg s n).world.shopSalesPromotions =
        (init cfg n s).1.world.shopSalesPromotions ++ if (init cfg n s).2 then [n] else [] := by
    unfold initOne
    dsimp only
    split_ifs
    · exact ⟨rfl, rfl, rfl, rfl, rfl, rfl⟩
    · exact ⟨rfl, rfl, rfl, rfl, rfl, (List.append_nil _).symm⟩
  obtain ⟨htype, hclock, hlast, hexcuted, hevents, hlist⟩ := hworld
  have hpending : ∀ i k ev, Pending (initOne cfg s n) i k ev ↔ Pending (init cfg n s).1 i k ev := by
    intro i k ev
    rw [Pending, Pending, hevents]
  have hnow : serverTime s.world = (time / 1000 : ℕ) := by rw [serverTime, h.clock]
  rw [hnow] at hmoved
  have hother : ∀ i, i ≠ n → Untouched i s (initOne cfg s n) := by
    intro i hi
    have hu := hmoved.untouched hs.timers hi
    exact ⟨(congrFun htype i).trans hu.type, fun t => by rw [hexcuted, hu.excuted],
      fun k ev => (hpending i k ev).trans (hu.pending k ev)⟩
  refine ⟨hclock.trans (hmoved.clock.trans h.clock), hlast.trans (hmoved.lastDayPass.trans h.lastDayPass), ?_, ?_⟩
  · intro i hi
    rcases Nat.lt_succ_iff_lt_or_eq.1 hi with hlt | rfl
    · apply (h.done i hlt).untouched (hother i (by omega))
      intro hmem
      rw [hlist, hmoved.list]
      exact List.mem_append_left _ hmem
    · refine ⟨(congrFun htype i).trans hmoved.type_self, ?_, ?_, ?_⟩
      · intro t
        rw [hexcuted, hmoved.excuted, List.mem_append, h.clock]
        have hquiet := h.quiet i le_rfl t
        cases (initOutcome cfg i (time / 1000 : ℕ)).excuted <;> simp [hquiet]
      · intro timer htimer
        exact ⟨_, (hpending i _ _).2 (hmoved.pending_new htimer)⟩
      · rcases init_kept cfg i s with hkept | hnever
        · left
          rw [hlist, hkept]
          simp
        · exact .inr hnever
  · intro i hi t hmem
    exact h.quiet i (by omega) t (((hother i (by omega)).excuted t).1 hmem)

/-- **The start of the server.** -/
theorem start_promotion (cfg : Config) (time : ℕ) (gold jewel : ℤ) (shopOpen : Std.TreeMap ℤ Bool) :
    Starting cfg time cfg.size (start cfg time gold jewel shopOpen) := by
  have hall : ∀ n ≤ cfg.size,
      Starting cfg time n ((List.range n).foldl (initOne cfg) (booted time gold jewel shopOpen)) := by
    intro n
    induction n with
    | zero =>
      intro _
      refine ⟨rfl, rfl, fun i hi => absurd hi (Nat.not_lt_zero i), ?_⟩
      intro i _ t hmem
      cases hmem
    | succ n ih =>
      intro hn
      obtain ⟨hs, hf⟩ := sound_starting cfg time gold jewel shopOpen n (by omega)
      rw [List.range_succ, List.foldl_append]
      exact starting_initOne hs hf (ih (by omega)) (by omega)
  exact hall cfg.size le_rfl

end DreamHeroes.Promotion

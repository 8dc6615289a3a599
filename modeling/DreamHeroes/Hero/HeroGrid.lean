/-
The list of the heroes and the client values it is indexed with: runs of `ReqModifyCurrentHero` and `ReqBuyHero`.

- `buyHero`: `reqBuyHero` with the type of the grid. The sum `buy_grid + 1` and the size of the grown list are `int`.
- `Op`, `step`, `St`: the runs. A request that uses an index outside of the list has no defined result and leaves the
  machine as it is.
- `Bought`: what a purchase does to the list, for any length of it (`setHero_bought`).
- `CurrentOwned`: the current hero has its flag, once it has been modified. Every step keeps that (`currentOwned_step`).
- `hero_grid_iff`: every index of a run is in its bounds, and purchases and current heroes are right, exactly when no
  message names a grid in front of the first and no purchase goes through for a grid that an `int` cannot hold.

`repeated` fields check an index in debug builds only.
-/
import Mathlib.Tactic
import DreamHeroes.Lib.Machine
import DreamHeroes.Hero.Answers

namespace DreamHeroes.Hero.Grid

open DreamHeroes.Lib DreamHeroes.Config DreamHeroes.Hero.Requests

variable (cfg : GameConfig)

/-! ## Model -/

/-- the checks of `ReqBuyHero` -/
def buyAccepted (env : Env) (h : DreamHero) (grid gold : ℤ) : Bool :=
  match cfg.getShopConfig grid with
  | none => false
  | some config =>
    sectionPassed h config && decide (max (config.requireGold - env.cheapGold grid) 0 = gold) &&
      decide (0 ≤ h.info.gold - max (config.requireGold - env.cheapGold grid) 0)

def intMax : ℤ := 2 ^ 31 - 1

/-- a purchase that goes through grows the list to `grid + 2` -/
def buyHero (env : Env) (h : DreamHero) (grid gold : ℤ) : Option (DreamHero × List Ack) :=
  if buyAccepted cfg env h grid gold ∧ grid + 2 > intMax then none else reqBuyHero cfg env h grid gold

/-- `modified`: the current hero has been modified successfully -/
structure St where
  hero : DreamHero
  modified : Bool := false

inductive Op where
  | modifyCurrentHero (gridId : ℤ)
  | buyHero (env : Env) (grid gold : ℤ)

def handle (s : St) : Op → Option (DreamHero × List Ack)
  | .modifyCurrentHero gridId => reqModifyCurrentHero s.hero gridId
  | .buyHero env grid gold => buyHero cfg env s.hero grid gold

def step (s : St) (op : Op) : St :=
  match handle cfg s op with
  | none => s
  | some (h, acks) =>
    { hero := h
      modified := s.modified || match op with
        | .modifyCurrentHero _ => acks.all fun ack => ack.error = .no
        | .buyHero _ _ _ => false }

/-! ## What is right -/

/-- the grid is owned, the other heroes are as before, and the new ones are locked -/
structure Bought (heroes heroes' : List Bool) (grid : ℤ) : Prop where
  long : 0 ≤ grid ∧ grid < heroes'.length
  owned : heroes'[grid.toNat]? = some true
  kept : ∀ i : ℕ, i < heroes.length → (i : ℤ) ≠ grid → heroes'[i]? = heroes[i]?
  locked : ∀ i : ℕ, heroes.length ≤ i → i < heroes'.length → (i : ℤ) ≠ grid → heroes'[i]? = some false

/-- every index is in its bounds, and a purchase that goes through does to the list what it should -/
structure StepRight (s : St) (op : Op) : Prop where
  inBounds : (handle cfg s op).isSome = true
  bought : ∀ env grid gold, op = .buyHero env grid gold → buyAccepted cfg env s.hero grid gold = true →
    Bought s.hero.info.heroes (step cfg s op).hero.info.heroes grid

def CurrentOwned (s : St) : Prop :=
  s.modified = true → 0 ≤ s.hero.info.currentHero ∧ s.hero.info.heroes[s.hero.info.currentHero.toNat]? = some true

/-- no grid in front of the first, and no purchase of one that an `int` cannot hold the list of -/
def StepSafe (s : St) : Op → Prop
  | .modifyCurrentHero gridId => 0 ≤ gridId
  | .buyHero env grid gold => buyAccepted cfg env s.hero grid gold = true → 0 ≤ grid ∧ grid + 2 ≤ intMax

variable {cfg}

/-! ## A purchase -/

theorem setHero_bought {heroes heroes' : List Bool} {grid : ℤ} (h : setHero heroes grid = some heroes') :
    Bought heroes heroes' grid := by
  simp only [setHero] at h
  split_ifs at h with hneg hgrow
  · -- the list is grown up to the place behind the grid
    obtain rfl := Option.some.inj h
    have hlen : (grid + 1 - heroes.length + 1).toNat + heroes.length = grid.toNat + 2 := by omega
    have hlt : grid.toNat < (heroes ++ List.replicate (grid + 1 - heroes.length + 1).toNat false).length := by
      simp
      omega
    refine ⟨⟨not_lt.1 hneg, by rw [List.length_set]; omega⟩, by rw [List.getElem?_set_self hlt], ?_, ?_⟩
    · intro i hi hne
      rw [List.getElem?_set_ne (by omega), List.getElem?_append_left hi]
    · intro i hi hlen' hne
      rw [List.length_set, List.length_append, List.length_replicate] at hlen'
      rw [List.getElem?_set_ne (by omega), List.getElem?_append_right hi, List.getElem?_replicate, if_pos (by omega)]
  · obtain rfl := Option.some.inj h
    have hlt : grid.toNat < heroes.length := by omega
    refine ⟨⟨not_lt.1 hneg, by rw [List.length_set]; omega⟩, by rw [List.getElem?_set_self hlt], ?_, ?_⟩
    · intro i hi hne
      rw [List.getElem?_set_ne (by omega)]
    · intro i hi hlen hne
      rw [List.length_set] at hlen
      omega

/-- no flag that is set is lost -/
theorem Bought.keeps {heroes heroes' : List Bool} {grid : ℤ} (h : Bought heroes heroes' grid) {i : ℕ}
    (hi : heroes[i]? = some true) : heroes'[i]? = some true := by
  by_cases hgrid : (i : ℤ) = grid
  · have howned := h.owned
    rwa [← hgrid, Int.toNat_natCast] at howned
  · rw [h.kept i (List.getElem?_eq_some_iff.1 hi).1 hgrid, hi]

variable {env : Env} {h : DreamHero} {grid gold : ℤ}

theorem reqBuyHero_accepted (haccepted : buyAccepted cfg env h grid gold = true) :
    reqBuyHero cfg env h grid gold = (setHero h.info.heroes grid).map fun heroes =>
      ({ h with info := { h.info with gold := h.info.gold - gold, heroes := heroes } },
        [.buyHero grid (h.info.gold - gold) .no]) := by
  rw [buyAccepted] at haccepted
  rw [reqBuyHero]
  cases hconfig : cfg.getShopConfig grid with
  | none => simp [hconfig] at haccepted
  | some config =>
    simp only [hconfig, Bool.and_eq_true, decide_eq_true_eq] at haccepted
    obtain ⟨⟨hpassed, hprice⟩, hgold⟩ := haccepted
    simp [hpassed, hprice, not_lt.2 (hprice ▸ hgold)]

theorem reqBuyHero_rejected (hrejected : buyAccepted cfg env h grid gold = false) :
    ∃ acks, reqBuyHero cfg env h grid gold = some (h, acks) := by
  rw [buyAccepted] at hrejected
  rw [reqBuyHero]
  cases hconfig : cfg.getShopConfig grid with
  | none => exact ⟨_, rfl⟩
  | some config =>
    simp only [hconfig, Bool.and_eq_false_iff, decide_eq_false_iff_not, not_le] at hrejected
    dsimp only
    split_ifs
    · exact ⟨_, rfl⟩
    · exact ⟨_, rfl⟩
    · exact ⟨_, rfl⟩
    · simp_all

/-- what a purchase that goes through leaves -/
theorem buyHero_bought {r : DreamHero × List Ack} (haccepted : buyAccepted cfg env h grid gold = true)
    (hr : buyHero cfg env h grid gold = some r) :
    Bought h.info.heroes r.1.info.heroes grid ∧ r.1.info.currentHero = h.info.currentHero := by
  rw [buyHero, reqBuyHero_accepted haccepted] at hr
  split_ifs at hr
  obtain ⟨heroes, hheroes, rfl⟩ := Option.map_eq_some_iff.1 hr
  exact ⟨setHero_bought hheroes, rfl⟩

theorem buyHero_isSome_iff :
    (buyHero cfg env h grid gold).isSome = true ↔
      (buyAccepted cfg env h grid gold = true → 0 ≤ grid ∧ grid + 2 ≤ intMax) := by
  rw [buyHero]
  cases haccepted : buyAccepted cfg env h grid gold with
  | false =>
    obtain ⟨acks, hacks⟩ := reqBuyHero_rejected haccepted
    simp [hacks]
  | true =>
    have hdefined := setHero_eq_none_iff h.info.heroes grid
    simp only [true_and, true_imp_iff]
    split_ifs with hlarge
    · simp [not_le.2 hlarge]
    · rw [reqBuyHero_accepted haccepted, Option.isSome_map, Option.isSome_iff_ne_none, ne_eq, hdefined, not_lt]
      exact ⟨fun hle => ⟨hle, not_lt.1 hlarge⟩, fun h => h.1⟩

/-! ## One step -/

theorem reqModifyCurrentHero_isSome_iff (h : DreamHero) (gridId : ℤ) :
    (reqModifyCurrentHero h gridId).isSome = true ↔ 0 ≤ gridId := by
  simp only [reqModifyCurrentHero]
  split_ifs with hlen hneg hfree
  · simpa using hneg
  · simpa using hneg
  · simpa using hneg
  · simp
    omega

variable {s : St}

theorem stepRight_iff (s : St) (op : Op) : StepRight cfg s op ↔ StepSafe cfg s op := by
  cases op with
  | modifyCurrentHero gridId =>
    rw [StepSafe, ← reqModifyCurrentHero_isSome_iff s.hero]
    exact ⟨fun hright => hright.inBounds, fun hsafe => ⟨hsafe, fun _ _ _ heq => by cases heq⟩⟩
  | buyHero env grid gold =>
    rw [StepSafe, ← buyHero_isSome_iff]
    refine ⟨fun hright => hright.inBounds, fun hsome => ⟨hsome, ?_⟩⟩
    intro env' grid' gold' heq haccepted
    obtain ⟨rfl, rfl, rfl⟩ := Op.buyHero.inj heq
    obtain ⟨r, hr⟩ := Option.isSome_iff_exists.1 hsome
    have hstep : (step cfg s (.buyHero env grid gold)).hero = r.1 := by simp only [step, handle, hr]
    rw [hstep]
    exact (buyHero_bought haccepted hr).1

theorem currentOwned_step (hs : CurrentOwned s) (op : Op) : CurrentOwned (step cfg s op) := by
  cases op with
  | modifyCurrentHero gridId =>
    simp only [step, handle, reqModifyCurrentHero]
    split_ifs with hlen hneg hfree
    · exact hs
    · -- the grid of the message is free
      intro _
      refine ⟨not_lt.1 hneg, ?_⟩
      show s.hero.info.heroes[gridId.toNat]? = some true
      rw [List.getD_eq_getElem?_getD] at hfree
      cases hget : s.hero.info.heroes[gridId.toNat]? with
      | none => simp [hget] at hfree
      | some b => simpa [hget] using hfree
    · simpa [CurrentOwned, Ack.error] using hs
    · simpa [CurrentOwned, Ack.error] using hs
  | buyHero env grid gold =>
    cases hr : buyHero cfg env s.hero grid gold with
    | none => simpa only [step, handle, hr] using hs
    | some r =>
      have hstep : step cfg s (.buyHero env grid gold) = { hero := r.1, modified := s.modified } := by
        simp [step, handle, hr]
      rw [hstep]
      intro hmodified
      obtain ⟨hnonneg, howned⟩ := hs hmodified
      cases haccepted : buyAccepted cfg env s.hero grid gold with
      | true =>
        obtain ⟨hbought, hcurrent⟩ := buyHero_bought haccepted hr
        show 0 ≤ r.1.info.currentHero ∧ r.1.info.heroes[r.1.info.currentHero.toNat]? = some true
        rw [hcurrent]
        exact ⟨hnonneg, hbought.keeps howned⟩
      | false =>
        obtain ⟨acks, hacks⟩ := reqBuyHero_rejected haccepted
        rw [buyHero, hacks, haccepted] at hr
        simp only [Bool.false_eq_true, false_and, if_false, Option.some.injEq] at hr
        subst hr
        exact ⟨hnonneg, howned⟩

/-! ## Runs -/

/-- **Hero grid.** In a run from any hero, every index is in its bounds, every purchase does what it should and the
current hero is owned in every state, exactly when the messages are safe. -/
theorem hero_grid_iff (cfg : GameConfig) (h : DreamHero) (ops : List Op) :
    (Along (step cfg) (StepRight cfg) { hero := h } ops ∧
        ∀ pre, pre <+: ops → CurrentOwned (run (step cfg) { hero := h } pre)) ↔
      Along (step cfg) (StepSafe cfg) { hero := h } ops := by
  have hstart : CurrentOwned { hero := h } := fun hmodified => by cases hmodified
  constructor
  · rintro ⟨hright, -⟩
    exact hright.imp (I := fun _ => True) (fun _ _ _ _ => trivial) (fun s op _ => (stepRight_iff s op).1) trivial
  · intro hsafe
    refine ⟨hsafe.imp (I := fun _ => True) (fun _ _ _ _ => trivial) (fun s op _ => (stepRight_iff s op).2) trivial, ?_⟩
    intro pre _
    exact inv_run_all (I := CurrentOwned) (fun s op hs => currentOwned_step hs op) pre hstart

/-- the grid -1 on a hero with one free grid -/
theorem negative_grid :
    ¬(Along (step {}) (StepRight {}) { hero := { info := { heroes := [true] } } } [.modifyCurrentHero (-1)] ∧
      ∀ pre, pre <+: [.modifyCurrentHero (-1)] →
        CurrentOwned (run (step {}) { hero := { info := { heroes := [true] } } } pre)) := by
  rintro ⟨⟨hright, -⟩, -⟩
  exact absurd hright.inBounds (by decide)

end DreamHeroes.Hero.Grid

/-
The daily prize is granted once: along which runs of all heroes.

- `Accounted`: what a player's times say about the prizes it got. The periods of the grants are different and over; a
  period that the times leave open has no grant.
- `Accounted.tryToGet`, `Accounted.endPeriod` and the others: what keeps it, in terms of the times alone.
- `PrizeOk`: `Destroy` does not save, so a hero that is deleted must have its two times and the amount in its row.
- `prizeInv_step`, `daily_prize_once`: along runs that meet it, every hero of the rank list gets the prize of its rank
  for the period, in memory or in its row, and nobody gets two for one period. `prize_twice` is a hero whose session
  goes, which is saved, gets its prize and is deleted.
-/
import Mathlib.Tactic
import DreamHeroes.Lib.Machine
import DreamHeroes.Lib.KeyedList
import DreamHeroes.Hero.DailyPrize

namespace DreamHeroes.Hero.Prize

open DreamHeroes.Lib DreamHeroes.Config DreamHeroes.Rank DreamHeroes.Hero.Requests

/-! ## One player -/

/-- the amount a player has not received is that of the last grant -/
def Held (d : Daily) (grants : List Grant) : Prop := d.gold = 0 ∨ ∃ g, grants.getLast? = some g ∧ d.gold = g.gold

/-- `listed`: the player is in the rank list of the period that began at `beginTime` -/
structure Accounted (beginTime : ℕ) (listed : Prop) (d : Daily) (grants : List Grant) : Prop where
  once : (grants.map (·.period)).Nodup
  past : ∀ g ∈ grants, g.period < beginTime
  gameTime : d.gameTime ≤ beginTime
  prizeTime : d.prizeTime < beginTime
  listed : listed → d.gameTime = beginTime
  ungranted : d.gameTime ≠ d.prizeTime → ∀ g ∈ grants, g.period ≠ d.gameTime
  held : Held d grants

variable {beginTime : ℕ} {listed : Prop} {d d' : Daily} {grants : List Grant}

/-- a new player -/
theorem Accounted.new (hpos : 0 < beginTime) (hlisted : ¬ listed) :
    Accounted beginTime listed { gameTime := 0, prizeTime := 0, gold := 0 } [] :=
  ⟨List.nodup_nil, fun _ hg => absurd hg List.not_mem_nil, hpos.le, hpos, fun h => absurd h hlisted,
    fun hne => absurd rfl hne, .inl rfl⟩

theorem Accounted.imp (h : Accounted beginTime listed d grants) {listed' : Prop} (hlisted : listed' → listed) :
    Accounted beginTime listed' d grants :=
  ⟨h.once, h.past, h.gameTime, h.prizeTime, fun hl => h.listed (hlisted hl), h.ungranted, h.held⟩

/-- the times stay; the amount stays or is received -/
theorem Accounted.same (h : Accounted beginTime listed d grants) (hgame : d'.gameTime = d.gameTime)
    (hprize : d'.prizeTime = d.prizeTime) (hgold : d'.gold = d.gold ∨ d'.gold = 0) :
    Accounted beginTime listed d' grants := by
  refine ⟨h.once, h.past, hgame ▸ h.gameTime, hprize ▸ h.prizeTime, ?_, ?_, ?_⟩
  · rw [hgame]
    exact h.listed
  · rw [hgame, hprize]
    exact h.ungranted
  · rcases hgold with heq | hzero
    · rw [Held, heq]
      exact h.held
    · exact .inl hzero

/-- the running period has no grant yet -/
theorem Accounted.takesPart (h : Accounted beginTime listed d grants) (listed' : Prop) :
    Accounted beginTime listed' { d with gameTime := beginTime } grants :=
  ⟨h.once, h.past, le_rfl, h.prizeTime, fun _ => rfl, fun _ g hg => (h.past g hg).ne, h.held⟩

theorem caughtUp_self (d : Daily) : caughtUp d d = [] := if_neg (not_not.2 rfl)

/-- one more period -/
theorem nodup_period_snoc (h : (grants.map (·.period)).Nodup) {g : Grant} (hnew : ∀ g' ∈ grants, g'.period ≠ g.period) :
    ((grants ++ [g]).map (·.period)).Nodup := by
  rw [List.map_append]
  refine List.nodup_append.2 ⟨h, List.nodup_singleton _, ?_⟩
  intro a ha b hb
  obtain ⟨g', hg', rfl⟩ := List.mem_map.1 ha
  rw [List.map_singleton, List.mem_singleton] at hb
  exact hb ▸ hnew g' hg'

theorem Accounted.tryToGet (h : Accounted beginTime listed d grants) (prize : ℤ) :
    Accounted beginTime listed (d.tryToGet beginTime prize) (grants ++ caughtUp d (d.tryToGet beginTime prize)) := by
  rw [Daily.tryToGet]
  split
  case isTrue hprize =>
    obtain ⟨hbegin, -, hopen⟩ := hprize
    have hcaught : caughtUp d { d with prizeTime := d.gameTime, gold := prize } = [⟨d.gameTime, prize⟩] := if_pos hopen
    have hlt : d.gameTime < beginTime := lt_of_le_of_ne h.gameTime (Ne.symm hbegin)
    rw [hcaught]
    refine ⟨nodup_period_snoc h.once (h.ungranted hopen), ?_, h.gameTime, hlt, h.listed,
      fun hne => absurd rfl hne, .inr ⟨_, List.getLast?_concat, rfl⟩⟩
    intro g hg
    rcases List.mem_append.1 hg with hold | hnew
    · exact h.past g hold
    · rw [List.mem_singleton.1 hnew]
      exact hlt
  case isFalse =>
    rw [caughtUp_self, List.append_nil]
    exact h

/-- another period begins -/
theorem Accounted.later (h : Accounted beginTime listed d grants) {beginTime' : ℕ} (hlt : beginTime < beginTime') :
    Accounted beginTime' False d grants :=
  ⟨h.once, fun g hg => (h.past g hg).trans hlt, h.gameTime.trans hlt.le, h.prizeTime.trans hlt, False.elim, h.ungranted,
    h.held⟩

/-- the prize of a ranked player; the two times are left equal -/
theorem Accounted.ranked (h : Accounted beginTime listed d grants) {beginTime' time : ℕ} (hlt : beginTime < beginTime')
    (htime : time ≤ beginTime) (prizeGold : ℤ) :
    Accounted beginTime' False { gameTime := time, prizeTime := time, gold := prizeGold }
      (grants ++ [⟨beginTime, prizeGold⟩]) := by
  have hle : time < beginTime' := htime.trans_lt hlt
  refine ⟨nodup_period_snoc h.once fun g hg => (h.past g hg).ne, ?_, hle.le, hle, False.elim,
    fun hne => absurd rfl hne, .inr ⟨_, List.getLast?_concat, rfl⟩⟩
  intro g hg
  rcases List.mem_append.1 hg with hold | hnew
  · exact (h.past g hold).trans hlt
  · rw [List.mem_singleton.1 hnew]
    exact hlt

/-! ## The end of a period -/

variable {cfg : GameConfig} {out : Outside}

/-- a player whose hero, if any, has its account, and so its row -/
structure Player.Owned (acc : ℕ) (p : Player) : Prop where
  hero : ∀ hero, p.hero = some hero → hero.account = acc
  row : ∀ row, p.row = some row → row.accountId = acc

theorem Player.daily_none {p : Player} (h : p.hero = none) : p.daily out = rowDaily out p.row := by
  rw [Player.daily, h]

theorem Player.daily_some {p : Player} {hero : DreamHero} (h : p.hero = some hero) : p.daily out = heroDaily hero := by
  rw [Player.daily, h]

/-- what the first loop does to a ranked player, in memory or not -/
theorem Player.dailyGamePrize_spec (hclock : ∀ t, out.unixTimestamp (out.time t) = t) {acc : ℕ} {p : Player}
    (howned : p.Owned acc) (h : Accounted beginTime listed (p.daily out) p.grants) (hlisted : listed)
    (hpos : 0 < beginTime) (prizeGold : ℤ) :
    let p' := p.dailyGamePrize out beginTime prizeGold
    p'.Owned acc ∧ p'.grants = p.grants ++ [⟨beginTime, prizeGold⟩] ∧
      ∃ time ≤ beginTime, p'.daily out = { gameTime := time, prizeTime := time, gold := prizeGold } := by
  have hgame := h.listed hlisted
  have hprize := h.prizeTime
  intro p'
  cases hhero : p.hero with
  | some hero =>
    rw [Player.daily_some hhero] at hgame hprize
    have hne : hero.dailyGamePrizeTime ≠ hero.dailyGameTime := fun heq =>
      absurd hprize (not_lt.2 (hgame.symm.trans heq.symm).le)
    obtain ⟨haccount, hdaily⟩ := heroDaily_dailyGamePrize (h := hero) prizeGold
    have hp' : p' = { p with hero := some (Requests.dailyGamePrize hero prizeGold),
                             grants := p.grants ++ [⟨beginTime, prizeGold⟩] } := by
      simp only [p', Player.dailyGamePrize, hhero, if_pos hne]
    rw [hp']
    refine ⟨⟨?_, howned.row⟩, rfl, hero.dailyGamePrizeTime, hprize.le, ?_⟩
    · intro hero' hhero'
      cases hhero'
      exact haccount.trans (howned.hero hero hhero)
    · rw [Player.daily_some rfl, hdaily, if_pos hne]
      rfl
  | none =>
    rw [Player.daily_none hhero] at hgame hprize
    cases hrow : p.row with
    | none =>
      rw [hrow] at hgame
      exact absurd hgame hpos.ne
    | some row =>
      rw [hrow] at hgame hprize
      have hp' : p' = { p with row := some { row with dailyGameGold := prizeGold,
                                                      dailyGamePrizeTime := out.time beginTime },
                               grants := p.grants ++ [⟨beginTime, prizeGold⟩] } := by
        simp only [p', Player.dailyGamePrize, hhero, hrow, Option.map_some, Option.isSome_some, if_true]
      have hnone : p'.hero = none := by
        rw [hp']
        exact hhero
      refine ⟨⟨hp' ▸ howned.hero, ?_⟩, by rw [hp'], beginTime, le_rfl, ?_⟩
      · intro row' hrow'
        rw [hp'] at hrow'
        cases hrow'
        exact howned.row row hrow
      · rw [Player.daily_none hnone, hp', rowDaily, hclock]
        exact congrArg (fun t => Daily.mk t beginTime prizeGold) hgame

/-- nothing, or what `TryToGetGamePrize` does -/
def CatchesUp (out : Outside) (beginTime : ℕ) (p p' : Player) : Prop :=
  (p'.daily out = p.daily out ∧ p'.grants = p.grants) ∨
    ∃ prize, p'.daily out = (p.daily out).tryToGet beginTime prize ∧
      p'.grants = p.grants ++ caughtUp (p.daily out) ((p.daily out).tryToGet beginTime prize)

theorem Accounted.catchesUp {p p' : Player} (h : Accounted beginTime listed (p.daily out) p.grants)
    (hp' : CatchesUp out beginTime p p') : Accounted beginTime listed (p'.daily out) p'.grants := by
  rcases hp' with ⟨hdaily, hgrants⟩ | ⟨prize, hdaily, hgrants⟩
  · rw [hdaily, hgrants]
    exact h
  · rw [hdaily, hgrants]
    exact h.tryToGet prize

/-- saving leaves the hero as it is -/
theorem Player.saveHero_spec (out : Outside) {acc : ℕ} {p : Player} (howned : p.Owned acc) :
    (p.saveHero out).Owned acc ∧ (p.saveHero out).daily out = p.daily out ∧ (p.saveHero out).grants = p.grants := by
  rw [Player.saveHero]
  split
  case h_1 hero hhero =>
    refine ⟨⟨howned.hero, ?_⟩, ?_, rfl⟩
    · intro row hrow
      cases hrow
      exact howned.hero hero hhero
    · simp only [Player.daily, hhero]
  case h_2 => exact ⟨howned, rfl, rfl⟩

variable (beginTime cfg out) in
/-- `TryToGetGamePrize` for every hero in memory -/
theorem Player.tryToGetGamePrize_spec {acc : ℕ} {p : Player} (howned : p.Owned acc) :
    (p.tryToGetGamePrize cfg beginTime).Owned acc ∧ CatchesUp out beginTime p (p.tryToGetGamePrize cfg beginTime) := by
  rw [Player.tryToGetGamePrize]
  cases hhero : p.hero with
  | none => exact ⟨howned, .inl ⟨rfl, rfl⟩⟩
  | some hero =>
    obtain ⟨haccount, prize, hdaily⟩ := heroDaily_tryToGetGamePrize cfg hero beginTime
    refine ⟨⟨?_, howned.row⟩, .inr ⟨prize, ?_, ?_⟩⟩
    · intro hero' hhero'
      cases hhero'
      exact haccount.trans (howned.hero hero hhero)
    · rw [Player.daily_some hhero, Player.daily_some rfl, hdaily]
    · dsimp only
      rw [Player.daily_some hhero, hdaily]

/-- `SendClientInit` at the end of a login changes neither the account nor the times -/
theorem Player.sendClientInit_spec (cfg : GameConfig) (out : Outside) (env : Env) {acc : ℕ} {p : Player}
    (howned : p.Owned acc) {hero : DreamHero} (hhero : p.hero = some hero) :
    let p' := { p with hero := p.hero.map (dayRefresh cfg env) }
    p'.Owned acc ∧ p'.daily out = p.daily out ∧ p'.grants = p.grants := by
  obtain ⟨haccount, hdaily⟩ := heroDaily_dayRefresh cfg env hero
  intro p'
  have hp' : p'.hero = some (dayRefresh cfg env hero) := by
    simp only [p', hhero, Option.map_some]
  refine ⟨⟨?_, howned.row⟩, ?_, rfl⟩
  · intro hero' hhero'
    rw [hp'] at hhero'
    cases hhero'
    exact haccount.trans (howned.hero hero hhero)
  · rw [Player.daily_some hp', Player.daily_some hhero, hdaily]

/-- a hero in memory is as it was, one from a row catches up, a new one has the zeros of no row -/
theorem Player.login_spec (cfg : GameConfig) (out : Outside) (env : Env) {acc : ℕ} (beginTime : ℕ) (name : String)
    (channel : ℤ) {p : Player} (howned : p.Owned acc) :
    (p.login cfg out env acc beginTime name channel).Owned acc ∧
      CatchesUp out beginTime p (p.login cfg out env acc beginTime name channel) := by
  -- the hero the session has before `SendClientInit`
  have hinit : ∀ p1 : Player, ∀ hero, p1.hero = some hero → p1.Owned acc → CatchesUp out beginTime p p1 →
      let p' := { p1 with hero := p1.hero.map (dayRefresh cfg env) }
      p'.Owned acc ∧ CatchesUp out beginTime p p' := by
    intro p1 hero hhero howned1 hcatch
    obtain ⟨howned', hdaily, hgrants⟩ := Player.sendClientInit_spec cfg out env howned1 hhero
    refine ⟨howned', ?_⟩
    rw [CatchesUp, hdaily]
    exact hcatch
  rw [Player.login]
  cases hhero : p.hero with
  | some hero => exact hinit p hero hhero howned (.inl ⟨rfl, rfl⟩)
  | none =>
    cases hrow : p.row with
    | some row =>
      obtain ⟨haccount, prize, hdaily⟩ :=
        heroDaily_setInfo cfg out out.spiritRecovery env.serverTime beginTime row channel
      refine hinit _ _ rfl ⟨?_, ?_⟩ (.inr ⟨prize, ?_, ?_⟩)
      · intro hero' hhero'
        cases hhero'
        exact haccount.trans (howned.row row hrow)
      · dsimp only
        exact hrow ▸ howned.row
      · rw [Player.daily_none hhero, hrow, Player.daily_some rfl, hdaily]
      · rw [Player.daily_none hhero, hrow, ← hdaily]
    | none =>
      refine hinit _ _ rfl ⟨?_, ?_⟩ (.inl ⟨?_, rfl⟩)
      · intro hero' hhero'
        cases hhero'
        rfl
      · dsimp only
        exact hrow ▸ howned.row
      · rw [Player.daily_none hhero, hrow, Player.daily_some rfl]
        rfl

/-- with equal times there is nothing to catch up -/
theorem Daily.tryToGet_equal (time : ℕ) (gold prize : ℤ) :
    (Daily.mk time time gold).tryToGet beginTime prize = Daily.mk time time gold := if_neg fun h => h.2.2 rfl

/-- a ranked player over the end of the period -/
theorem Player.endPeriod_ranked (cfg : GameConfig) (hclock : ∀ t, out.unixTimestamp (out.time t) = t) {acc : ℕ}
    {p : Player} (howned : p.Owned acc) (h : Accounted beginTime listed (p.daily out) p.grants) (hlisted : listed)
    (hpos : 0 < beginTime) {beginTime' : ℕ} (hlt : beginTime < beginTime') (prizeGold : ℤ) :
    let p' := (p.dailyGamePrize out beginTime prizeGold).tryToGetGamePrize cfg beginTime
    p'.Owned acc ∧ p'.grants = p.grants ++ [⟨beginTime, prizeGold⟩] ∧ (p'.daily out).gold = prizeGold ∧
      Accounted beginTime' False (p'.daily out) p'.grants := by
  obtain ⟨howned1, hgrants1, time, htime, hdaily1⟩ := Player.dailyGamePrize_spec hclock howned h hlisted hpos prizeGold
  obtain ⟨howned2, htry⟩ := Player.tryToGetGamePrize_spec beginTime cfg out howned1
  intro p'
  have hsame : p'.daily out = { gameTime := time, prizeTime := time, gold := prizeGold } ∧
      p'.grants = p.grants ++ [⟨beginTime, prizeGold⟩] := by
    rw [CatchesUp, hdaily1, hgrants1] at htry
    rcases htry with ⟨hdaily, hgrants⟩ | ⟨prize, hdaily, hgrants⟩
    · exact ⟨hdaily, hgrants⟩
    · rw [Daily.tryToGet_equal] at hdaily hgrants
      rw [caughtUp_self, List.append_nil] at hgrants
      exact ⟨hdaily, hgrants⟩
  obtain ⟨hdaily, hgrants⟩ := hsame
  rw [hdaily, hgrants]
  exact ⟨howned2, rfl, rfl, h.ranked hlt htime prizeGold⟩

/-- a player that is not in the rank list, over the end of the period -/
theorem Player.endPeriod_other (cfg : GameConfig) {acc : ℕ} {p : Player} (howned : p.Owned acc)
    (h : Accounted beginTime listed (p.daily out) p.grants) {beginTime' : ℕ} (hlt : beginTime < beginTime') :
    let p' := p.tryToGetGamePrize cfg beginTime
    p'.Owned acc ∧ Accounted beginTime' False (p'.daily out) p'.grants := by
  obtain ⟨howned1, htry⟩ := Player.tryToGetGamePrize_spec beginTime cfg out howned
  exact ⟨howned1, (h.catchesUp htry).later hlt⟩

/-! ## Runs -/

def accounts (s : St) : List ℕ := s.ranks.heroesDailyRank.map DailyGameRankTg.acc

structure PrizeInv (out : Outside) (s : St) : Prop where
  numbered : Numbered s.ranks.heroesDailyRank
  pos : 0 < s.ranks.dailyGameBeginTime
  owned : ∀ acc, (s.players acc).Owned acc
  accounted : ∀ acc,
    Accounted s.ranks.dailyGameBeginTime (acc ∈ accounts s) ((s.players acc).daily out) (s.players acc).grants

/-- what an operation must find -/
def PrizeOk (cfg : GameConfig) (out : Outside) (s : St) : Op → Prop
  | .client acc env req =>
    ∀ hero, (s.players acc).hero = some hero → Defined cfg { env with serverTime := s.now } hero req
  | .dailyGameUpdate => s.ranks.dailyGameBeginTime < s.now ∧ s.now < 2 ^ 32
  | .destroy acc => ∀ hero, (s.players acc).hero = some hero → rowDaily out (s.players acc).row = heroDaily hero
  | _ => True

/-- a player in the list after the two loops, and any other player -/
theorem dailyGameUpdate_listed (cfg : GameConfig) (out : Outside) {s : St} (h : Numbered s.ranks.heroesDailyRank)
    {entry : DailyGameRankTg} (hentry : entry ∈ s.ranks.heroesDailyRank) :
    (dailyGameUpdate cfg out s).players entry.acc =
      ((s.players entry.acc).dailyGamePrize out s.ranks.dailyGameBeginTime
        (getDailyGamePrize cfg entry.rank)).tryToGetGamePrize cfg s.ranks.dailyGameBeginTime := by
  have hloop := foldl_update_mem DailyGameRankTg.acc
    (fun entry p => Player.dailyGamePrize out s.ranks.dailyGameBeginTime (getDailyGamePrize cfg entry.rank) p)
    h.accounts s.players hentry
  exact congrArg (Player.tryToGetGamePrize cfg s.ranks.dailyGameBeginTime) hloop

theorem dailyGameUpdate_other (cfg : GameConfig) (out : Outside) {s : St} {acc : ℕ} (hacc : acc ∉ accounts s) :
    (dailyGameUpdate cfg out s).players acc = (s.players acc).tryToGetGamePrize cfg s.ranks.dailyGameBeginTime := by
  have hloop := foldl_update_notMem DailyGameRankTg.acc
    (fun entry p => Player.dailyGamePrize out s.ranks.dailyGameBeginTime (getDailyGamePrize cfg entry.rank) p)
    s.players hacc
  exact congrArg (Player.tryToGetGamePrize cfg s.ranks.dailyGameBeginTime) hloop

/-- the end of a period: everybody is settled, and the ranked players have their prizes -/
theorem PrizeInv.endPeriod (hclock : ∀ t, out.unixTimestamp (out.time t) = t) {s : St} (h : PrizeInv out s)
    (hok : PrizeOk cfg out s .dailyGameUpdate) :
    PrizeInv out (dailyGameUpdate cfg out s) ∧ ∀ entry ∈ s.ranks.heroesDailyRank,
      (((dailyGameUpdate cfg out s).players entry.acc).daily out).gold = getDailyGamePrize cfg entry.rank ∧
        ((dailyGameUpdate cfg out s).players entry.acc).grants =
          (s.players entry.acc).grants ++ [⟨s.ranks.dailyGameBeginTime, getDailyGamePrize cfg entry.rank⟩] := by
  have hbegin : (dailyGameUpdate cfg out s).ranks.dailyGameBeginTime = s.now := by
    have hu32 : u32 s.now = s.now := by
      have hlt := hok.2
      simp only [u32]
      omega
    exact hu32
  have hlisted : ∀ entry ∈ s.ranks.heroesDailyRank, entry.acc ∈ accounts s := fun entry hentry =>
    List.mem_map_of_mem hentry
  have hranked := fun entry (hentry : entry ∈ s.ranks.heroesDailyRank) =>
    Player.endPeriod_ranked cfg hclock (h.owned entry.acc) (h.accounted entry.acc) (hlisted entry hentry) h.pos hok.1
      (getDailyGamePrize cfg entry.rank)
  have hother := fun acc => Player.endPeriod_other cfg (h.owned acc) (h.accounted acc) hok.1
  have hplayers : ∀ acc, ((dailyGameUpdate cfg out s).players acc).Owned acc ∧
      Accounted s.now False (((dailyGameUpdate cfg out s).players acc).daily out)
        ((dailyGameUpdate cfg out s).players acc).grants := by
    intro acc
    by_cases hacc : acc ∈ accounts s
    · obtain ⟨entry, hentry, rfl⟩ := List.mem_map.1 hacc
      rw [dailyGameUpdate_listed cfg out h.numbered hentry]
      exact ⟨(hranked entry hentry).1, (hranked entry hentry).2.2.2⟩
    · rw [dailyGameUpdate_other cfg out hacc]
      exact hother acc
  refine ⟨⟨⟨rfl, List.nodup_nil⟩, ?_, fun acc => (hplayers acc).1, ?_⟩, ?_⟩
  · rw [hbegin]
    exact Nat.zero_lt_of_lt hok.1
  · intro acc
    have hnobody : (acc ∈ accounts (dailyGameUpdate cfg out s)) = False := eq_false List.not_mem_nil
    rw [hbegin, hnobody]
    exact (hplayers acc).2
  · intro entry hentry
    rw [dailyGameUpdate_listed cfg out h.numbered hentry]
    exact ⟨(hranked entry hentry).2.2.1, (hranked entry hentry).2.1⟩

/-- an operation on one player, which may bring the player into the rank list -/
theorem PrizeInv.change {s : St} (h : PrizeInv out s) (acc : ℕ) (f : Player → Player) {ranks : RankManager}
    (hnumbered : Numbered ranks.heroesDailyRank) (hbegin : ranks.dailyGameBeginTime = s.ranks.dailyGameBeginTime)
    (haccounts : ∀ acc' ∈ ranks.heroesDailyRank.map DailyGameRankTg.acc, acc' ∈ accounts s ∨ acc' = acc)
    (howned : (f (s.players acc)).Owned acc)
    (haccounted : Accounted s.ranks.dailyGameBeginTime (acc ∈ ranks.heroesDailyRank.map DailyGameRankTg.acc)
      ((f (s.players acc)).daily out) (f (s.players acc)).grants) :
    PrizeInv out { s.change acc f with ranks := ranks } := by
  refine ⟨hnumbered, hbegin.symm ▸ h.pos, ?_, ?_⟩
  · intro acc'
    by_cases hacc : acc' = acc
    · rw [hacc]
      dsimp only
      rw [change_self]
      exact howned
    · dsimp only
      rw [change_ne s hacc]
      exact h.owned acc'
  · intro acc'
    dsimp only
    rw [hbegin]
    by_cases hacc : acc' = acc
    · rw [hacc, change_self]
      exact haccounted
    · rw [change_ne s hacc]
      exact (h.accounted acc').imp fun hmem => (haccounts acc' hmem).resolve_right hacc

/-- an operation on one player, which leaves the rank list alone -/
theorem PrizeInv.changePlayer {s : St} (h : PrizeInv out s) (acc : ℕ) (f : Player → Player)
    (howned : (f (s.players acc)).Owned acc)
    (haccounted : Accounted s.ranks.dailyGameBeginTime (acc ∈ accounts s) ((f (s.players acc)).daily out)
      (f (s.players acc)).grants) : PrizeInv out (s.change acc f) :=
  h.change acc f h.numbered rfl (fun _ hmem => .inl hmem) howned haccounted

/-- a request -/
theorem PrizeInv.client {s : St} (h : PrizeInv out s) (acc : ℕ) (env : Env) (req : ClientRequest) :
    PrizeInv out (step cfg out s (.client acc env req)) := by
  rw [step]
  split
  case h_1 => exact h
  case h_2 hero hhero =>
    have haccounted := h.accounted acc
    rw [Player.daily_some hhero] at haccounted
    split
    case h_1 hero' ranks answers hr =>
      rcases handleClient_daily hr with ⟨hranks, hsame⟩ | htakes
      · subst hranks
        refine h.changePlayer acc (fun p => { p with hero := some hero' }) ⟨?_, (h.owned acc).row⟩ ?_
        · intro h' hh'
          cases hh'
          exact hsame.account.trans ((h.owned acc).hero hero hhero)
        · exact haccounted.same hsame.gameTime hsame.prizeTime hsame.gold
      · have howner := (h.owned acc).hero hero hhero
        have hdaily : heroDaily hero' = { heroDaily hero with gameTime := s.ranks.dailyGameBeginTime } := htakes.daily
        refine h.change acc _ ?_ ?_ ?_ ⟨?_, (h.owned acc).row⟩ ?_
        · rcases htakes.ranks with rfl | ⟨name, score, rfl⟩
          · exact h.numbered
          · exact update_numbered _ name h.numbered
        · rcases htakes.ranks with rfl | ⟨name, score, rfl⟩
          · rfl
          · exact update_beginTime _ name
        · intro acc' hacc'
          rcases htakes.ranks with rfl | ⟨name, score, rfl⟩
          · exact .inl hacc'
          · exact (update_accounts _ name acc' hacc').imp_right fun heq => heq.trans howner
        · intro h' hh'
          cases hh'
          exact htakes.account.trans howner
        · rw [Player.daily_some rfl, hdaily]
          exact haccounted.takesPart _
    case h_2 => exact h

theorem prizeInv_step (hclock : ∀ t, out.unixTimestamp (out.time t) = t) (s : St) (o : Op) (h : PrizeInv out s)
    (hok : PrizeOk cfg out s o) : PrizeInv out (step cfg out s o) := by
  cases o with
  | pass d => exact ⟨h.numbered, h.pos, h.owned, h.accounted⟩
  | client acc env req => exact h.client acc env req
  | dailyGameUpdate => exact (h.endPeriod hclock hok).1
  | saveHero acc =>
    obtain ⟨howned, hdaily, hgrants⟩ := Player.saveHero_spec out (h.owned acc)
    apply h.changePlayer acc (Player.saveHero out) howned
    rw [hdaily, hgrants]
    exact h.accounted acc
  | destroy acc =>
    have haccounted := h.accounted acc
    have hnone : ∀ hero, (none : Option DreamHero) = some hero → hero.account = acc := fun _ heq => by cases heq
    refine h.changePlayer acc (fun p => { p with hero := none }) ⟨hnone, (h.owned acc).row⟩ ?_
    -- the times in memory are those of the row
    have hsaved : rowDaily out (s.players acc).row = (s.players acc).daily out := by
      cases hhero : (s.players acc).hero with
      | none => rw [Player.daily_none hhero]
      | some hero => rw [Player.daily_some hhero, hok hero hhero]
    rw [Player.daily_none rfl, hsaved]
    exact haccounted
  | login acc env name channel =>
    obtain ⟨howned, hcatch⟩ :=
      Player.login_spec cfg out { env with serverTime := s.now } s.ranks.dailyGameBeginTime name
      channel (h.owned acc)
    exact h.changePlayer acc _ howned ((h.accounted acc).catchesUp hcatch)

/-! ## Grants stay -/

theorem mem_grants_change {s : St} {acc acc' : ℕ} (f : Player → Player) {g : Grant} (hg : g ∈ (s.players acc').grants)
    (hf : ∀ p : Player, g ∈ p.grants → g ∈ (f p).grants) : g ∈ ((s.change acc f).players acc').grants := by
  by_cases hacc : acc' = acc
  · rw [hacc, change_self]
    exact hf _ (hacc ▸ hg)
  · rw [change_ne s hacc]
    exact hg

theorem mem_grants_tryToGetGamePrize {p : Player} {g : Grant} (hg : g ∈ p.grants) :
    g ∈ (p.tryToGetGamePrize cfg beginTime).grants := by
  rw [Player.tryToGetGamePrize]
  split
  · exact List.mem_append_left _ hg
  · exact hg

theorem mem_grants_dailyGamePrize {p : Player} {g : Grant} (prizeGold : ℤ) (hg : g ∈ p.grants) :
    g ∈ (p.dailyGamePrize out beginTime prizeGold).grants := by
  rw [Player.dailyGamePrize]
  split <;> exact List.mem_append_left _ hg

theorem mem_grants_login {env : Env} {acc : ℕ} {name : String} {channel : ℤ} {p : Player} {g : Grant}
    (hg : g ∈ p.grants) : g ∈ (p.login cfg out env acc beginTime name channel).grants := by
  rw [Player.login]
  dsimp only
  split
  · exact hg
  · exact List.mem_append_left _ hg
  · exact hg

theorem mem_grants_step (s : St) (o : Op) {acc : ℕ} {g : Grant} (hg : g ∈ (s.players acc).grants) :
    g ∈ ((step cfg out s o).players acc).grants := by
  cases o with
  | pass d => exact hg
  | client acc' env req =>
    rw [step]
    split
    · exact hg
    · split
      case h_1 hero' ranks answers hr =>
        exact mem_grants_change (fun p => { p with hero := some hero' }) hg fun _ hp => hp
      case h_2 => exact hg
  | dailyGameUpdate =>
    apply mem_grants_tryToGetGamePrize
    induction s.ranks.heroesDailyRank using List.reverseRecOn with
    | nil => exact hg
    | append_singleton l entry ih =>
      rw [List.foldl_append, List.foldl_cons, List.foldl_nil]
      by_cases hacc : acc = entry.acc
      · rw [hacc, Function.update_self]
        exact mem_grants_dailyGamePrize _ (hacc ▸ ih)
      · rw [Function.update_of_ne hacc]
        exact ih
  | saveHero acc' =>
    apply mem_grants_change (Player.saveHero out) hg
    intro p hp
    rw [Player.saveHero]
    split <;> exact hp
  | destroy acc' => exact mem_grants_change (fun p => { p with hero := none }) hg fun _ hp => hp
  | login acc' env name channel => exact mem_grants_change _ hg fun _ hp => mem_grants_login hp

/-! ## The prize -/

/-- a hero that is saved when it is deleted meets the condition -/
theorem destroy_saved (cfg : GameConfig) (hclock : ∀ t, out.unixTimestamp (out.time t) = t) (s : St) (acc : ℕ) :
    PrizeOk cfg out (step cfg out s (.saveHero acc)) (.destroy acc) := by
  intro hero hhero
  rw [step, change_self, Player.saveHero] at hhero ⊢
  cases hold : (s.players acc).hero with
  | none =>
    rw [hold] at hhero
    exact absurd (hold.symm.trans hhero) (Option.some_ne_none hero).symm
  | some hero' =>
    rw [hold] at hhero
    cases hhero
    exact rowDaily_characterRow hclock

/-- the prizes of the period that ends in the state `s`, in a later state -/
structure PrizedOnce (cfg : GameConfig) (out : Outside) (s final : St) : Prop where
  /-- the rank of an entry is its place -/
  rank : ∀ (i : ℕ) (entry : DailyGameRankTg), s.ranks.heroesDailyRank[i]? = some entry → entry.rank = 1 + (i : ℤ)
  /-- at the end of the period the hero has the prize, in memory or in its row -/
  paid : ∀ entry ∈ s.ranks.heroesDailyRank,
    (((dailyGameUpdate cfg out s).players entry.acc).daily out).gold = getDailyGamePrize cfg entry.rank
  /-- and it never gets another one for the period -/
  granted : ∀ entry ∈ s.ranks.heroesDailyRank,
    ((final.players entry.acc).grants.filter fun g => g.period = s.ranks.dailyGameBeginTime) =
      [⟨s.ranks.dailyGameBeginTime, getDailyGamePrize cfg entry.rank⟩]
  once : ∀ acc, ((final.players acc).grants.map (·.period)).Nodup
  held : ∀ acc, Held ((final.players acc).daily out) (final.players acc).grants

theorem prizeInv_start (out : Outside) (ranks : RankManager) {now : ℕ} (hnow : 0 < now) :
    PrizeInv out (start ranks now) := by
  have hnobody : ∀ acc, (start ranks now).players acc = {} := fun _ => rfl
  refine ⟨⟨rfl, List.nodup_nil⟩, hnow, ?_, ?_⟩
  · intro acc
    rw [hnobody]
    exact ⟨fun hero h => absurd h (Option.some_ne_none hero).symm, fun row h => absurd h (Option.some_ne_none row).symm⟩
  · intro acc
    rw [hnobody]
    exact Accounted.new hnow List.not_mem_nil

/-- **The daily prize.** In a run that meets `PrizeOk`, at the end of every period: whoever is in the rank list has the
prize of its rank then, in memory or in its row, and exactly this one for the period ever after; and no player gets two
prizes for one period. -/
theorem daily_prize_once (cfg : GameConfig) (out : Outside) (hclock : ∀ t, out.unixTimestamp (out.time t) = t)
    (ranks : RankManager) (now : ℕ) (hnow : 0 < now) (pre post : List Op)
    (hops : Along (step cfg out) (PrizeOk cfg out) (start ranks now) (pre ++ .dailyGameUpdate :: post)) :
    PrizedOnce cfg out (run (step cfg out) (start ranks now) pre)
      (run (step cfg out) (start ranks now) (pre ++ .dailyGameUpdate :: post)) := by
  obtain ⟨hpre, hend, -⟩ := (along_append (step cfg out) (PrizeOk cfg out) (start ranks now) pre _).1 hops
  have hs := inv_run (prizeInv_step hclock) (prizeInv_start out ranks hnow) hpre
  have hfinal := inv_run (prizeInv_step hclock) (prizeInv_start out ranks hnow) hops
  set s := run (step cfg out) (start ranks now) pre
  obtain ⟨-, hprizes⟩ := hs.endPeriod hclock hend
  refine ⟨?_, fun entry hentry => (hprizes entry hentry).1, ?_,
    fun acc => (hfinal.accounted acc).once, fun acc => (hfinal.accounted acc).held⟩
  · intro i entry hentry
    have hrank := congrArg (·[i]?) hs.numbered.ranks
    have hi := (List.getElem?_eq_some_iff.1 hentry).1
    simp only [List.getElem?_map, hentry, List.getElem?_range hi, Option.map_some, Option.some.injEq] at hrank
    exact hrank
  · intro entry hentry
    set g : Grant := ⟨s.ranks.dailyGameBeginTime, getDailyGamePrize cfg entry.rank⟩
    have hend' : g ∈ ((dailyGameUpdate cfg out s).players entry.acc).grants := by
      rw [(hprizes entry hentry).2]
      exact List.mem_append_right _ List.mem_cons_self
    have hpost : g ∈ ((run (step cfg out) (dailyGameUpdate cfg out s) post).players entry.acc).grants :=
      inv_run_all (I := fun s' => g ∈ (s'.players entry.acc).grants) (fun s' o hg => mem_grants_step s' o hg) post hend'
    rw [run_append] at hfinal ⊢
    exact filter_key (hfinal.accounted entry.acc).once hpost

/-- 100 for the first, 50 for the second -/
def twoPrizes : GameConfig where
  dailyGamePrizeConfigs :=
    [{ beginRank := 1, endRank := 1, prizeGold := 100 }, { beginRank := 2, endRank := 2, prizeGold := 50 }]

def tenRanks : RankManager where
  dailyMaxRankSize := 10
  minDailyScore := 0
  maxDailyProgress := 10

/-- two new heroes play, the second with the lower score; then the second is saved, and a second passes -/
def twoPlay : List Op :=
  [.login 1 {} "a" 0, .login 2 {} "b" 0,
    .client 1 {} (.updateDailyGameProgress { dailyGameProgress := 1, score := 20, hpPct := 100, anger := 0 }),
    .client 2 {} (.updateDailyGameProgress { dailyGameProgress := 1, score := 10, hpPct := 100, anger := 0 }),
    .saveHero 2, .pass 1]

/-- the second is deleted before the end of the period and comes back after it -/
theorem daily_prize_offline :
    let pre := twoPlay ++ [.destroy 2]
    let post : List Op := [.login 2 {} "b" 0]
    PrizedOnce twoPrizes plainOutside (run (step twoPrizes plainOutside) (start tenRanks 1) pre)
      (run (step twoPrizes plainOutside) (start tenRanks 1) (pre ++ .dailyGameUpdate :: post)) := by
  intro pre post
  apply daily_prize_once twoPrizes plainOutside plainOutside_clock tenRanks 1 (by decide) pre post
  refine ⟨trivial, trivial, fun _ _ => trivial, fun _ _ => trivial, trivial, trivial, ?_,
    ⟨by decide, by decide⟩, trivial, trivial⟩
  exact fun hero hhero => by
    cases hhero
    decide

/-- the second is deleted after the end of the period without being saved again: it gets 50, and then 100 -/
theorem prize_twice :
    let post : List Op := [.destroy 2, .login 2 {} "b" 0]
    ¬ PrizedOnce twoPrizes plainOutside (run (step twoPrizes plainOutside) (start tenRanks 1) twoPlay)
      (run (step twoPrizes plainOutside) (start tenRanks 1) (twoPlay ++ .dailyGameUpdate :: post)) := by
  intro post hprized
  exact absurd (hprized.once 2) (by decide)

end DreamHeroes.Hero.Prize

/-
The prize of the daily game, over all heroes: who is in memory, what is in `character`, and the rank list.

- `Player`: the hero of an account in memory, its row, and, as bookkeeping, the prizes that were granted to it.
- `dailyGameUpdate`: the end of a period. The ranked heroes first, in memory or by a statement; then `TryToGetGamePrize`
  for every hero in memory, still with the old begin time.
- `Op`, `step`: the machine. `SaveHero` and `Destroy` are operations of their own, as in the code.
- `Daily`: what the grants rest on. A player has it in memory or, without a hero, in its row (`Player.daily`).
- `heroDaily_setInfo` and the others: what the code does to it.
-/
import Mathlib.Tactic
import DreamHeroes.Hero.HeroRun
import DreamHeroes.Hero.RequestFrame
import DreamHeroes.Hero.RequestEffects

namespace DreamHeroes.Hero.Prize

open DreamHeroes.Lib DreamHeroes.Config DreamHeroes.Rank DreamHeroes.Hero.Requests

/-! ## Players -/

/-- an amount given to `daily_game_gold`, for the period that began at `period` -/
structure Grant where
  period : ℕ
  gold : ℤ
deriving DecidableEq, Repr

structure Player where
  hero : Option DreamHero := none
  row : Option CharacterRow := none
  grants : List Grant := []

/-- the two times and the amount -/
structure Daily where
  gameTime : ℕ
  prizeTime : ℕ
  gold : ℤ
deriving DecidableEq, Repr

variable (cfg : GameConfig) (out : Outside)

def heroDaily (h : DreamHero) : Daily where
  gameTime := h.dailyGameTime
  prizeTime := h.dailyGamePrizeTime
  gold := h.info.dailyGameGold

/-- without a row a hero is made with zeros -/
def rowDaily : Option CharacterRow → Daily
  | some row =>
    { gameTime := out.unixTimestamp row.dailyGameTime, prizeTime := out.unixTimestamp row.dailyGamePrizeTime,
      gold := row.dailyGameGold }
  | none => { gameTime := 0, prizeTime := 0, gold := 0 }

def Player.daily (p : Player) : Daily :=
  match p.hero with
  | some hero => heroDaily hero
  | none => rowDaily out p.row

/-- bookkeeping: `TryToGetGamePrize` has given a prize when the prize time is another one -/
def caughtUp (before after : Daily) : List Grant :=
  if after.prizeTime ≠ before.prizeTime then [⟨before.gameTime, after.gold⟩] else []

/-- a round of the loop of `DailyGameUpdate` over the rank list -/
def Player.dailyGamePrize (beginTime : ℕ) (prizeGold : ℤ) (p : Player) : Player :=
  match p.hero with
  | some hero =>
    { p with
      hero := some (Requests.dailyGamePrize hero prizeGold)
      grants := p.grants ++ if hero.dailyGamePrizeTime ≠ hero.dailyGameTime then [⟨beginTime, prizeGold⟩] else [] }
  | none =>
    { p with
      row := p.row.map fun row => { row with dailyGameGold := prizeGold, dailyGamePrizeTime := out.time beginTime }
      grants := p.grants ++ if p.row.isSome then [⟨beginTime, prizeGold⟩] else [] }

def Player.tryToGetGamePrize (beginTime : ℕ) (p : Player) : Player :=
  match p.hero with
  | some hero =>
    let hero' := Hero.tryToGetGamePrize cfg beginTime hero
    { p with hero := some hero', grants := p.grants ++ caughtUp (heroDaily hero) (heroDaily hero') }
  | none => p

def Player.saveHero (p : Player) : Player :=
  match p.hero with
  | some hero => { p with row := some (characterRow out.time hero) }
  | none => p

/-- a session finds the hero, or makes it from the row or from the configuration; then `SendClientInit` -/
def Player.login (env : Env) (acc beginTime : ℕ) (name : String) (channel : ℤ) (p : Player) : Player :=
  let p := match p.hero, p.row with
    | some _, _ => p
    | none, some row =>
      let hero :=
        setInfo cfg out.spiritRecovery env.serverTime beginTime (dbDoQueryHeroInfo out.unixTimestamp row) channel
      { p with hero := some hero, grants := p.grants ++ caughtUp (rowDaily out p.row) (heroDaily hero) }
    | none, none => { p with hero := some (loadFromConfig cfg name channel { account := acc }) }
  { p with hero := p.hero.map (dayRefresh cfg env) }

/-! ## The machine -/

structure St where
  now : ℕ
  ranks : RankManager
  players : ℕ → Player := fun _ => {}

def St.change (s : St) (acc : ℕ) (f : Player → Player) : St :=
  { s with players := Function.update s.players acc (f (s.players acc)) }

theorem change_self (s : St) (acc : ℕ) (f : Player → Player) : (s.change acc f).players acc = f (s.players acc) :=
  Function.update_self acc _ s.players

theorem change_ne (s : St) {acc acc' : ℕ} (h : acc' ≠ acc) (f : Player → Player) :
    (s.change acc f).players acc' = s.players acc' := Function.update_of_ne h _ s.players

/-- `RankManager::DailyGameUpdate` -/
def dailyGameUpdate (s : St) : St :=
  let beginTime := s.ranks.dailyGameBeginTime
  let players := s.ranks.heroesDailyRank.foldl (fun players entry =>
    Function.update players entry.acc
      ((players entry.acc).dailyGamePrize out beginTime (getDailyGamePrize cfg entry.rank))) s.players
  { s with
    players := fun acc => (players acc).tryToGetGamePrize cfg beginTime
    ranks := { clearRankList s.ranks with dailyGameBeginTime := u32 s.now } }

inductive Op where
  | pass (d : ℕ)
  /-- a request of a client whose hero is in memory -/
  | client (acc : ℕ) (env : Env) (req : ClientRequest)
  | dailyGameUpdate
  | saveHero (acc : ℕ)
  | destroy (acc : ℕ)
  | login (acc : ℕ) (env : Env) (name : String) (channel : ℤ)

def step (s : St) : Op → St
  | .pass d => { s with now := s.now + d }
  | .client acc env req =>
    match (s.players acc).hero with
    | none => s
    | some hero =>
      match handleClient cfg { env with serverTime := s.now } s.ranks hero req with
      | some (hero', ranks, _) => { s.change acc fun p => { p with hero := some hero' } with ranks := ranks }
      | none => s
  | .dailyGameUpdate => dailyGameUpdate cfg out s
  | .saveHero acc => s.change acc (Player.saveHero out)
  | .destroy acc => s.change acc fun p => { p with hero := none }
  | .login acc env name channel =>
    s.change acc (Player.login cfg out { env with serverTime := s.now } acc s.ranks.dailyGameBeginTime name channel)

/-- the server has begun its first period, and nobody has played -/
def start (ranks : RankManager) (now : ℕ) : St :=
  { now := now, ranks := { clearRankList ranks with dailyGameBeginTime := now } }

/-! ## What a request does -/

/-- the account and the times stay; the amount stays or is received -/
structure SameDaily (h h' : DreamHero) : Prop where
  account : h'.account = h.account
  gameTime : h'.dailyGameTime = h.dailyGameTime
  prizeTime : h'.dailyGamePrizeTime = h.dailyGamePrizeTime
  gold : h'.info.dailyGameGold = h.info.dailyGameGold ∨ h'.info.dailyGameGold = 0

variable {cfg out} {env : Env} {h : DreamHero}

theorem SameDaily.rfl : SameDaily h h := ⟨Eq.refl _, Eq.refl _, Eq.refl _, .inl (Eq.refl _)⟩

theorem SameDaily.trans {h h' h'' : DreamHero} (h1 : SameDaily h h') (h2 : SameDaily h' h'') : SameDaily h h'' := by
  refine ⟨h2.account.trans h1.account, h2.gameTime.trans h1.gameTime, h2.prizeTime.trans h1.prizeTime, ?_⟩
  rcases h2.gold with heq | hzero
  · rw [heq]
    exact h1.gold
  · exact .inr hzero

theorem handle_daily {req : Request} {r : DreamHero × List Ack} (hr : handle cfg env h req = some r) :
    SameDaily h r.1 := by
  have of_written {s : Steady} (hw : Written h req s) : s.account = h.account ∧ s.dailyGameTime = h.dailyGameTime ∧
      s.dailyGamePrizeTime = h.dailyGamePrizeTime ∧
        (s.dailyGameGold = h.info.dailyGameGold ∨ s.dailyGameGold = 0) := by
    cases hw with
    | received => exact ⟨rfl, rfl, rfl, .inr rfl⟩
    | _ => exact ⟨rfl, rfl, rfl, .inl rfl⟩
  obtain ⟨haccount, hgameTime, hprizeTime, hgold⟩ := of_written (handle_handled hr).written
  exact ⟨haccount, hgameTime, hprizeTime, hgold⟩

theorem reqExitGame_daily (msg : MsgC2SReqExitGame) : SameDaily h (reqExitGame cfg h msg).1 := by
  rw [reqExitGame]
  cases exitError h msg <;> exact ⟨rfl, rfl, rfl, .inl rfl⟩

/-- the hero takes part in the running period, and may come into the rank list -/
structure TakesPart (ranks : RankManager) (serverTime : ℕ) (h h' : DreamHero) (ranks' : RankManager) : Prop where
  account : h'.account = h.account
  daily : heroDaily h' = { heroDaily h with gameTime := ranks.dailyGameBeginTime }
  ranks : ranks' = ranks ∨ ∃ name score, ranks' = (updateHeroDailyRank ranks serverTime h.account name score).1

theorem beginDailyGame_daily (ranks : RankManager) :
    (beginDailyGame ranks h).account = h.account ∧
      heroDaily (beginDailyGame ranks h) = { heroDaily h with gameTime := ranks.dailyGameBeginTime } := by
  rw [beginDailyGame]
  split
  case isTrue => exact ⟨rfl, rfl⟩
  case isFalse hsame =>
    rw [ne_eq, not_not] at hsame
    rw [hsame]
    exact ⟨rfl, rfl⟩

theorem reqUpdateDailyGameProgress_takesPart (ranks : RankManager) (serverTime : ℕ)
    (msg : MsgC2SReqUpdateDailyGameProgress) :
    TakesPart ranks serverTime h (reqUpdateDailyGameProgress serverTime ranks h msg).1
      (reqUpdateDailyGameProgress serverTime ranks h msg).2.1 := by
  obtain ⟨haccount, hdaily⟩ := beginDailyGame_daily (h := h) ranks
  rw [reqUpdateDailyGameProgress]
  cases updateProgressError ranks (beginDailyGame ranks h) msg with
  | no =>
    refine ⟨haccount, hdaily, .inr ⟨(beginDailyGame ranks h).info.name, msg.score, ?_⟩⟩
    rw [← haccount]
    rfl
  | _ => exact ⟨haccount, hdaily, .inl rfl⟩

theorem handleClient_daily {ranks ranks' : RankManager} {req : ClientRequest} {h' : DreamHero} {answers : List Answer}
    (hr : handleClient cfg env ranks h req = some (h', ranks', answers)) :
    (ranks' = ranks ∧ SameDaily h h') ∨ TakesPart ranks env.serverTime h h' ranks' := by
  cases req with
  | request req =>
    obtain ⟨r, hreq, heq⟩ := Option.map_eq_some_iff.1 hr
    cases heq
    exact .inl ⟨rfl, handle_daily hreq⟩
  | exitGame msg =>
    cases hr
    exact .inl ⟨rfl, reqExitGame_daily msg⟩
  | updateDailyGameProgress msg =>
    cases hr
    exact .inr (reqUpdateDailyGameProgress_takesPart ranks env.serverTime msg)
  | modifyNewTutorial flag =>
    cases hr
    exact .inl ⟨rfl, rfl, rfl, rfl, .inl rfl⟩
  | modifyNotifyGridState state =>
    cases hr
    exact .inl ⟨rfl, rfl, rfl, rfl, .inl rfl⟩

/-! ## What the server does -/

/-- the prize of `TryToGetGamePrize`, whatever the amount -/
def Daily.tryToGet (beginTime : ℕ) (prize : ℤ) (d : Daily) : Daily :=
  if beginTime ≠ d.gameTime ∧ d.gameTime ≠ 0 ∧ d.gameTime ≠ d.prizeTime then
    { d with prizeTime := d.gameTime, gold := prize }
  else d

variable (cfg h) in
theorem heroDaily_tryToGetGamePrize (beginTime : ℕ) :
    (tryToGetGamePrize cfg beginTime h).account = h.account ∧
      ∃ prize, heroDaily (tryToGetGamePrize cfg beginTime h) = (heroDaily h).tryToGet beginTime prize := by
  refine ⟨?_, getDailyGamePrize cfg (h.info.dailyGameProgress + 1), ?_⟩
  · simp only [tryToGetGamePrize]
    split_ifs <;> rfl
  · by_cases hprize : beginTime ≠ h.dailyGameTime ∧ h.dailyGameTime ≠ 0 ∧ h.dailyGameTime ≠ h.dailyGamePrizeTime
    · rw [tryToGetGamePrize, if_pos hprize.1, if_pos hprize.2]
      exact (if_pos hprize).symm
    · have hsame : tryToGetGamePrize cfg beginTime h = h := by
        rw [tryToGetGamePrize]
        split_ifs with hbegin hopen
        · exact absurd ⟨hbegin, hopen⟩ hprize
        · rfl
        · rfl
      rw [hsame]
      exact (if_neg hprize).symm

variable (cfg env h) in
theorem heroDaily_dayRefresh :
    (dayRefresh cfg env h).account = h.account ∧ heroDaily (dayRefresh cfg env h) = heroDaily h := by
  simp only [dayRefresh, refreshTasks]
  split_ifs <;> exact ⟨rfl, rfl⟩

variable (cfg out) in
theorem heroDaily_setInfo (spiritRecovery : ℕ → ℕ → ℤ × ℕ) (serverTime beginTime : ℕ) (row : CharacterRow)
    (channel : ℤ) :
    let hero := setInfo cfg spiritRecovery serverTime beginTime (dbDoQueryHeroInfo out.unixTimestamp row) channel
    hero.account = row.accountId ∧ ∃ prize, heroDaily hero = (rowDaily out (some row)).tryToGet beginTime prize := by
  intro hero
  -- everything before the last step of `set_info`
  have hlast : ∀ loaded : DreamHero, hero = tryToGetGamePrize cfg beginTime loaded →
      loaded.account = row.accountId → heroDaily loaded = rowDaily out (some row) →
      hero.account = row.accountId ∧ ∃ prize, heroDaily hero = (rowDaily out (some row)).tryToGet beginTime prize := by
    intro loaded heq haccount hdaily
    obtain ⟨hkept, prize, hprize⟩ := heroDaily_tryToGetGamePrize cfg loaded beginTime
    rw [heq, ← hdaily]
    exact ⟨hkept.trans haccount, prize, hprize⟩
  apply hlast _ rfl
  · simp only [newDailyGame, recoverOffline]
    split_ifs <;> rfl
  · simp only [newDailyGame, recoverOffline]
    split_ifs <;> rfl

theorem heroDaily_dailyGamePrize (prizeGold : ℤ) :
    (dailyGamePrize h prizeGold).account = h.account ∧
      heroDaily (dailyGamePrize h prizeGold) =
        if h.dailyGamePrizeTime ≠ h.dailyGameTime then
          { heroDaily h with gameTime := h.dailyGamePrizeTime, gold := prizeGold }
        else heroDaily h := by
  rw [dailyGamePrize]
  split_ifs <;> exact ⟨rfl, rfl⟩

theorem rowDaily_characterRow (hclock : ∀ t, out.unixTimestamp (out.time t) = t) :
    rowDaily out (some (characterRow out.time h)) = heroDaily h := by
  rw [rowDaily, heroDaily, characterRow]
  dsimp only
  rw [hclock, hclock]

end DreamHeroes.Hero.Prize

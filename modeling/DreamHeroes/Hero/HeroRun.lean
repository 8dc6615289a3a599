/-
The life of one hero: the requests of its client, the commands of game masters, what the server does to it on its
timers, and how it goes to the database and comes back.

- `dayRefresh`, `dailyGamePrize`, `recoverSpirit`: what the server does to a hero in memory.
- `Command`, `command`: the commands of a game master, without that to enter an instance, which is a `Request`.
- `Op`, `step`: the machine. A clock, the hero, its row in `character`, and the answers its client has got.

`reload` is the hero from its row, whenever the row was written: `Destroy` does not save. What deals add is taken as any
amount. A request without a defined result leaves the machine as it is; the theorems about runs exclude it.
-/
import Mathlib.Tactic
import DreamHeroes.Hero.ClientRequests
import DreamHeroes.Hero.LoadHero

namespace DreamHeroes.Hero.Requests

open DreamHeroes.Lib DreamHeroes.Config DreamHeroes.Rank

variable (cfg : GameConfig) (env : Env) (h : DreamHero)

/-! ## The server -/

/-- another game day for the tasks, or for the spirit that is bought -/
def canRefresh (time : ℕ) : Bool := time == 0 || !cfg.today env.serverTime time

/-- a task for the free place, when there is one -/
def refreshTasks : DreamHero :=
  let h := { h with currentTaskCount := 0 }
  if (h.info.tasks.length : ℤ) < cfg.globalConfig.heroMaxTasksCount then
    let taskConfigEntry := radnomTaskInfo cfg env h 0
    if taskConfigEntry.taskid ≠ 0 then
      let entry : MsgTaskInfo := { taskid := taskConfigEntry.taskid, argument1 := 0, usetime := 0 }
      { h with info := { h.info with tasks := h.info.tasks ++ [entry] } }
    else h
  else h

def dayRefresh : DreamHero :=
  let h := if canRefresh cfg env h.lastTaskAdvertisementTime then refreshTasks cfg env h else h
  if canRefresh cfg env h.lastBuySpiritTime then { h with info := { h.info with dayBuySpirit := 0 } } else h

/-- of a ranked hero in memory, at the end of a period; the game time takes the value of the prize time -/
def dailyGamePrize (gold : ℤ) : DreamHero :=
  if h.dailyGamePrizeTime ≠ h.dailyGameTime then
    { h with dailyGameTime := h.dailyGamePrizeTime, info := { h.info with dailyGameGold := gold } }
  else h

def recoverSpirit : DreamHero :=
  let g := cfg.globalConfig
  let spirit :=
    if h.info.spirit < g.configMaxSpirit then min (h.info.spirit + g.configRecoverSpirit) g.configMaxSpirit
    else h.info.spirit
  { h with info := { h.info with spirit := spirit }, lastRecoverSpiritTime := u32 env.serverTime }

/-! ## The commands of a game master -/

inductive Command where
  | modifyJewel (jewel : ℤ)
  | modifySpirit (spirit : ℤ)
  | modifyGold (gold : ℤ)
  | modifyTaskCompleteCount (count : ℤ)
  | replaceTask (taskCount : ℤ)
  | setSpecialCreatureHis (creatureId status : ℤ)
  | removeSpecialCreatureListHis
  | resetMap (chapterId sectionId : ℤ)
  | resetDailyLottery
  | resetDailyGame
  | resetConcernWeiXin
  /-- `name` is the one that `generateName` gives -/
  | resetGame (name : String)
deriving DecidableEq, Repr

/-- the loop of `ReqReplaceTask`: one draw for each task -/
def replaceTasks (taskCount : ℕ) : DreamHero :=
  (List.range taskCount).foldl (fun h i =>
    let infoTaskConfig := radnomTaskInfo cfg { env with rand := fun _ => env.rand i } h 0
    let entry : MsgTaskInfo := { taskid := infoTaskConfig.taskid, argument1 := 0, usetime := 0 }
    if infoTaskConfig.taskid ≠ 0 then { h with info := { h.info with tasks := h.info.tasks ++ [entry] } } else h)
    { h with info := { h.info with tasks := [] } }

/-- nothing but the tasks is written -/
theorem replaceTasks_tasks (taskCount : ℕ) :
    ∃ tasks, replaceTasks cfg env h taskCount = { h with info := { h.info with tasks := tasks } } := by
  rw [replaceTasks]
  induction taskCount with
  | zero => exact ⟨[], rfl⟩
  | succ n ih =>
    obtain ⟨tasks, htasks⟩ := ih
    rw [List.range_succ, List.foldl_append, List.foldl_cons, List.foldl_nil, htasks]
    dsimp only
    split_ifs
    · exact ⟨_, rfl⟩
    · exact ⟨tasks, rfl⟩

/-- the conversion of an `int` to the `size_t` it is compared with -/
def toSizeT (n : ℤ) : ℕ := (n % 2 ^ 64).toNat

def reqReplaceTask (taskCount : ℤ) : DreamHero :=
  replaceTasks cfg env h (toSizeT (min taskCount cfg.globalConfig.heroMaxTasksCount))

/-- what a command does to the hero, once the level of the game master has been tested -/
def runCommand : Command → DreamHero
  | .modifyJewel jewel => { h with info := { h.info with jewel := h.info.jewel + jewel } }
  | .modifySpirit spirit => { h with info := { h.info with spirit := h.info.spirit + spirit } }
  | .modifyGold gold => { h with info := { h.info with gold := max (h.info.gold + gold) 0 } }
  | .modifyTaskCompleteCount count => { h with info := { h.info with completeTaskCount := max count 0 } }
  | .replaceTask taskCount => reqReplaceTask cfg env h taskCount
  | .setSpecialCreatureHis creatureId status =>
    { h with specialCreatures := h.specialCreatures.insert creatureId status }
  | .removeSpecialCreatureListHis => { h with specialCreatures := {} }
  | .resetMap chapterId sectionId => { h with specialKills := h.specialKills.erase (chapterId, sectionId) }
  | .resetDailyLottery => { h with lastDayLotteryTime := 0 }
  | .resetDailyGame =>
    { h with
      dailyGameTime := 0, dailyGamePrizeTime := 0, lastDailyResetGameTime := 0,
      info := { h.info with dailyGameHpPct := 100, dailyGameAnger := 0, dailyGameProgress := 0,
                            dailyGameRecordProgress := 0, dailyResetGameCount := 0, dailyGameScore := 0 } }
  | .resetConcernWeiXin => { h with info := { h.info with concernWeixin := false } }
  | .resetGame name => loadFromConfig cfg name h.channel h

def command (cmd : Command) : DreamHero := if h.gmLevel > 0 then runCommand cfg env h cmd else h

/-! ## The machine -/

/-- an answer, with its time and the jewel that the hero has spent -/
structure Event where
  time : ℕ
  answer : Answer
  spentJewel : ℤ
deriving DecidableEq, Repr

/-- `beginTime` is the beginning of the period of the daily game, as the rank list has it -/
structure St where
  now : ℕ
  beginTime : ℕ
  hero : DreamHero
  row : Option CharacterRow := none
  log : List Event := []

inductive Op where
  | pass (d : ℕ)
  | client (env : Env) (ranks : RankManager) (req : ClientRequest)
  | command (env : Env) (cmd : Command)
  | setGMLevel (level : ℤ)
  /-- what the deals change -/
  | deals (gold jewel : ℤ) (dealsWaitToPay : Std.TreeMap ℤ DealWaitToPay)
  | recoverSpirit
  /-- the day refresh of the server; `SendClientInit` of a session that finds the hero in memory is this too -/
  | dayRefresh (env : Env)
  /-- the end of a period, with the prize of a ranked hero -/
  | dailyGameUpdate (prize : Option ℤ)
  /-- the statement for a ranked hero that is not in memory, of the period that began at `beginTime` -/
  | offlinePrize (beginTime : ℕ) (prizeGold : ℤ)
  | saveHero
  /-- the hero is deleted, and a session makes it again; `name` is for a new hero, `env` for `SendClientInit` -/
  | reload (env : Env) (name : String) (channel : ℤ)

/-- what the world outside the hero provides: the two conversions of times, and the recovery of the spirit -/
structure Outside where
  time : ℕ → String
  unixTimestamp : String → ℕ
  spiritRecovery : ℕ → ℕ → ℤ × ℕ

/-- times that are their own text, and no recovery -/
def plainOutside : Outside where
  time t := toString (t : ℤ)
  unixTimestamp s := (atoi s).toNat
  spiritRecovery _ last := (0, last)

theorem plainOutside_clock (t : ℕ) : plainOutside.unixTimestamp (plainOutside.time t) = t := by
  rw [plainOutside]
  dsimp only
  rw [atoi_toString, Int.toNat_natCast]

variable (out : Outside)

/-- the object a session makes from the row, or from the configuration when there is none -/
def loadHero (s : St) (name : String) (channel : ℤ) : DreamHero :=
  match s.row with
  | some row =>
    setInfo cfg out.spiritRecovery s.now s.beginTime (dbDoQueryHeroInfo out.unixTimestamp row) channel
  | none => loadFromConfig cfg name channel { account := s.hero.account }

def step (s : St) : Op → St
  | .pass d => { s with now := s.now + d }
  | .client env ranks req =>
    match handleClient cfg { env with serverTime := s.now }
      { ranks with dailyGameBeginTime := s.beginTime } s.hero req with
    | some (hero, _, answers) =>
      { s with hero := hero,
               log := s.log ++ answers.map fun answer => ⟨s.now, answer, s.hero.info.jewel - hero.info.jewel⟩ }
    | none => s
  | .command env cmd => { s with hero := command cfg { env with serverTime := s.now } s.hero cmd }
  | .setGMLevel level => { s with hero := { s.hero with gmLevel := level } }
  | .deals gold jewel dealsWaitToPay =>
    { s with hero := { s.hero with
        info := { s.hero.info with gold := gold, jewel := jewel }, dealsWaitToPay := dealsWaitToPay } }
  | .recoverSpirit => { s with hero := recoverSpirit cfg { serverTime := s.now } s.hero }
  | .dayRefresh env => { s with hero := dayRefresh cfg { env with serverTime := s.now } s.hero }
  | .dailyGameUpdate prize =>
    let hero := match prize with
      | some gold => dailyGamePrize s.hero gold
      | none => s.hero
    { s with hero := tryToGetGamePrize cfg s.beginTime hero, beginTime := u32 s.now }
  | .offlinePrize beginTime prizeGold =>
    { s with row := s.row.map fun row =>
        { row with dailyGameGold := prizeGold, dailyGamePrizeTime := out.time beginTime } }
  | .saveHero => { s with row := some (characterRow out.time s.hero) }
  | .reload env name channel =>
    { s with hero := dayRefresh cfg { env with serverTime := s.now } (loadHero cfg out s name channel) }

/-- `LoadFromConfig` has just been called, on a new object or, for `ResetGame`, on one that may have a row -/
def start (name : String) (channel : ℤ) (h : DreamHero) (row : Option CharacterRow) (now beginTime : ℕ) : St :=
  { now := now, beginTime := beginTime, hero := loadFromConfig cfg name channel h, row := row }

end DreamHeroes.Hero.Requests

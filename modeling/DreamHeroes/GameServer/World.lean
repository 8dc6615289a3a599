/-
The game server as one machine: its sessions and hero objects (`GateManager`), the data of the heroes (`HeroRun`), the
messages of the clients (`gameserver/session.cpp`), the table `character`, and what is on its way to and from it.

- `PBMsg`, `parsePBMessage`: the messages of `Session::registerPBCall`, and the handler of each. `whenHero` is a handler
  that tests the hero pointer, `Unguarded` names the three that do not.
- `Outcome.nullHero`: a handler has read through a null hero pointer. `Outcome.undefined`: another result that C++ does
  not define.
- `receive`: a reply of the database. It may come at any time, or for a session that is gone.
- `granted` is bookkeeping, for the hero objects and for the rows: where a level above 0 comes from. It is true of the
  rows a run starts with and of what a `ReqModifyGMLevel` of a session with level 3 has set, and goes with the level
  when a hero is saved and loaded.

What is sent to the clients is left out (`Commands` and `ClientRequests` have it), and so is the end of a deal: it
changes the gold, the jewel and the deals of a hero to any value. A statement that is not what its handler means
(`SqlText`) does anything to the table. What the timers do to a hero they may do at any time.
-/
import Mathlib.Tactic
import DreamHeroes.DB.SqlText
import DreamHeroes.GameServer.Commands
import DreamHeroes.Hero.Deals

namespace DreamHeroes.World

open DreamHeroes.Lib DreamHeroes.Config DreamHeroes.Rank DreamHeroes.Hero DreamHeroes.Hero.Requests DreamHeroes.SqlText
open DreamHeroes.Commands (CmdMsg HeroNames Record generateName getHeroByName)

/-! ## Messages -/

/-- the messages of `registerPBCall`; the commands of a game master are those of `Commands` -/
inductive PBMsg where
  | gameGlobalConfig
  | shopConfig
  | enterGame (chapterId sectionId : ℤ)
  | exitGame (msg : MsgC2SReqExitGame)
  | unlockChapter (chapterId : ℤ)
  | advertisementApplyTask (gold : Bool)
  | advertisementRefreshTask (giveUpTaskId : ℤ) (gold : Bool)
  | goldShopConfigs
  | buyHero (grid gold : ℤ)
  | modifyCurrentHero (currentGrid : ℤ)
  | crearteDeal
  | verifyDeal (orderId : ℤ) (receipt : Bytes)
  | modifyNewTutorial (flag : ℤ)
  | relive
  | buySpirit (index : ℤ)
  | concernWeiXin (cdKey : String)
  | buyLotion (lotionId : ℤ)
  | dayLottery
  | enterDailyGame
  | receiveDailyGamePrize
  | updateDailyGameProgress (msg : MsgC2SReqUpdateDailyGameProgress)
  | resetDailyGameProgress
  | dailyGameRankList
  | activityAnnouncement
  | modifyNotifyGridState (gridNotifyState : List (ℤ × Bool))
  | cmd (m : CmdMsg)

/-! ## State -/

structure Row where
  row : CharacterRow
  granted : Bool

/-- `character`, by its key -/
abbrev Table := ℕ → Option Row

/-- the statements for the character database; `byGM` says that the sender of the command had the level 3 -/
inductive Stmt where
  | replaceCharacter (row : Row)
  | updateGMLevel (level : ℤ) (name : String) (byGM : Bool)
  | offlinePrize (account : ℕ) (gold : ℤ) (time : String)
  | verify (orderId : ℤ) (receipt : Bytes)
  /-- a text that is not what its handler means -/
  | text (f : Table → Table)

inductive Reply where
  | heroData (info : MsgHeroDataDB2GS) (granted : Bool)
  | needCreateHero

/-- objects are addressed by numbers, as in `link` -/
structure St where
  link : GameServer.St := {}
  data : ℕ → DreamHero := fun _ => {}
  granted : ℕ → Bool := fun _ => false
  ranks : RankManager
  names : HeroNames := {}
  records : List Record := []
  now : ℕ := 0
  character : Table := fun _ => none
  toDB : List Stmt := []
  fromDB : List (ℕ × Reply) := []
  nullHero : Bool := false

def St.modData (w : St) (h : ℕ) (f : DreamHero → DreamHero) : St :=
  { w with data := Function.update w.data h (f (w.data h)) }

@[simp] theorem modData_data (w : St) (h : ℕ) (f : DreamHero → DreamHero) :
    (w.modData h f).data = Function.update w.data h (f (w.data h)) := rfl

inductive Outcome where
  | ok (w : St)
  | nullHero
  | undefined

/-- the bytes of a text -/
def utf8 (s : String) : Bytes := s.toUTF8.data.toList

variable (cfg : GameConfig) (out : Outside) (sameName : String → String → Bool)

/-! ## Requests of a client -/

/-- a handler that does nothing when there is no hero -/
def whenHero (w : St) (p : ℕ) (f : ℕ → Outcome) : Outcome :=
  match (w.link.sess p).dreamHero with
  | none => .ok w
  | some h => f h

def request (env : Env) (w : St) (p : ℕ) (req : ClientRequest) : Outcome :=
  whenHero w p fun h =>
    match handleClient cfg { env with serverTime := w.now } w.ranks (w.data h) req with
    | some (d, ranks, _) => .ok { w.modData h fun _ => d with ranks := ranks }
    | none => .undefined

def parseReqEnterGame (env : Env) (w : St) (p : ℕ) (chapterId sectionId : ℤ) : Outcome :=
  request cfg env w p (.request (.enterGame chapterId sectionId false))

def parseReqExitGame (env : Env) (w : St) (p : ℕ) (msg : MsgC2SReqExitGame) : Outcome :=
  request cfg env w p (.exitGame msg)

def parseReqUnlockChapter (env : Env) (w : St) (p : ℕ) (chapterId : ℤ) : Outcome :=
  request cfg env w p (.request (.unlockChapter chapterId))

def parseReqAdvertisementApplyTask (env : Env) (w : St) (p : ℕ) (gold : Bool) : Outcome :=
  request cfg env w p (.request (.advertisementApplyTask gold))

def parseReqAdvertisementRefreshTask (env : Env) (w : St) (p : ℕ) (giveUpTaskId : ℤ) (gold : Bool) : Outcome :=
  request cfg env w p (.request (.advertisementRefreshTask giveUpTaskId gold))

def parseReqBuyHero (env : Env) (w : St) (p : ℕ) (grid gold : ℤ) : Outcome :=
  request cfg env w p (.request (.buyHero grid gold))

def parseReqModifyCurrentHero (env : Env) (w : St) (p : ℕ) (currentGrid : ℤ) : Outcome :=
  request cfg env w p (.request (.modifyCurrentHero currentGrid))

def parseReqModifyTutorial (env : Env) (w : St) (p : ℕ) (flag : ℤ) : Outcome :=
  request cfg env w p (.modifyNewTutorial flag)

def parseReqRelive (env : Env) (w : St) (p : ℕ) : Outcome := request cfg env w p (.request .relive)

def parseReqBuySpirit (env : Env) (w : St) (p : ℕ) (index : ℤ) : Outcome :=
  request cfg env w p (.request (.buySpirit index))

def parseReqConcernWeiXin (env : Env) (w : St) (p : ℕ) (cdKey : String) : Outcome :=
  request cfg env w p (.request (.concernWeiXin cdKey))

def parseReqBuyLotion (env : Env) (w : St) (p : ℕ) (lotionId : ℤ) : Outcome :=
  request cfg env w p (.request (.buyLotion lotionId))

def parseReqDayLottery (env : Env) (w : St) (p : ℕ) : Outcome := request cfg env w p (.request .dayLottery)

def parseReqReceiveDailyGamePrize (env : Env) (w : St) (p : ℕ) : Outcome :=
  request cfg env w p (.request .receiveDailyGamePrize)

def parseReqUpdateDailyGameProgress (env : Env) (w : St) (p : ℕ) (msg : MsgC2SReqUpdateDailyGameProgress) : Outcome :=
  request cfg env w p (.updateDailyGameProgress msg)

def parseReqResetDailyGameProgress (env : Env) (w : St) (p : ℕ) : Outcome :=
  request cfg env w p (.request .resetDailyGameProgress)

def parseReqModifyNotifyGridState (env : Env) (w : St) (p : ℕ) (gridNotifyState : List (ℤ × Bool)) : Outcome :=
  request cfg env w p (.modifyNotifyGridState gridNotifyState)

/-- only an answer -/
def parseReqGoldShopConfigs (w : St) (p : ℕ) : Outcome := whenHero w p fun _ => .ok w

/-- the body of `ReqReqEnterDailyGame` is commented out -/
def parseReqEnterDailyGame (w : St) (p : ℕ) : Outcome := whenHero w p fun _ => .ok w

/-- the deals that wait to be paid are given up; the task for the platform is not modelled here -/
def parseReqCrearteDeal (w : St) (p : ℕ) : Outcome := whenHero w p fun h => .ok (w.modData h Deals.giveUpDeals)

/-- the statement of `ReqVerifyDeal`, or what its text does -/
def verifyStmt (w : St) (d : DreamHero) (orderId : ℤ) (receipt : Bytes) (effect : Table → Table) : Stmt :=
  if Plain receipt ∧ VerifyFits d.account (utf8 d.info.name) (utf8 (out.time w.now)) orderId receipt then
    .verify orderId receipt
  else .text effect

def parseReqVerifyDeal (w : St) (p : ℕ) (orderId : ℤ) (receipt : Bytes) (effect : Table → Table) : Outcome :=
  whenHero w p fun h =>
    match (w.data h).dealsWaitToPay[orderId]? with
    | some _ => .ok { w with toDB := w.toDB ++ [verifyStmt out w (w.data h) orderId receipt effect] }
    | none => .ok w

/-! ## Commands of a game master -/

/-- the handlers that read the level without a test of the pointer -/
def Unguarded : CmdMsg → Bool
  | .modifySpirit _ | .resetDailyGame | .clearDailyRankList => true
  | _ => false

/-- what `Commands` sees of the server -/
def St.cmdState (w : St) : Commands.St where
  onlines := w.link.onlines
  sess := w.link.sess
  heroes := w.link.heroes
  hero h := { session := (w.link.hero h).session, data := w.data h }
  ranks := w.ranks
  names := w.names
  records := w.records

/-- the level of the hero of a session is enough for `ReqModifyGMLevel` -/
def St.isGM (w : St) (p : ℕ) : Bool :=
  match (w.link.sess p).dreamHero with
  | some h => (w.data h).gmLevel ≥ 3
  | none => false

/-- the hero in memory that the command gives its level -/
def St.grants (w : St) (p : ℕ) : CmdMsg → ℕ → Bool
  | .modifyGMLevel name level =>
    match getHeroByName w.cmdState (cStr name) with
    | some h => if w.isGM p then Function.update w.granted h (decide (0 < level)) else w.granted
    | none => w.granted
  | _ => w.granted

/-- the statement of `parseCmdReqMdodifyGMLevel`, or what its text does -/
def modifyStmt (byGM : Bool) (effect : Table → Table) : Commands.Stmt → Stmt
  | .updateGMLevel level name =>
    if Plain (utf8 name) ∧ ModifyFits level (utf8 name) then .updateGMLevel level name byGM else .text effect

def St.afterCmd (w : St) (p : ℕ) (m : CmdMsg) (effect : Table → Table) (s : Commands.St) : St :=
  { w with
    data := fun h => (s.hero h).data, granted := w.grants p m, ranks := s.ranks, names := s.names,
    records := s.records, toDB := w.toDB ++ s.toDB.map fun e => modifyStmt (w.isGM p) effect e.2 }

def parseCmd (env : Env) (w : St) (p : ℕ) (m : CmdMsg) (effect : Table → Table) : Outcome :=
  match (w.link.sess p).dreamHero with
  | none => if Unguarded m then .nullHero else .ok w
  | some _ =>
    match Commands.parsePBMessage cfg { env with serverTime := w.now } w.cmdState p m with
    | some s => .ok (w.afterCmd p m effect s)
    | none => .undefined

/-! ## Dispatch -/

/-- `Session::parsePBMessage`; `effect` is what the text of a client may do to the table -/
def parsePBMessage (env : Env) (effect : Table → Table) (w : St) (p : ℕ) : PBMsg → Outcome
  | .gameGlobalConfig | .shopConfig | .dailyGameRankList | .activityAnnouncement => .ok w
  | .enterGame chapterId sectionId => parseReqEnterGame cfg env w p chapterId sectionId
  | .exitGame msg => parseReqExitGame cfg env w p msg
  | .unlockChapter chapterId => parseReqUnlockChapter cfg env w p chapterId
  | .advertisementApplyTask gold => parseReqAdvertisementApplyTask cfg env w p gold
  | .advertisementRefreshTask giveUpTaskId gold => parseReqAdvertisementRefreshTask cfg env w p giveUpTaskId gold
  | .goldShopConfigs => parseReqGoldShopConfigs w p
  | .buyHero grid gold => parseReqBuyHero cfg env w p grid gold
  | .modifyCurrentHero currentGrid => parseReqModifyCurrentHero cfg env w p currentGrid
  | .crearteDeal => parseReqCrearteDeal w p
  | .verifyDeal orderId receipt => parseReqVerifyDeal out w p orderId receipt effect
  | .modifyNewTutorial flag => parseReqModifyTutorial cfg env w p flag
  | .relive => parseReqRelive cfg env w p
  | .buySpirit index => parseReqBuySpirit cfg env w p index
  | .concernWeiXin cdKey => parseReqConcernWeiXin cfg env w p cdKey
  | .buyLotion lotionId => parseReqBuyLotion cfg env w p lotionId
  | .dayLottery => parseReqDayLottery cfg env w p
  | .enterDailyGame => parseReqEnterDailyGame w p
  | .receiveDailyGamePrize => parseReqReceiveDailyGamePrize cfg env w p
  | .updateDailyGameProgress msg => parseReqUpdateDailyGameProgress cfg env w p msg
  | .resetDailyGameProgress => parseReqResetDailyGameProgress cfg env w p
  | .modifyNotifyGridState gridNotifyState => parseReqModifyNotifyGridState cfg env w p gridNotifyState
  | .cmd m => parseCmd cfg env w p m effect

/-- `GateSession::parseUserMsg`: the session with the transaction id, if there is one -/
def parseUserMsg (env : Env) (effect : Table → Table) (w : St) (t : ℕ) (m : PBMsg) : Outcome :=
  match w.link.onlines[t]? with
  | some p => parsePBMessage cfg out env effect w p m
  | none => .ok w

/-! ## Heroes -/

/-- `DreamHero::SendClientInit` refreshes the day -/
def sendClientInit (env : Env) (w : St) (h : ℕ) : St :=
  w.modData h (dayRefresh cfg { env with serverTime := w.now })

/-- a new session for a hero in memory -/
def addUser (env : Env) (w : St) (g t a : ℕ) (channel : ℤ) : St :=
  let link := GameServer.step w.link (.addUser g t a channel)
  match w.link.onlines[t]?, w.link.heroes[a]? with
  | none, some h => sendClientInit cfg env { w with link := link } h
  | _, _ => { w with link := link }

/-- the object `CreateHero` makes from the reply of the database, for the session `p` -/
def createHeroFrom (w : St) (p : ℕ) (info : MsgHeroDataDB2GS) (granted : Bool) : St :=
  let acc := (w.link.sess p).account
  match w.link.heroes[acc]? with
  | some h => w.modData h fun d => { d with account := acc }
  | none =>
    let d := setInfo cfg out.spiritRecovery w.now w.ranks.dailyGameBeginTime info (w.link.sess p).channel
    { w with
      data := Function.update w.data w.link.nextHero { d with account := acc }
      granted := Function.update w.granted w.link.nextHero granted }

/-- the object `CreateHero` makes from the configuration -/
def createHero (w : St) (p : ℕ) : St :=
  let acc := (w.link.sess p).account
  match w.link.heroes[acc]? with
  | some h => w.modData h fun d => { d with account := acc }
  | none =>
    let (name, names, records) := generateName 101 (w.names, w.records)
    let d := loadFromConfig cfg name (w.link.sess p).channel {}
    { w with
      data := Function.update w.data w.link.nextHero { d with account := acc }
      granted := Function.update w.granted w.link.nextHero false
      names := names, records := records }

/-- `SendClientInit` of the hero the session of `t` has then -/
def initHero (env : Env) (w : St) (t : ℕ) : St :=
  match (w.link.onlines[t]?).bind fun p => (w.link.sess p).dreamHero with
  | some h => sendClientInit cfg env w h
  | none => w

/-- `GameDBClient::parseQueryHeroInfo` and `parseNeedCreateHero` -/
def receive (env : Env) (w : St) (t : ℕ) : Reply → St
  | .heroData info granted =>
    let made := match (w.link.onlines[t]?).filter fun p => (w.link.sess p).dreamHero.isNone with
      | some p => createHeroFrom cfg out w p info granted
      | none => w
    initHero cfg env { made with link := GameServer.step w.link (.queryHeroInfo t info.account) } t
  | .needCreateHero =>
    let made := match w.link.onlines[t]? with
      | some p => createHero cfg w p
      | none => w
    initHero cfg env { made with link := GameServer.step w.link (.needCreateHero t) } t

/-! ## The database -/

def execute (table : Table) : Stmt → Table
  | .replaceCharacter row => Function.update table row.row.accountId (some row)
  | .updateGMLevel level name byGM => fun a => (table a).map fun r =>
    if sameName name r.row.name then { row := { r.row with gmLevel := level }, granted := byGM && decide (0 < level) }
    else r
  | .offlinePrize account gold time => Function.update table account ((table account).map fun r =>
    { r with row := { r.row with dailyGameGold := gold, dailyGamePrizeTime := time } })
  | .verify _ _ => table
  | .text f => f table

/-- the answer to the question for an account; a select that fails finds no row either -/
def answer (table : Table) (a : ℕ) (failed : Bool) : Reply :=
  match table a with
  | some r => if failed then .needCreateHero else .heroData (dbDoQueryHeroInfo out.unixTimestamp r.row) r.granted
  | none => .needCreateHero

/-! ## The machine -/

/-- what the server does to a hero on its timers -/
inductive Timer where
  | recoverSpirit
  | dayRefresh (env : Env)
  | dailyGamePrize (gold : ℤ)
  | tryToGetGamePrize

inductive Op where
  | addUser (env : Env) (g t a : ℕ) (channel : ℤ)
  | removeUser (t : ℕ)
  | offlineUser (t : ℕ)
  | removeUserByGate (g : ℕ)
  | fireDestroy (h : ℕ)
  | clientMsg (env : Env) (t : ℕ) (m : PBMsg) (effect : Table → Table)
  | timer (h : ℕ) (e : Timer)
  | deals (h : ℕ) (gold jewel : ℤ) (dealsWaitToPay : Std.TreeMap ℤ DealWaitToPay)
  | rankList (ranks : RankManager)
  | saveHero (a : ℕ)
  | offlinePrize (account : ℕ) (gold : ℤ) (time : String)
  | query (i : ℕ) (failed : Bool)
  | execute
  | receive (env : Env) (i : ℕ)
  | pass (d : ℕ)

def runTimer (w : St) (d : DreamHero) : Timer → DreamHero
  | .recoverSpirit => recoverSpirit cfg { serverTime := w.now } d
  | .dayRefresh env => dayRefresh cfg { env with serverTime := w.now } d
  | .dailyGamePrize gold => dailyGamePrize d gold
  | .tryToGetGamePrize => tryToGetGamePrize cfg w.ranks.dailyGameBeginTime d

def step (w : St) : Op → St
  | .addUser env g t a channel => addUser cfg env w g t a channel
  | .removeUser t => { w with link := GameServer.step w.link (.removeUser t) }
  | .offlineUser t => { w with link := GameServer.step w.link (.offlineUser t) }
  | .removeUserByGate g => { w with link := GameServer.step w.link (.removeUserByGate g) }
  | .fireDestroy h => { w with link := GameServer.step w.link (.fireDestroy h) }
  | .clientMsg env t m effect =>
    match parseUserMsg cfg out env effect w t m with
    | .ok w => w
    | .nullHero => { w with nullHero := true }
    | .undefined => w
  | .timer h e => w.modData h fun d => runTimer cfg w d e
  | .deals h gold jewel dealsWaitToPay => w.modData h fun d =>
    { d with info := { d.info with gold := gold, jewel := jewel }, dealsWaitToPay := dealsWaitToPay }
  | .rankList ranks => { w with ranks := ranks }
  | .saveHero a =>
    match w.link.heroes[a]? with
    | some h => { w with toDB := w.toDB ++ [.replaceCharacter ⟨characterRow out.time (w.data h), w.granted h⟩] }
    | none => w
  | .offlinePrize account gold time => { w with toDB := w.toDB ++ [.offlinePrize account gold time] }
  | .query i failed =>
    match w.link.toDB[i]? with
    | some (a, t) => { w with fromDB := w.fromDB ++ [(t, answer out w.character a failed)] }
    | none => w
  | .execute =>
    match w.toDB with
    | stmt :: rest => { w with character := execute sameName w.character stmt, toDB := rest }
    | [] => w
  | .receive env i =>
    match w.fromDB[i]? with
    | some (t, reply) => { receive cfg out env w t reply with fromDB := w.fromDB.eraseIdx i }
    | none => w
  | .pass d => { w with now := w.now + d }

/-- the server comes up: the rows have the levels that were given before -/
def start (rows : ℕ → Option CharacterRow) (ranks : RankManager) : St where
  ranks := ranks
  character := fun a => (rows a).map fun row => ⟨row, decide (0 < row.gmLevel)⟩

end DreamHeroes.World

/-
The commands of a game master (`gameserver/session.cpp`, with what they call in `DreamHero.cpp`, `DreamHeroManager.cpp`
and `RankManager.cpp`).

A session passes each message to the handler that `registerPBCall` names for it. The handlers differ in what they test:
most of them the level above 0, `ModifyGMLevel` the level 3, three of them not whether there is a hero. They differ in
how they refuse too: with an error in their own answer (`answered`) or with a `MsgS2CNotifyError` (`notified`).

- `parsePBMessage`, `parseUserMsgs`: one message of a session, and the messages of one after the other. `none` has no
  defined result: a null pointer, or `removeHero` stepping over the end.
- `refusal`: the answer of each handler to a hero without a level.
- `parsePBMessage_refused`, `parseUserMsgs_refused`: such a message does nothing else.
- `cmd_messages_inert`: no hero, no rank, no statement and no record changes, whatever is sent.

The environment of a message holds the draws of `ReqReplaceTask`.
-/
import Mathlib.Tactic
import DreamHeroes.GameServer.GateManager
import DreamHeroes.Hero.HeroRun

namespace DreamHeroes.Commands

open DreamHeroes.Lib DreamHeroes.Config DreamHeroes.Rank DreamHeroes.Hero DreamHeroes.Hero.Requests

/-! ## Messages -/

inductive CmdError where
  | no
  | cmdFailedRequiredGMLevel
deriving DecidableEq, Repr

inductive CmdMsg where
  | modifyGMLevel (name : String) (level : ℤ)
  | enterGame (chapterId sectionId : ℤ)
  | resetMap (chapterId sectionId : ℤ)
  | resetGame
  | modifyGold (gold : ℤ)
  | replaceTask (taskCount : ℤ)
  | modifyTaskCompleteCount (taskCompleteCount : ℤ)
  | setSpecialCreatureHis (creatureId status : ℤ)
  | removeSpecialCreatureListHis
  | modifyJewel (jewel : ℤ)
  | modifySpirit (spirit : ℤ)
  | resetDailyLottery
  | resetDailyGame
  | clearDailyRankList
  | resetConcernWeiXin
deriving DecidableEq, Repr

inductive Reply where
  | notifyError (error : CmdError)
  | modifyGMLevel (name : String) (level : ℤ) (error : CmdError)
  | enterGame (ack : Ack)
  | resetMap (chapterId sectionId : ℤ) (error : CmdError)
  | resetGame (info : MsgHeroData) (currentAdvertisementCount : ℤ) (lastAdvertisementTime : ℕ) (error : CmdError)
  | modifyGold (gold : ℤ)
  | replaceTask (infos : List MsgTaskConfigInfo) (error : CmdError)
  | modifyTaskCompleteCount (currentTaskCount : ℤ)
  | notifySpecialCreatureHisModify (specialCreatures : List (ℤ × ℤ))
  | modifyJewel (currentJewel : ℤ) (error : CmdError)
  | modifySpirit (currentSpirit : ℤ) (error : CmdError)
  | resetDailyLottery (error : CmdError)
  | resetDailyGame (error : CmdError)
  | clearDailyRankList (error : CmdError)
  | resetConcernWeiXin (error : CmdError)
deriving DecidableEq, Repr

/-! ## State -/

/-- what `RecordManager` keeps for its next statement -/
inductive Record where
  | createName (name : String) (dayCreateCount : ℕ) (dayTitle : String)
  | enterGame (account : ℕ) (name : String) (chapterId sectionId gold : ℤ)
deriving DecidableEq, Repr

/-- the statement of `parseCmdReqMdodifyGMLevel` -/
inductive Stmt where
  | updateGMLevel (level : ℤ) (name : String)
deriving DecidableEq, Repr

/-- what `generateName` reads and counts -/
structure HeroNames where
  serverId : String := ""
  heroDayTitle : String := ""
  dayNumber : ℕ → ℕ → ℤ := fun _ _ => 0
  names : List String := []
  dayCreateHeroesCount : ℕ := 0

structure HeroObject where
  session : Option ℕ := none
  data : DreamHero := {}

/-- objects are addressed by numbers; `toClient` holds gate, transaction id and message of what was not dropped -/
structure St where
  onlines : Std.TreeMap ℕ ℕ := {}
  sess : ℕ → GameServer.Session := fun _ => {}
  heroes : Std.TreeMap ℕ ℕ := {}
  hero : ℕ → HeroObject := fun _ => {}
  ranks : RankManager
  names : HeroNames := {}
  records : List Record := []
  toDB : List (ℕ × Stmt) := []
  toClient : List ((ℕ × ℕ) × Reply) := []

def St.modHero (s : St) (h : ℕ) (f : DreamHero → DreamHero) : St :=
  { s with hero := Function.update s.hero h { s.hero h with data := f (s.hero h).data } }

/-- gate and transaction id of a session -/
def address (s : St) (p : ℕ) : ℕ × ℕ := ((s.sess p).gate, (s.sess p).tranid)

/-- `Session::sendPBMessage` -/
def sendPBMessage (s : St) (p : ℕ) (r : Reply) : St :=
  { s with toClient := s.toClient ++ if (s.sess p).state = .online then [(address s p, r)] else [] }

/-- `DreamHero::sendPBMessage` -/
def heroSend (s : St) (h : ℕ) (r : Reply) : St :=
  match (s.hero h).session with
  | some p => sendPBMessage s p r
  | none => s

/-! ## Names -/

/-- `DreamHeroManager::generateStr` -/
def generateStr (n : HeroNames) (key : ℕ) (argu : String) : String :=
  let numbers := (List.range 6).map fun i => toString (n.dayNumber i (key / 10 ^ i % 10))
  n.serverId ++ n.heroDayTitle ++ String.join numbers ++ argu

/-- `DreamHeroManager::generateName` with the count `101 - k` -/
def generateName : ℕ → HeroNames × List Record → String × HeroNames × List Record
  | 0, (n, records) =>
    let n := { n with dayCreateHeroesCount := n.dayCreateHeroesCount + 1 }
    (generateStr n n.dayCreateHeroesCount "q", n, records)
  | k + 1, (n, records) =>
    let n := { n with dayCreateHeroesCount := n.dayCreateHeroesCount + 1 }
    let name := generateStr n n.dayCreateHeroesCount ""
    let records := records ++ [.createName name n.dayCreateHeroesCount n.heroDayTitle]
    n.names.foldl (fun r it => if r.1 = it then generateName k r.2 else r) (name, n, records)

/-! ## What a command does -/

variable (cfg : GameConfig) (env : Env)

/-- what the command does to the data of the hero -/
def apply (s : St) (h : ℕ) (cmd : Command) : St := s.modHero h fun d => runCommand cfg env d cmd

/-- `DreamHeroManager::GetHeroByName`: the first in the order of the accounts -/
def getHeroByName (s : St) (name : String) : Option ℕ :=
  (s.heroes.toList.map Prod.snd).find? fun h => cStr (s.hero h).data.info.name = name

/-- the hero in memory, or else its row -/
def setGMLevel (s : St) (p : ℕ) (name : String) (level : ℤ) : St :=
  match getHeroByName s name with
  | some h => s.modHero h fun d => { d with gmLevel := level }
  | none => { s with toDB := s.toDB ++ [((s.sess p).tranid, .updateGMLevel level name)] }

/-- `DreamHero::EnterGame` of a game master -/
def adminEnterGame (s : St) (h : ℕ) (chapterId sectionId : ℤ) : St :=
  let d := (s.hero h).data
  let r := Requests.enterGame cfg d chapterId sectionId true
  let s := s.modHero h fun _ => r.1
  let s := { s with records := s.records ++ [.enterGame d.account d.info.name chapterId sectionId d.info.gold] }
  r.2.foldl (fun s ack => heroSend s h (.enterGame ack)) s

/-- `DreamHero::ReqResetMap` -/
def reqResetMap (s : St) (h : ℕ) (chapterId sectionId : ℤ) : St :=
  heroSend (apply cfg env s h (.resetMap chapterId sectionId)) h (.resetMap chapterId sectionId .no)

/-- `DreamHero::ResetGame` -/
def resetGame (s : St) (h : ℕ) : St :=
  let (name, names, records) := generateName 101 (s.names, s.records)
  let s := apply cfg env { s with names := names, records := records } h (.resetGame name)
  let d := (s.hero h).data
  heroSend s h (.resetGame d.info d.currentTaskCount d.lastTaskAdvertisementTime .no)

/-- `DreamHero::ReqModifyGold` -/
def reqModifyGold (s : St) (h : ℕ) (gold : ℤ) : St :=
  let s := apply cfg env s h (.modifyGold gold)
  heroSend s h (.modifyGold (s.hero h).data.info.gold)

/-- `DreamHero::ReqReplaceTask`: the answer holds the task of each draw that had one -/
def reqReplaceTask (s : St) (h : ℕ) (taskCount : ℤ) : St :=
  let infos := (List.range (toSizeT (min taskCount cfg.globalConfig.heroMaxTasksCount))).filterMap fun i =>
    let d := Requests.replaceTasks cfg env (s.hero h).data i
    let info := radnomTaskInfo cfg { env with rand := fun _ => env.rand i } d 0
    if info.taskid ≠ 0 then some info else none
  heroSend (apply cfg env s h (.replaceTask taskCount)) h (.replaceTask infos .no)

/-- `DreamHero::ReqModifyTaskCompleteCount` -/
def reqModifyTaskCompleteCount (s : St) (h : ℕ) (count : ℤ) : St :=
  let s := apply cfg env s h (.modifyTaskCompleteCount count)
  heroSend s h (.modifyTaskCompleteCount (s.hero h).data.info.completeTaskCount)

/-- `DreamHero::ReqSetSpecialCreatureList` -/
def reqSetSpecialCreatureList (s : St) (h : ℕ) (creatureId status : ℤ) : St :=
  let s := apply cfg env s h (.setSpecialCreatureHis creatureId status)
  heroSend s h (.notifySpecialCreatureHisModify (s.hero h).data.specialCreatures.toList)

/-- `DreamHero::ReqRemoveAllSpecialCreatureList` -/
def reqRemoveAllSpecialCreatureList (s : St) (h : ℕ) : St :=
  heroSend (apply cfg env s h .removeSpecialCreatureListHis) h (.notifySpecialCreatureHisModify [])

/-- `DreamHero::ResetDailyGame` -/
def resetDailyGame (s : St) (h : ℕ) : Option St :=
  let s := apply cfg env s h .resetDailyGame
  (removeHero s.ranks (s.hero h).data.account).map fun ranks => { s with ranks := ranks }

/-! ## Handlers -/

/-- a handler that returns when there is no hero -/
def withHero (s : St) (p : ℕ) (f : ℕ → Option St) : Option St :=
  match (s.sess p).dreamHero with
  | none => some s
  | some h => f h

/-- a handler that reads the hero whether there is one or not -/
def derefHero (s : St) (p : ℕ) (f : ℕ → Option St) : Option St :=
  match (s.sess p).dreamHero with
  | none => none
  | some h => f h

def level (s : St) (h : ℕ) : ℤ := (s.hero h).data.gmLevel

/-- the answer is sent in either case, and says whether the level was enough -/
def answered (s : St) (p h : ℕ) (allowed : Bool) (effect : Option St)
    (ack : DreamHero → CmdError → Reply) : Option St :=
  if allowed then effect.map fun s => sendPBMessage s p (ack (s.hero h).data .no)
  else some (sendPBMessage s p (ack (s.hero h).data .cmdFailedRequiredGMLevel))

/-- the hero answers, or the session says that the level was not enough -/
def notified (s : St) (p : ℕ) (allowed : Bool) (effect : Option St) : Option St :=
  if allowed then effect else some (sendPBMessage s p (.notifyError .cmdFailedRequiredGMLevel))

def parseCmdReqModifyJewel (s : St) (p : ℕ) (jewel : ℤ) : Option St :=
  withHero s p fun h => answered s p h (level s h > 0) (some (apply cfg env s h (.modifyJewel jewel)))
    fun d error => .modifyJewel d.info.jewel error

def parseCmdReqResetDailyLottery (s : St) (p : ℕ) : Option St :=
  withHero s p fun h => answered s p h (level s h > 0) (some (apply cfg env s h .resetDailyLottery))
    fun _ error => .resetDailyLottery error

def parseCmdReqClearDailyRankList (s : St) (p : ℕ) : Option St :=
  derefHero s p fun h => answered s p h (level s h > 0) (some { s with ranks := clearRankList s.ranks })
    fun _ error => .clearDailyRankList error

def parseCmdReqResetResetDailyGame (s : St) (p : ℕ) : Option St :=
  derefHero s p fun h => answered s p h (level s h > 0) (resetDailyGame cfg env s h)
    fun _ error => .resetDailyGame error

def parseCmdReqModifySpirit (s : St) (p : ℕ) (spirit : ℤ) : Option St :=
  derefHero s p fun h => answered s p h (level s h > 0) (some (apply cfg env s h (.modifySpirit spirit)))
    fun d error => .modifySpirit d.info.spirit error

/-- the test is another one: `getGMLevel() < 3` -/
def parseCmdReqMdodifyGMLevel (s : St) (p : ℕ) (name : String) (newLevel : ℤ) : Option St :=
  withHero s p fun h => answered s p h (¬level s h < 3) (some (setGMLevel s p (cStr name) newLevel))
    fun _ error => .modifyGMLevel (cStr name) newLevel error

def parseCmdReqResetConcernWeiXin (s : St) (p : ℕ) : Option St :=
  withHero s p fun h => answered s p h (level s h > 0) (some (apply cfg env s h .resetConcernWeiXin))
    fun _ error => .resetConcernWeiXin error

def parseCmdReqEnterGame (s : St) (p : ℕ) (chapterId sectionId : ℤ) : Option St :=
  withHero s p fun h => notified s p (level s h > 0) (some (adminEnterGame cfg s h chapterId sectionId))

def parseCmdReqResetMap (s : St) (p : ℕ) (chapterId sectionId : ℤ) : Option St :=
  withHero s p fun h => notified s p (level s h > 0) (some (reqResetMap cfg env s h chapterId sectionId))

def parseCmdReqResetGame (s : St) (p : ℕ) : Option St :=
  withHero s p fun h => notified s p (level s h > 0) (some (resetGame cfg env s h))

def parseCmdReqModifyGold (s : St) (p : ℕ) (gold : ℤ) : Option St :=
  withHero s p fun h => notified s p (level s h > 0) (some (reqModifyGold cfg env s h gold))

def parseCmdReqReplaceTask (s : St) (p : ℕ) (taskCount : ℤ) : Option St :=
  withHero s p fun h => notified s p (level s h > 0) (some (reqReplaceTask cfg env s h taskCount))

def parseCmdReqModifyTaskCompleteCount (s : St) (p : ℕ) (count : ℤ) : Option St :=
  withHero s p fun h => notified s p (level s h > 0) (some (reqModifyTaskCompleteCount cfg env s h count))

def parseCmdReqRemoveSpecialCreatureListHis (s : St) (p : ℕ) : Option St :=
  withHero s p fun h => notified s p (level s h > 0) (some (reqRemoveAllSpecialCreatureList cfg env s h))

def parseCmdReqSetSpecialCreatureHis (s : St) (p : ℕ) (creatureId status : ℤ) : Option St :=
  withHero s p fun h => notified s p (level s h > 0) (some (reqSetSpecialCreatureList cfg env s h creatureId status))

/-- `Session::parsePBMessage` with the table of `registerPBCall` -/
def parsePBMessage (s : St) (p : ℕ) : CmdMsg → Option St
  | .modifyGMLevel name newLevel => parseCmdReqMdodifyGMLevel s p name newLevel
  | .enterGame chapterId sectionId => parseCmdReqEnterGame cfg s p chapterId sectionId
  | .resetMap chapterId sectionId => parseCmdReqResetMap cfg env s p chapterId sectionId
  | .resetGame => parseCmdReqResetGame cfg env s p
  | .modifyGold gold => parseCmdReqModifyGold cfg env s p gold
  | .replaceTask taskCount => parseCmdReqReplaceTask cfg env s p taskCount
  | .modifyTaskCompleteCount count => parseCmdReqModifyTaskCompleteCount cfg env s p count
  | .setSpecialCreatureHis creatureId status => parseCmdReqSetSpecialCreatureHis cfg env s p creatureId status
  | .removeSpecialCreatureListHis => parseCmdReqRemoveSpecialCreatureListHis cfg env s p
  | .modifyJewel jewel => parseCmdReqModifyJewel cfg env s p jewel
  | .modifySpirit spirit => parseCmdReqModifySpirit cfg env s p spirit
  | .resetDailyLottery => parseCmdReqResetDailyLottery cfg env s p
  | .resetDailyGame => parseCmdReqResetResetDailyGame cfg env s p
  | .clearDailyRankList => parseCmdReqClearDailyRankList s p
  | .resetConcernWeiXin => parseCmdReqResetConcernWeiXin cfg env s p

/-- `GateSession::parseUserMsg`: the session with the transaction id, if there is one -/
def parseUserMsg (s : St) (t : ℕ) (m : CmdMsg) : Option St :=
  match s.onlines[t]? with
  | some p => parsePBMessage cfg env s p m
  | none => some s

/-- messages with one transaction id, one after the other -/
def parseUserMsgs (t : ℕ) : List (Env × CmdMsg) → St → Option St
  | [], s => some s
  | (env, m) :: msgs, s => (parseUserMsg cfg env s t m).bind (parseUserMsgs t msgs)

/-! ## A hero without a level -/

/-- the answer to a hero without a level -/
def refusal (d : DreamHero) : CmdMsg → Reply
  | .modifyGMLevel name newLevel => .modifyGMLevel (cStr name) newLevel .cmdFailedRequiredGMLevel
  | .modifyJewel _ => .modifyJewel d.info.jewel .cmdFailedRequiredGMLevel
  | .modifySpirit _ => .modifySpirit d.info.spirit .cmdFailedRequiredGMLevel
  | .resetDailyLottery => .resetDailyLottery .cmdFailedRequiredGMLevel
  | .resetDailyGame => .resetDailyGame .cmdFailedRequiredGMLevel
  | .clearDailyRankList => .clearDailyRankList .cmdFailedRequiredGMLevel
  | .resetConcernWeiXin => .resetConcernWeiXin .cmdFailedRequiredGMLevel
  | _ => .notifyError .cmdFailedRequiredGMLevel

theorem withHero_some {s : St} {p h : ℕ} (hh : (s.sess p).dreamHero = some h) (f : ℕ → Option St) :
    withHero s p f = f h := by rw [withHero, hh]

theorem derefHero_some {s : St} {p h : ℕ} (hh : (s.sess p).dreamHero = some h) (f : ℕ → Option St) :
    derefHero s p f = f h := by rw [derefHero, hh]

theorem answered_refused (s : St) (p h : ℕ) {allowed : Bool} (hallowed : allowed = false) (effect : Option St)
    (ack : DreamHero → CmdError → Reply) :
    answered s p h allowed effect ack =
      some (sendPBMessage s p (ack (s.hero h).data .cmdFailedRequiredGMLevel)) := by
  rw [hallowed]
  rfl

theorem notified_refused (s : St) (p : ℕ) {allowed : Bool} (hallowed : allowed = false) (effect : Option St) :
    notified s p allowed effect = some (sendPBMessage s p (.notifyError .cmdFailedRequiredGMLevel)) := by
  rw [hallowed]
  rfl

/-- **Every handler refuses a hero without a level**, and does nothing besides. -/
theorem parsePBMessage_refused {s : St} {p h : ℕ} (hh : (s.sess p).dreamHero = some h) (hlevel : level s h ≤ 0)
    (m : CmdMsg) : parsePBMessage cfg env s p m = some (sendPBMessage s p (refusal (s.hero h).data m)) := by
  have hzero : decide (level s h > 0) = false := decide_eq_false (by omega)
  have hthree : decide (¬level s h < 3) = false := decide_eq_false (by omega)
  cases m with
  | modifyGMLevel name newLevel => exact (withHero_some hh _).trans (answered_refused s p h hthree _ _)
  | enterGame chapterId sectionId => exact (withHero_some hh _).trans (notified_refused s p hzero _)
  | resetMap chapterId sectionId => exact (withHero_some hh _).trans (notified_refused s p hzero _)
  | resetGame => exact (withHero_some hh _).trans (notified_refused s p hzero _)
  | modifyGold gold => exact (withHero_some hh _).trans (notified_refused s p hzero _)
  | replaceTask taskCount => exact (withHero_some hh _).trans (notified_refused s p hzero _)
  | modifyTaskCompleteCount count => exact (withHero_some hh _).trans (notified_refused s p hzero _)
  | setSpecialCreatureHis creatureId status => exact (withHero_some hh _).trans (notified_refused s p hzero _)
  | removeSpecialCreatureListHis => exact (withHero_some hh _).trans (notified_refused s p hzero _)
  | modifyJewel jewel => exact (withHero_some hh _).trans (answered_refused s p h hzero _ _)
  | modifySpirit spirit => exact (derefHero_some hh _).trans (answered_refused s p h hzero _ _)
  | resetDailyLottery => exact (withHero_some hh _).trans (answered_refused s p h hzero _ _)
  | resetDailyGame => exact (derefHero_some hh _).trans (answered_refused s p h hzero _ _)
  | clearDailyRankList => exact (derefHero_some hh _).trans (answered_refused s p h hzero _ _)
  | resetConcernWeiXin => exact (withHero_some hh _).trans (answered_refused s p h hzero _ _)

/-- the replies to the messages, in their order; a client that is offline gets none -/
def refusals (s : St) (p h : ℕ) (msgs : List (Env × CmdMsg)) : List ((ℕ × ℕ) × Reply) :=
  if (s.sess p).state = .online then msgs.map fun m => (address s p, refusal (s.hero h).data m.2) else []

theorem parseUserMsgs_refused {s : St} {t p h : ℕ} (ht : s.onlines[t]? = some p) (hh : (s.sess p).dreamHero = some h)
    (hlevel : level s h ≤ 0) (msgs : List (Env × CmdMsg)) :
    parseUserMsgs cfg t msgs s = some { s with toClient := s.toClient ++ refusals s p h msgs } := by
  induction msgs generalizing s with
  | nil => simp [parseUserMsgs, refusals]
  | cons m msgs ih =>
    obtain ⟨env, m⟩ := m
    have hfirst : parseUserMsg cfg env s t m = some (sendPBMessage s p (refusal (s.hero h).data m)) := by
      unfold parseUserMsg
      rw [ht]
      exact parsePBMessage_refused cfg env hh hlevel m
    -- a reply is no change of the session or of the hero
    have hrest := ih (s := sendPBMessage s p (refusal (s.hero h).data m)) ht hh hlevel
    have hsplit : refusals s p h ((env, m) :: msgs) = (if (s.sess p).state = .online then
        [(address s p, refusal (s.hero h).data m)] else []) ++ refusals s p h msgs := by
      unfold refusals
      split_ifs
      · rfl
      · rfl
    calc parseUserMsgs cfg t ((env, m) :: msgs) s
        = parseUserMsgs cfg t msgs (sendPBMessage s p (refusal (s.hero h).data m)) := by
          rw [parseUserMsgs, hfirst, Option.bind_some]
      _ = some { s with toClient := (sendPBMessage s p (refusal (s.hero h).data m)).toClient ++ refusals s p h msgs } :=
          hrest
      _ = some { s with toClient := s.toClient ++ refusals s p h ((env, m) :: msgs) } := by
          rw [hsplit, sendPBMessage, List.append_assoc]

/-- **Commands are inert for ordinary players.** Whatever commands are sent on a session whose hero has no level, no
hero, no rank, no statement, no record and no session changes, and what is sent goes to the client of the session. -/
theorem cmd_messages_inert {s : St} {t p h : ℕ} (ht : s.onlines[t]? = some p) (hh : (s.sess p).dreamHero = some h)
    (hlevel : (s.hero h).data.gmLevel ≤ 0) (msgs : List (Env × CmdMsg)) :
    ∃ s', parseUserMsgs cfg t msgs s = some s' ∧ s'.hero = s.hero ∧ s'.heroes = s.heroes ∧ s'.ranks = s.ranks ∧
      s'.toDB = s.toDB ∧ s'.records = s.records ∧ s'.names = s.names ∧ s'.sess = s.sess ∧ s'.onlines = s.onlines ∧
      ∃ replies, s'.toClient = s.toClient ++ replies ∧ ∀ r ∈ replies, r.1 = address s p := by
  refine ⟨_, parseUserMsgs_refused cfg ht hh hlevel msgs, rfl, rfl, rfl, rfl, rfl, rfl, rfl, rfl, _, rfl, ?_⟩
  intro r hr
  unfold refusals at hr
  split_ifs at hr
  · obtain ⟨m, -, rfl⟩ := List.mem_map.1 hr
    rfl
  · cases hr

/-- one client, whose hero has no level -/
def ordinary : St where
  onlines := ({} : Std.TreeMap ℕ ℕ).insert 100 0
  sess _ := { tranid := 100, account := 5, gate := 1, dreamHero := some 0 }
  ranks := { dailyMaxRankSize := 100, minDailyScore := 0 }

theorem cmd_messages_inert_ordinary :
    ∃ s', parseUserMsgs {} 100 [({}, .modifyGold 1000), ({}, .modifyGMLevel "ann" 3), ({}, .clearDailyRankList)]
      ordinary = some s' ∧ s'.hero = ordinary.hero ∧ s'.ranks = ordinary.ranks ∧ s'.toDB = [] := by
  have ht : ordinary.onlines[100]? = some 0 := Std.TreeMap.getElem?_insert_self
  obtain ⟨s', hs, hhero, -, hranks, hdb, -⟩ := cmd_messages_inert {} ht (h := 0) rfl (le_refl 0)
    [({}, .modifyGold 1000), ({}, .modifyGMLevel "ann" 3), ({}, .clearDailyRankList)]
  exact ⟨s', hs, hhero, hranks, hdb⟩

end DreamHeroes.Commands

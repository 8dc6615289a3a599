/-
The other requests of a client, and all of them as one type (`gameserver/DreamHero.cpp`, `gameserver/session.cpp`).

- `reqUpdateDailyGameProgress`: the progress of the daily game, which also changes the rank list.
- `reqModifyTutorialFlag`, `reqModifyNotifyGridState`: no test, no rejection.
- `ClientRequest`, `handleClient`: what a client that is no game master can send, the requests about deals left out, and
  those that only read.
-/
import Mathlib.Tactic
import DreamHeroes.Rank.RankManager
import DreamHeroes.Hero.Requests
import DreamHeroes.Hero.ExitGame

namespace DreamHeroes.Hero.Requests

open DreamHeroes.Config DreamHeroes.Rank

/-! ## The daily game -/

structure MsgC2SReqUpdateDailyGameProgress where
  dailyGameProgress : ℤ
  score : ℤ
  hpPct : ℤ
  anger : ℤ
deriving DecidableEq, Repr

structure MsgS2CUpdateDailyGameProgressACK where
  dailyGameProgress : ℤ
  score : ℤ
  rank : ℤ
  hpPct : ℤ
  error : GameError
  dailyGameProgressRecord : ℤ
  dailyGameTime : ℕ
  serverTime : ℕ
  anger : ℤ
deriving DecidableEq, Repr

/-- the first request of a period -/
def beginDailyGame (ranks : RankManager) (h : DreamHero) : DreamHero :=
  if ranks.dailyGameBeginTime ≠ h.dailyGameTime then
    { h with
      dailyGameTime := ranks.dailyGameBeginTime,
      info := { h.info with dailyGameHpPct := 100, dailyGameProgress := 0, dailyGameScore := 0, dailyGameAnger := 0,
                            dailyResetGameCount := 0 } }
  else h

/-- the tests, in their order; `h` has begun the period -/
def updateProgressError (ranks : RankManager) (h : DreamHero) (msg : MsgC2SReqUpdateDailyGameProgress) : GameError :=
  let progressTemp := if msg.hpPct > 0 then h.info.dailyGameProgress + 1 else h.info.dailyGameProgress
  if h.info.dailyGameProgress = ranks.maxDailyProgress then .failedToUpdateDailyProgressIsMaxProgress
  else if (msg.dailyGameProgress = 1 ∨ msg.dailyGameProgress = h.info.dailyGameRecordProgress + 1) ∧
      h.info.dailyGameHpPct = 0 then .failedToUpdateDailyProgressNoHp
  else if h.info.dailyGameHpPct > 0 then
    if progressTemp = msg.dailyGameProgress ∨ msg.dailyGameProgress = h.info.dailyGameRecordProgress + 1 then .no
    else .failedToUpdateDailyProgressErrorProgress
  else .failedToUpdateDailyProgressNoHp

/-- the hero after an accepted progress -/
def recordProgress (h : DreamHero) (msg : MsgC2SReqUpdateDailyGameProgress) : DreamHero :=
  { h with
    info := { h.info with
      dailyGameScore := msg.score,
      dailyGameProgress := if msg.hpPct > 0 then msg.dailyGameProgress else h.info.dailyGameProgress,
      dailyTopGrogress := max h.info.dailyTopGrogress msg.dailyGameProgress,
      dailyGameHpPct := max msg.hpPct 0, dailyGameAnger := msg.anger } }

def updateProgressAck (serverTime : ℕ) (h : DreamHero) (rank : ℤ) (error : GameError) :
    MsgS2CUpdateDailyGameProgressACK where
  dailyGameProgress := h.info.dailyGameProgress
  score := h.info.dailyGameScore
  rank := rank
  hpPct := h.info.dailyGameHpPct
  error := error
  dailyGameProgressRecord := h.info.dailyGameRecordProgress
  dailyGameTime := h.dailyGameTime
  serverTime := serverTime
  anger := h.info.dailyGameAnger

def reqUpdateDailyGameProgress (serverTime : ℕ) (ranks : RankManager) (h : DreamHero)
    (msg : MsgC2SReqUpdateDailyGameProgress) : DreamHero × RankManager × MsgS2CUpdateDailyGameProgressACK :=
  let h := beginDailyGame ranks h
  match updateProgressError ranks h msg with
  | .no =>
    let h := recordProgress h msg
    let ranks := (updateHeroDailyRank ranks serverTime h.account h.info.name msg.score).1
    (h, ranks, updateProgressAck serverTime h (getHeroDailyRank ranks h.account) .no)
  | error => (h, ranks, updateProgressAck serverTime h 101 error)

/-! ## The tutorial and the grids -/

def reqModifyTutorialFlag (h : DreamHero) (flag : ℤ) : DreamHero :=
  { h with info := { h.info with newTutorial := flag } }

def reqModifyNotifyGridState (h : DreamHero) (gridNotifyState : List (ℤ × Bool)) : DreamHero :=
  { h with info := { h.info with gridNotifyState := gridNotifyState } }

/-! ## All requests of a client -/

inductive ClientRequest where
  | request (req : Request)
  | exitGame (msg : MsgC2SReqExitGame)
  | updateDailyGameProgress (msg : MsgC2SReqUpdateDailyGameProgress)
  | modifyNewTutorial (flag : ℤ)
  | modifyNotifyGridState (gridNotifyState : List (ℤ × Bool))
deriving DecidableEq, Repr

inductive Answer where
  | ack (ack : Ack)
  | exitGame (ack : MsgS2CExitGameACK)
  | updateDailyGameProgress (ack : MsgS2CUpdateDailyGameProgressACK)
  | modifyNewTutorial (flag : ℤ)
  | modifyNotifyGridState (gridNotifyState : List (ℤ × Bool))
deriving DecidableEq, Repr

variable (cfg : GameConfig) (env : Env) (ranks : RankManager) (h : DreamHero)

def handleClient : ClientRequest → Option (DreamHero × RankManager × List Answer)
  | .request req => (handle cfg env h req).map fun r => (r.1, ranks, r.2.map .ack)
  | .exitGame msg =>
    let r := reqExitGame cfg h msg
    some (r.1, ranks, [.exitGame r.2])
  | .updateDailyGameProgress msg =>
    let r := reqUpdateDailyGameProgress env.serverTime ranks h msg
    some (r.1, r.2.1, [.updateDailyGameProgress r.2.2])
  | .modifyNewTutorial flag => some (reqModifyTutorialFlag h flag, ranks, [.modifyNewTutorial flag])
  | .modifyNotifyGridState gridNotifyState =>
    some (reqModifyNotifyGridState h gridNotifyState, ranks, [.modifyNotifyGridState gridNotifyState])

end DreamHeroes.Hero.Requests

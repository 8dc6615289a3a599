/-
The gate server: the user manager, its client sessions and the table of active game servers
(`gateserver/user_manager.cpp`, `user_session.cpp`, `game_client.cpp`, `game_manager.cpp`).

A transaction id `t` is announced by the login server (`addToWait`), used once by a client (`LoginGame`, which runs
`checkConn`), and from then on owns a client session until it is kicked, closed or parked for a reconnect.

- Sessions are objects of a pool: `sess p` is the object with the address `p`, and the maps hold addresses.
- `obj_map`/`obj_ptr_map` are `Std.TreeMap`: `addData` is `insertIfNew`, `eraseData` is `erase`, `eraseValue` is
  `eraseVal`.
- `eraseVal` and `removeUsers` embed the branches of `obj_map::eraseValue` and `UserManager::removeUsers` for `WIN32`.
  The others increment the iterator of the element that was erased: `Common.EraseLoops` is about them, and they do the
  same exactly when nothing matches.
- `close` only posts the close of the socket. The `on_close` it leads to is the operation `onClose`, which a client that
  drops its connection leads to as well, so it may come at any later time.
- A timer is in `waitTimers` or `reconTimers` from the call that arms it to the step that fires it; any pending one may
  fire, stale or not.
- What is sent to the game servers and to the login server is appended to `toGame` and `toLogin`.
- `passed t` is bookkeeping of the model: the session that last passed `checkConn` for `t`.
-/
import Mathlib.Tactic
import DreamHeroes.Lib.Machine
import DreamHeroes.Lib.OrdMap

namespace DreamHeroes.Gate

open DreamHeroes.Lib

def invalidTransId : ℕ := 0
def invalidAccount : ℕ := 0
def invalidGameId : ℕ := 0
def maxGameId : ℕ := 0xff

/-! ## State -/

/-- `UserSession::m_state` -/
inductive SessionState where
  | disable
  | waitAccount
  | connect
  | waitClose
deriving DecidableEq, Repr

structure UserSession where
  tranid : ℕ := invalidTransId
  gsId : ℕ := invalidGameId
  state : SessionState := .disable
  channel : ℤ := 0
deriving DecidableEq, Repr

/-- gate to game server -/
inductive GameMsg where
  | addUser (t a : ℕ) (channel : ℤ)
  | offlineUser (t : ℕ)
  | removeUser (t : ℕ)
deriving DecidableEq, Repr

structure St where
  onlines : Std.TreeMap ℕ ℕ := ∅
  onlineaccs : Std.TreeMap ℕ ℕ := ∅
  waitMap : Std.TreeMap ℕ ℕ := ∅
  waitMapChannel : Std.TreeMap ℕ ℤ := ∅
  reconMap : Std.TreeMap ℕ ℕ := ∅
  sess : ℕ → UserSession := fun _ => {}
  /-- `m_activeGames`: the game id of every filled slot, with the load the game server last reported -/
  activeGames : Std.TreeMap ℕ ℕ := ∅
  gsIdleMax : ℕ := 0
  waitTimers : List ℕ := []
  reconTimers : List ℕ := []
  toGame : List (ℕ × GameMsg) := []
  /-- `MsgGT2LNPrepar`: the transaction ids told to the login server -/
  toLogin : List ℕ := []
  passed : ℕ → Option ℕ := fun _ => none

/-! ## Sessions and game servers -/

/-- `UserSession::setState`; the timers it arms close the session, which `onClose` may do at any time -/
def UserSession.setState (u : UserSession) (s : SessionState) : UserSession :=
  match s with
  | .disable => { u with state := .disable, tranid := invalidTransId, gsId := invalidGameId }
  | s => { u with state := s }

def St.modSess (s : St) (p : ℕ) (f : UserSession → UserSession) : St :=
  { s with sess := Function.update s.sess p (f (s.sess p)) }

/-- `GameManager::getGameClient`: the load of the active game server, `none` for `NULL` -/
def getGameClient (s : St) (gs : ℕ) : Option ℕ :=
  if invalidGameId < gs ∧ gs < maxGameId then s.activeGames[gs]? else none

/-- the loop of `getIdleGameClient` with the best client so far; the first client below the limit ends it -/
def idleLoop (idleMax : ℕ) : Option (ℕ × ℕ) → List (ℕ × ℕ) → Option (ℕ × ℕ)
  | best, [] => best
  | none, c :: cs => if c.2 < idleMax then some c else idleLoop idleMax (some c) cs
  | some b, c :: cs =>
    if b.2 > c.2 then if c.2 < idleMax then some c else idleLoop idleMax (some c) cs
    else idleLoop idleMax (some b) cs

/-- `GameManager::getIdleGameClient`: the slots are visited in the order of the ids -/
def getIdleGameClient (s : St) : Option ℕ := (idleLoop s.gsIdleMax none s.activeGames.toList).map Prod.fst

/-- `sendPBMessage` on the connection to the game server `gs` -/
def sendGame (s : St) (gs : ℕ) (m : GameMsg) : St := { s with toGame := s.toGame ++ [(gs, m)] }

/-- send if `getGameClient gs` is not `NULL` -/
def sendActive (s : St) (gs : ℕ) (m : GameMsg) : St :=
  { s with toGame := if (getGameClient s gs).isSome then s.toGame ++ [(gs, m)] else s.toGame }

def addNewPlayer (s : St) (gs t a : ℕ) (channel : ℤ) : St := sendGame s gs (.addUser t a channel)
def offlinePlayer (s : St) (gs t : ℕ) : St := sendGame s gs (.offlineUser t)
def removePlayer (s : St) (gs t : ℕ) : St := sendActive s gs (.removeUser t)

/-! ## The user manager -/

def kickUser (s : St) (t a : ℕ) : St :=
  match s.onlines[t]? with
  | some p =>
    let s := removePlayer s (s.sess p).gsId t
    { s with onlines := s.onlines.erase t, onlineaccs := s.onlineaccs.erase a }
  | none =>
    let v := s.waitMap[t]?.getD invalidAccount
    let s := { s with
      waitMap := s.waitMap.erase t
      waitMapChannel := s.waitMapChannel.erase t
      onlineaccs := if v ≠ invalidAccount then s.onlineaccs.erase v else s.onlineaccs }
    match s.reconMap[t]? with
    | some gs => removePlayer { s with reconMap := s.reconMap.erase t } gs t
    | none => s

def addToWait (s : St) (t a : ℕ) (c : ℤ) : St :=
  let s := match s.onlines[t]? with
    | some p => kickUser (s.modSess p fun u => { u with channel := c }) t a
    | none => s
  { s with
    waitMap := s.waitMap.insertIfNew t a
    waitMapChannel := s.waitMapChannel.insertIfNew t c
    waitTimers := s.waitTimers ++ [t]
    toLogin := s.toLogin ++ [t] }

def eventCallRemoveWait (s : St) (t : ℕ) : St :=
  { s with waitMap := s.waitMap.erase t, waitMapChannel := s.waitMapChannel.erase t }

/-- the sessions of `gs` are told to close; `m_onlines` keeps them, since the loop erases from a copy of it -/
def removeUsers (s : St) (gs : ℕ) : St :=
  { s with
    sess := s.onlines.foldl (fun sess _ p =>
      if (sess p).gsId = gs then Function.update sess p ((sess p).setState .waitClose) else sess) s.sess
    reconMap := eraseVal s.reconMap gs }

/-- `getAccount`: the first account of `m_onlineaccs` that carries `t` -/
def getAccount (s : St) (t : ℕ) : ℕ :=
  ((s.onlineaccs.toList.find? fun e => e.2 = t).map Prod.fst).getD invalidAccount

def checkClose (s : St) (p : ℕ) : St :=
  let t := (s.sess p).tranid
  let gs := (s.sess p).gsId
  let s := { s with onlines := s.onlines.erase t }
  let s :=
    if (getGameClient s gs).isSome ∧ (s.sess p).state = .connect then
      offlinePlayer { s with reconMap := s.reconMap.insertIfNew t gs } gs t
    else
      removePlayer { s with onlineaccs := eraseVal s.onlineaccs t } gs t
  { s with reconTimers := s.reconTimers ++ [t] }

def eventCallRemoveReconn (s : St) (t : ℕ) : St :=
  let gs := s.reconMap[t]?.getD invalidGameId
  let s := { s with reconMap := s.reconMap.erase t, onlineaccs := eraseVal s.onlineaccs t }
  if gs ≠ invalidGameId then removePlayer s gs t else s

/-- `checkConn`: its result and the state it leaves -/
def checkConn (s : St) (t p : ℕ) : Bool × St :=
  match s.waitMap[t]? with
  | some v =>
    let channel := s.waitMapChannel[t]?.getD 0
    let s := { s with waitMap := s.waitMap.erase t, waitMapChannel := s.waitMapChannel.erase t }
    match getIdleGameClient s with
    | none => (false, s.modSess p (·.setState .waitClose))
    | some gs =>
      let s := addNewPlayer s gs t v channel
      let s := s.modSess p fun u => { u with gsId := gs }.setState .connect
      (true, { s with
        onlines := s.onlines.insertIfNew t p
        onlineaccs := s.onlineaccs.insertIfNew v t
        passed := Function.update s.passed t (some p) })
  | none =>
    match s.reconMap[t]? with
    | some gs =>
      let s := { s with reconMap := s.reconMap.erase t }
      let s := s.modSess p fun u => { u with gsId := gs }.setState .connect
      (true, { s with
        onlines := s.onlines.insertIfNew t p
        passed := Function.update s.passed t (some p) })
    | none => (false, s.modSess p (·.setState .waitClose))

/-! ## Events of a client connection and of a game server connection -/

/-- `UserSession::parseLoginGame` -/
def parseLoginGame (s : St) (p t : ℕ) : St :=
  if (s.sess p).state = .connect then s
  else
    let r := checkConn s t p
    if r.1 then r.2.modSess p fun u => { u with tranid := t } else r.2

/-- `UserSession::on_close` -/
def onClose (s : St) (p : ℕ) : St := (checkClose s p).modSess p (·.setState .disable)

/-- `GateGameClient::parseChangeGS`, received from the game server `gs`; `setClose` only posts a close -/
def parseChangeGS (s : St) (gs t newGs : ℕ) : St :=
  match s.onlines[t]? with
  | none => s
  | some p =>
    if (getGameClient s newGs).isNone then s
    else
      let tran := (s.sess p).tranid
      let s := sendGame s gs (.removeUser tran)
      if getAccount s tran ≠ invalidAccount then
        let s := s.modSess p fun u => { u with gsId := newGs }
        addNewPlayer s newGs tran (getAccount s tran) (s.sess p).channel
      else s

/-- `GameManager::removeActiveGameClient` -/
def removeActiveGameClient (s : St) (gs : ℕ) : St :=
  if (getGameClient s gs).isSome then
    let s := removeUsers s gs
    { s with activeGames := s.activeGames.erase gs }
  else s

inductive Op where
  | accept (p : ℕ)
  | addToWait (t a : ℕ) (c : ℤ)
  | kickUser (t a : ℕ)
  | loginGame (p t : ℕ)
  | onClose (p : ℕ)
  | fireRemoveWait (t : ℕ)
  | fireRemoveReconn (t : ℕ)
  | changeGS (gs t newGs : ℕ)
  | gameRegister (gs : ℕ)
  | gameOnlines (gs n : ℕ)
  | gameClose (gs : ℕ)
deriving DecidableEq, Repr

/-- one event of the gate; an event that cannot happen in the state changes nothing -/
def step (s : St) : Op → St
  | .accept p => if (s.sess p).state = .disable then s.modSess p (·.setState .waitAccount) else s
  | .addToWait t a c => addToWait s t a c
  | .kickUser t a => kickUser s t a
  | .loginGame p t => if (s.sess p).state = .disable then s else parseLoginGame s p t
  | .onClose p => if (s.sess p).state = .disable then s else onClose s p
  | .fireRemoveWait t =>
    if t ∈ s.waitTimers then eventCallRemoveWait { s with waitTimers := s.waitTimers.erase t } t else s
  | .fireRemoveReconn t =>
    if t ∈ s.reconTimers then eventCallRemoveReconn { s with reconTimers := s.reconTimers.erase t } t else s
  | .changeGS gs t newGs => if (getGameClient s gs).isSome then parseChangeGS s gs t newGs else s
  | .gameRegister gs =>
    if invalidGameId < gs ∧ gs < maxGameId then { s with activeGames := s.activeGames.insert gs 0 } else s
  | .gameOnlines gs n =>
    if (getGameClient s gs).isSome then { s with activeGames := s.activeGames.insert gs n } else s
  | .gameClose gs => removeActiveGameClient s gs

/-- the gate as it starts: no session, no game server, empty maps -/
def init (gsIdleMax : ℕ) : St := { gsIdleMax := gsIdleMax }

/-! ## What the functions leave in the maps -/

/-- a kick of an online id leaves the wait maps and the parked ids alone -/
theorem kickUser_online {s : St} {t a p : ℕ} (h : s.onlines[t]? = some p) :
    kickUser s t a = { removePlayer s (s.sess p).gsId t with
      onlines := s.onlines.erase t, onlineaccs := s.onlineaccs.erase a } := by
  simp only [kickUser, h]
  rfl

theorem kickUser_onlines (s : St) (t a j : ℕ) :
    (kickUser s t a).onlines[j]? = if j = t then none else s.onlines[j]? := by
  cases h : s.onlines[t]? with
  | some p => simp only [kickUser_online h, get_erase]
  | none =>
    have : (kickUser s t a).onlines = s.onlines := by simp only [kickUser, h]; split <;> rfl
    rw [this]
    split_ifs with e
    · exact e ▸ h
    · rfl

theorem kickUser_waitMap (s : St) (t a j : ℕ) :
    (kickUser s t a).waitMap[j]? = if j = t ∧ s.onlines[t]? = none then none else s.waitMap[j]? := by
  cases h : s.onlines[t]? with
  | some p => simp [kickUser_online h, removePlayer, sendActive]
  | none =>
    have : (kickUser s t a).waitMap = s.waitMap.erase t := by simp only [kickUser, h]; split <;> rfl
    simp only [this, get_erase, and_true]

theorem kickUser_reconMap (s : St) (t a j : ℕ) :
    (kickUser s t a).reconMap[j]? = if j = t ∧ s.onlines[t]? = none then none else s.reconMap[j]? := by
  cases h : s.onlines[t]? with
  | some p => simp [kickUser_online h, removePlayer, sendActive]
  | none =>
    simp only [kickUser, h, and_true]
    split
    · simp only [removePlayer, sendActive, get_erase]
    · split_ifs <;> simp_all

/-- `addToWait` is the kick of the online session of the id, if there is one, and an entry in the wait maps -/
theorem addToWait_onlines (s : St) (t a j : ℕ) (c : ℤ) :
    (addToWait s t a c).onlines[j]? = if j = t then none else s.onlines[j]? := by
  cases h : s.onlines[t]? with
  | some p => simp only [addToWait, h, kickUser_onlines]; rfl
  | none =>
    simp only [addToWait, h]
    split_ifs with e
    · exact e ▸ h
    · rfl

theorem addToWait_waitMap (s : St) (t a j : ℕ) (c : ℤ) :
    (addToWait s t a c).waitMap[j]? = if j = t ∧ s.waitMap[t]? = none then some a else s.waitMap[j]? := by
  cases h : s.onlines[t]? with
  | some p =>
    have hs : ∀ j : ℕ, (kickUser (s.modSess p fun u => { u with channel := c }) t a).waitMap[j]? = s.waitMap[j]? := by
      intro j
      have ho : (s.modSess p fun u => { u with channel := c }).onlines[t]? ≠ none := by simp [St.modSess, h]
      simp only [kickUser_waitMap, ho, and_false, if_false]
      rfl
    simp only [addToWait, h, get_insertIfNew, hs]
  | none => simp only [addToWait, h, get_insertIfNew]

theorem addToWait_reconMap (s : St) (t a : ℕ) (c : ℤ) : (addToWait s t a c).reconMap = s.reconMap := by
  cases h : s.onlines[t]? with
  | some p =>
    have ho : (s.modSess p fun u => { u with channel := c }).onlines[t]? = some p := h
    simp only [addToWait, h, kickUser_online ho]
    rfl
  | none => simp only [addToWait, h]

/-- what a login with a waiting id leaves when a game server is found -/
def passWait (s : St) (t p v gs : ℕ) : St :=
  { s with
    waitMap := s.waitMap.erase t
    waitMapChannel := s.waitMapChannel.erase t
    onlines := s.onlines.insertIfNew t p
    onlineaccs := s.onlineaccs.insertIfNew v t
    sess := Function.update s.sess p { s.sess p with gsId := gs, state := .connect, tranid := t }
    toGame := s.toGame ++ [(gs, .addUser t v (s.waitMapChannel[t]?.getD 0))]
    passed := Function.update s.passed t (some p) }

/-- what a login with a parked id leaves: nothing is sent to the game server -/
def passRecon (s : St) (t p gs : ℕ) : St :=
  { s with
    reconMap := s.reconMap.erase t
    onlines := s.onlines.insertIfNew t p
    sess := Function.update s.sess p { s.sess p with gsId := gs, state := .connect, tranid := t }
    passed := Function.update s.passed t (some p) }

theorem parseLoginGame_wait {s : St} {t p v gs : ℕ} (hc : (s.sess p).state ≠ .connect)
    (hw : s.waitMap[t]? = some v) (hg : getIdleGameClient s = some gs) :
    parseLoginGame s p t = passWait s t p v gs := by
  have hidle : getIdleGameClient (eventCallRemoveWait s t) = some gs := hg
  simp only [eventCallRemoveWait] at hidle
  simp only [parseLoginGame, hc, if_false, checkConn, hw, hidle, if_true, addNewPlayer, sendGame, St.modSess,
    Function.update_self, Function.update_idem]
  rfl

theorem parseLoginGame_noIdle {s : St} {t p v : ℕ} (hc : (s.sess p).state ≠ .connect) (hw : s.waitMap[t]? = some v)
    (hg : getIdleGameClient s = none) :
    parseLoginGame s p t = (eventCallRemoveWait s t).modSess p (·.setState .waitClose) := by
  have hidle : getIdleGameClient (eventCallRemoveWait s t) = none := hg
  simp only [eventCallRemoveWait] at hidle ⊢
  simp [parseLoginGame, hc, checkConn, hw, hidle]

theorem parseLoginGame_recon {s : St} {t p gs : ℕ} (hc : (s.sess p).state ≠ .connect) (hw : s.waitMap[t]? = none)
    (hr : s.reconMap[t]? = some gs) : parseLoginGame s p t = passRecon s t p gs := by
  simp only [parseLoginGame, hc, if_false, checkConn, hw, hr, if_true, St.modSess, Function.update_self,
    Function.update_idem]
  rfl

theorem parseLoginGame_unknown {s : St} {t p : ℕ} (hc : (s.sess p).state ≠ .connect) (hw : s.waitMap[t]? = none)
    (hr : s.reconMap[t]? = none) : parseLoginGame s p t = s.modSess p (·.setState .waitClose) := by
  simp [parseLoginGame, hc, checkConn, hw, hr]

/-- everything a `LoginGame` can do -/
theorem parseLoginGame_cases (s : St) (p t : ℕ) :
    (parseLoginGame s p t = s ∧ (s.sess p).state = .connect) ∨
    (parseLoginGame s p t = (eventCallRemoveWait s t).modSess p (·.setState .waitClose) ∧
      (s.sess p).state ≠ .connect ∧ s.waitMap[t]? ≠ none ∧ getIdleGameClient s = none) ∨
    (parseLoginGame s p t = s.modSess p (·.setState .waitClose) ∧ (s.sess p).state ≠ .connect ∧
      s.waitMap[t]? = none ∧ s.reconMap[t]? = none) ∨
    (∃ v gs, parseLoginGame s p t = passWait s t p v gs ∧ (s.sess p).state ≠ .connect ∧ s.waitMap[t]? = some v ∧
      getIdleGameClient s = some gs) ∨
    (∃ gs, parseLoginGame s p t = passRecon s t p gs ∧ (s.sess p).state ≠ .connect ∧ s.waitMap[t]? = none ∧
      s.reconMap[t]? = some gs) := by
  by_cases hc : (s.sess p).state = .connect
  · exact .inl ⟨by simp [parseLoginGame, hc], hc⟩
  cases hw : s.waitMap[t]? with
  | some v =>
    cases hg : getIdleGameClient s with
    | none => exact .inr (.inl ⟨parseLoginGame_noIdle hc hw hg, hc, Option.some_ne_none v, rfl⟩)
    | some gs => exact .inr (.inr (.inr (.inl ⟨v, gs, parseLoginGame_wait hc hw hg, hc, rfl, rfl⟩)))
  | none =>
    cases hr : s.reconMap[t]? with
    | none => exact .inr (.inr (.inl ⟨parseLoginGame_unknown hc hw hr, hc, rfl, rfl⟩))
    | some gs => exact .inr (.inr (.inr (.inr ⟨gs, parseLoginGame_recon hc hw hr, hc, rfl, rfl⟩)))

end DreamHeroes.Gate

/-
The game server's sessions and heroes: who is logged in through which gate, and which hero object a session plays
(`gameserver/gate_manager.cpp`, `gate_session.cpp`, `session.cpp`, `DreamHeroManager.cpp`, `DreamHero.cpp`, and the
two replies of `db_client .cpp`).

- A `Session` is created by `MsgGT2GSAddUser` and released by `MsgGT2GSRemoveUser` or by the loss of its gate. It and
  its `DreamHero` point at each other with raw pointers.
- Objects are addressed by numbers that are never used twice, so that a pointer to a released object stays one.
  `onlines` and `heroes` own the live ones.
- `destroyEvent` says that the 3 s timer `EVENT_DESTROY_PLAYER_` of the hero is armed. It may fire at any later time.
- `nullDeref` says that `parseAddUser` has called `set_channel` on the `NULL` that `addUser` returned.
- `toDB` holds the accounts whose hero data was asked for (with the transaction id that the reply will carry),
  `toClient` the gate and the transaction id of every message that was not dropped.
-/
import Mathlib.Tactic
import DreamHeroes.Lib.Machine
import DreamHeroes.Lib.OrdMap

namespace DreamHeroes.GameServer

open DreamHeroes.Lib

/-! ## State -/

inductive SessionState where
  | online
  | offline
deriving DecidableEq, Repr

structure Session where
  tranid : ℕ := 0
  account : ℕ := 0
  gate : ℕ := 0
  state : SessionState := .online
  dreamHero : Option ℕ := none
  channel : ℤ := 0
deriving DecidableEq, Repr

structure DreamHero where
  account : ℕ := 0
  session : Option ℕ := none
  online : Bool := false
  destroyClock : Bool := false
  destroyEvent : Bool := false
  channel : ℤ := 0
deriving DecidableEq, Repr

structure St where
  onlines : Std.TreeMap ℕ ℕ := ∅
  heroes : Std.TreeMap ℕ ℕ := ∅
  sess : ℕ → Session := fun _ => {}
  hero : ℕ → DreamHero := fun _ => {}
  nextSess : ℕ := 1
  nextHero : ℕ := 1
  nullDeref : Bool := false
  toDB : List (ℕ × ℕ) := []
  toClient : List (ℕ × ℕ) := []

def St.modSess (s : St) (p : ℕ) (f : Session → Session) : St :=
  { s with sess := Function.update s.sess p (f (s.sess p)) }

def St.modHero (s : St) (h : ℕ) (f : DreamHero → DreamHero) : St :=
  { s with hero := Function.update s.hero h (f (s.hero h)) }

/-! ## The hero side -/

def startDestroyTime (s : St) (h : ℕ) : St :=
  s.modHero h fun x => { x with destroyClock := true, destroyEvent := true }

def stopDestroyClock (s : St) (h : ℕ) : St :=
  s.modHero h fun x => { x with destroyClock := false, destroyEvent := false }

def setSession (s : St) (h : ℕ) (p : Option ℕ) : St := s.modHero h fun x => { x with session := p }

/-- `Session::sendPBMessage`: what is sent to a client that is offline is dropped -/
def sendPBMessage (s : St) (p : ℕ) : St :=
  { s with toClient :=
      if (s.sess p).state = .online then s.toClient ++ [((s.sess p).gate, (s.sess p).tranid)] else s.toClient }

/-- `DreamHero::SendClientInit` -/
def sendClientInit (s : St) (h : ℕ) : St :=
  let s := stopDestroyClock s h
  let s := s.modHero h fun x => { x with online := true }
  match (s.hero h).session with
  | some p => sendPBMessage s p
  | none => s

/-- `CreateHero` from the reply of the database, whose data carries the account `infoAccount` -/
def createHeroFrom (s : St) (infoAccount acc p : ℕ) : ℕ × St :=
  let r : ℕ × St := match s.heroes[acc]? with
    | some h => (h, s)
    | none =>
      let h := s.nextHero
      let s := s.modHero h fun _ => { account := infoAccount, channel := (s.sess p).channel }
      (h, { s with nextHero := h + 1, heroes := s.heroes.insertIfNew infoAccount h })
  let s := r.2.modHero r.1 fun x => { x with account := acc, session := some p }
  (r.1, stopDestroyClock s r.1)

/-- `CreateHero` from the configuration -/
def createHero (s : St) (acc p : ℕ) : ℕ × St :=
  let r : ℕ × St := match s.heroes[acc]? with
    | some h => (h, s)
    | none =>
      let h := s.nextHero
      (h, { s.modHero h fun _ => { channel := (s.sess p).channel } with nextHero := h + 1 })
  let s := r.2.modHero r.1 fun x => { x with session := some p, account := acc }
  let s := stopDestroyClock s r.1
  (r.1, { s with heroes := s.heroes.insertIfNew acc r.1 })

/-- `DreamHeroManager::DestroyHero`; the timers of a deleted hero are gone with it -/
def destroyHero (s : St) (h : ℕ) : St :=
  if s.heroes[(s.hero h).account]? = some h then
    { s.modHero h fun x => { x with destroyEvent := false } with heroes := s.heroes.erase (s.hero h).account }
  else s

/-- `DreamHero::Destroy`, the callback of the destroy timer -/
def destroy (s : St) (h : ℕ) : St :=
  let s := match (s.hero h).session with
    | some p => s.modSess p fun u => { u with dreamHero := none }
    | none => s
  destroyHero s h

/-! ## The session side -/

/-- `Session::Session` and the address of the new object -/
def newSession (s : St) (t a g : ℕ) : ℕ × St :=
  let p := s.nextSess
  let s := { s.modSess p fun _ => { tranid := t, account := a, gate := g } with nextSess := p + 1 }
  match s.heroes[a]? with
  | some h =>
    let s := stopDestroyClock s h
    let s := s.modSess p fun u => { u with dreamHero := some h }
    (p, sendClientInit (setSession s h (some p)) h)
  | none => (p, { s with toDB := s.toDB ++ [(a, t)] })

/-- `Session::close` -/
def closeSession (s : St) (p : ℕ) : St :=
  match (s.sess p).dreamHero with
  | some h => startDestroyTime s h
  | none => s

/-- `Session::~Session`, run by `Memory::releaseObject` -/
def releaseSession (s : St) (p : ℕ) : St :=
  match (s.sess p).dreamHero with
  | some h => (setSession (startDestroyTime s h) h none).modSess p fun u => { u with dreamHero := none }
  | none => s

def setReconnet (s : St) (p : ℕ) : St :=
  let s := s.modSess p fun u => { u with state := .online }
  match (s.sess p).dreamHero with
  | some h => s.modHero h fun x => { x with online := true }
  | none => s

def setWaitReconnet (s : St) (p : ℕ) : St :=
  let s := s.modSess p fun u => { u with state := .offline }
  match (s.sess p).dreamHero with
  | some h => s.modHero h fun x => { x with online := false }
  | none => s

/-! ## The gate manager -/

/-- `GateManager::addUser`: the session it returns, `none` for `NULL`, and the state it leaves -/
def addUser (s : St) (t a g : ℕ) : Option ℕ × St :=
  match s.onlines[t]? with
  | none =>
    let r := newSession s t a g
    (some r.1, { r.2 with onlines := r.2.onlines.insertIfNew t r.1 })
  | some p => if (s.sess p).gate = g ∧ (s.sess p).account = a then (some p, setReconnet s p) else (none, s)

/-- `GateSession::parseAddUser` on the connection of the gate `g` -/
def parseAddUser (s : St) (g t a : ℕ) (channel : ℤ) : St :=
  let r := addUser s t a g
  match r.1 with
  | some p => r.2.modSess p fun u => { u with channel := channel }
  | none => { r.2 with nullDeref := true }

/-- the body of `removeUser` and of the loop of `removeUserByGate`: close, release, erase -/
def dropUser (s : St) (t p : ℕ) : St :=
  let s := releaseSession (closeSession s p) p
  { s with onlines := s.onlines.erase t }

def removeUser (s : St) (t : ℕ) : St :=
  match s.onlines[t]? with
  | some p => dropUser s t p
  | none => s

/-- the loop of `removeUserByGate` over the entries of `m_Onlines` -/
def removeLoop (g : ℕ) (s : St) (l : List (ℕ × ℕ)) : St :=
  l.foldl (fun s e => if (s.sess e.2).gate = g then dropUser s e.1 e.2 else s) s

def removeUserByGate (s : St) (g : ℕ) : St := removeLoop g s s.onlines.toList

def offlineUser (s : St) (t : ℕ) : St :=
  match s.onlines[t]? with
  | some p => setWaitReconnet s p
  | none => s

/-! ## The replies of the database -/

/-- `Session::praseDBQueryHeroInfo` of the session that is online under `t` -/
def parseQueryHeroInfo (s : St) (t infoAccount : ℕ) : St :=
  match s.onlines[t]? with
  | none => s
  | some p =>
    let s := match (s.sess p).dreamHero with
      | some _ => s
      | none =>
        let r := createHeroFrom s infoAccount (s.sess p).account p
        r.2.modSess p fun u => { u with dreamHero := some r.1 }
    match (s.sess p).dreamHero with
    | some h => sendClientInit s h
    | none => s

/-- `Session::parseDBQueryNeedCreateHero` of the session that is online under `t` -/
def parseNeedCreateHero (s : St) (t : ℕ) : St :=
  match s.onlines[t]? with
  | none => s
  | some p =>
    let r := createHero s (s.sess p).account p
    sendClientInit (r.2.modSess p fun u => { u with dreamHero := some r.1 }) r.1

inductive Op where
  | addUser (g t a : ℕ) (channel : ℤ)
  | removeUser (t : ℕ)
  | offlineUser (t : ℕ)
  | removeUserByGate (g : ℕ)
  | queryHeroInfo (t infoAccount : ℕ)
  | needCreateHero (t : ℕ)
  | clientMsg (t : ℕ)
  | fireDestroy (h : ℕ)
deriving DecidableEq, Repr

/-- one event of the game server; a client message is answered and touches no pointer -/
def step (s : St) : Op → St
  | .addUser g t a c => parseAddUser s g t a c
  | .removeUser t => removeUser s t
  | .offlineUser t => offlineUser s t
  | .removeUserByGate g => removeUserByGate s g
  | .queryHeroInfo t i => parseQueryHeroInfo s t i
  | .needCreateHero t => parseNeedCreateHero s t
  | .clientMsg t => match s.onlines[t]? with
    | some p => sendPBMessage s p
    | none => s
  | .fireDestroy h => if (s.hero h).destroyEvent then destroy s h else s

def init : St := {}

end DreamHeroes.GameServer

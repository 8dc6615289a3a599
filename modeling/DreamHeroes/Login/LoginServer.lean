/-
The login server (`login/user_session.cpp`, `account_manager.cpp`, `gate_manager.cpp`, `gate_session.cpp`,
`LGHttpManager.cpp`) on top of the network layer of `Net.TcpServer`.

- `net` is the pool of `UserLoginSession` objects; `user p` holds what `UserLoginSession` adds to the object `p`. The
  callbacks of the network layer run `on_accept` and `on_close`, and whatever frees an object resets it.
- `recv` is the queue of received messages, `tasks` the database tasks that are still to call back, `https` and
  `complete` the queues of `HttpManager`. All of them, and `waits` (`m_WaitSessions`), name a session by its address.
- The database answers a task with any row, the platform a request with any reply, the gates send what they like.
- Pairs `(p, gen)` are connections. `conn` in a message, a task or a waiting session is bookkeeping of the model: the
  connection the request came on. So are `granted` (account, transaction id, connection), `Wait.acct`, `confirm` and
  `LoginHttpTask.answer`. The code reads none of them.
- `sent` and `toGate` are what is handed to the network, oldest first.
-/
import Mathlib.Tactic
import DreamHeroes.Lib.Machine
import DreamHeroes.Lib.Text
import DreamHeroes.Common.Crypt
import DreamHeroes.Net.TcpServer

namespace DreamHeroes.Login

open DreamHeroes.Lib DreamHeroes.Crypt

/-! ## Configuration -/

structure VersionTg where
  number1 : ℤ := 0
  number2 : ℤ := 0
  number3 : ℤ := 0
deriving DecidableEq, Repr

structure LoginConfig where
  version : VersionTg := {}
  channels : List ℤ := []
  needPlatformVerify : Bool := false

/-- `LoginConfig::CompareVersion`: the third number is not compared -/
def LoginConfig.compareVersion (c : LoginConfig) (v : VersionTg) : Bool :=
  c.version.number1 = v.number1 ∧ c.version.number2 = v.number2

/-- `LoginConfig::CompareChannel` -/
def LoginConfig.compareChannel (c : LoginConfig) (channel : ℤ) : Bool := c.channels.any (· = channel)

/-- the configuration, and what the build and the network fix -/
structure Cfg where
  config : LoginConfig := {}
  /-- the address of the peer of a connection -/
  addr : ℕ × ℕ → String := fun _ => ""
  /-- built without assertions -/
  ndebug : Bool := true

/-! ## Messages -/

structure LoginRequest where
  name : String := ""
  pwd : String := ""
  version : VersionTg := {}
  channel : ℤ := 0
deriving DecidableEq, Repr

structure RegisterAccountRequest where
  name : String
  pwd : String
deriving DecidableEq, Repr

/-- the fields that only go into the url are left out -/
structure C2SPlatformVerifyReq where
  userId : String
  channelId : ℤ
deriving DecidableEq, Repr

inductive Msg where
  | loginRequest (m : LoginRequest)
  | registerAccountRequest (m : RegisterAccountRequest)
  | platformVerifyReq (m : C2SPlatformVerifyReq)
deriving DecidableEq, Repr

inductive LoginResult where
  | success
  | fail
  | nameFail
  | errorVersion
  | errorChannel
  | errorNeedThirdVerify
deriving DecidableEq, Repr

structure LoginResponse where
  gateIp : String := ""
  gatePort : ℕ := 0
  userAccount : Option UInt32 := none
  result : LoginResult
  version : Option VersionTg := none
deriving DecidableEq, Repr

inductive Reply where
  | loginResponse (m : LoginResponse)
  | registerAccountFaildACK
  | platformVerifyACK (userId nickName token : String) (success : Bool)
deriving DecidableEq, Repr

structure GTLGData where
  account : ℕ
  transid : UInt32
deriving DecidableEq, Repr

structure MsgGTRegisterLG where
  serverid : ℕ
  ip : String
  port : ℕ
  accounts : List GTLGData
deriving DecidableEq, Repr

inductive GateMsg where
  | kickUser (data : GTLGData)
  | userLogin (data : GTLGData) (channel : ℤ)
deriving DecidableEq, Repr

/-! ## State -/

inductive SessionState where
  | disable
  | waitData
  | checkingData
  | waitGate
  | waitClose
  | waitPlatform
  | platformSuccess
deriving DecidableEq, Repr

/-- what was known when a verification succeeded: the connection that asked, and the user id of a reply with status 0 -/
structure Confirm where
  conn : ℕ × ℕ
  answer : Option String
deriving DecidableEq, Repr

structure UserLoginSession where
  accid : ℕ := 0
  state : SessionState := .disable
  channel : ℤ := 0
  platformUserId : String := ""
  confirm : Option Confirm := none
deriving DecidableEq, Repr

inductive CheckType where
  | loginCheck
  | newAccCheck
deriving DecidableEq, Repr

structure CheckAcct where
  str : String
  pwd : String
  channel : ℤ
  checkType : CheckType
  ower : ℕ
  acct : ℕ := 0
  /-- 0 is `_check_pass_` -/
  result : ℕ := 0
  conn : ℕ × ℕ
deriving DecidableEq, Repr

structure Account where
  nGateId : ℕ := 0
  nId : ℕ := 0
  nTranId : UInt32 := 0
deriving DecidableEq, Repr

structure LoginHttpTask where
  userId : String
  channelId : ℤ
  /-- the constructor leaves it as it is -/
  status : ℤ
  nickName : String := ""
  sToken : String := ""
  session : ℕ
  conn : ℕ × ℕ
  answer : Option String := none
deriving DecidableEq, Repr

/-- `none`: no status, or a value of another type; a text that is missing is `some ""` -/
structure HttpReply where
  status : Option ℤ
  userId : Option String := none
  nickName : Option String := none
  token : Option String := none
deriving DecidableEq, Repr

structure GateSession where
  gateId : ℕ := 0
  onlines : ℕ := 0
  outIp : String := "127.0.0.1"
  outPort : ℕ := 0
  balenceTime : List ℕ := []
deriving DecidableEq, Repr

/-- an entry of `m_WaitSessions` is the address `session` -/
structure Wait where
  session : ℕ
  acct : ℕ
  conn : ℕ × ℕ
deriving DecidableEq, Repr

structure St where
  net : Net.St := {}
  user : ℕ → UserLoginSession := fun _ => {}
  recv : List ((ℕ × ℕ) × Msg) := []
  tasks : List CheckAcct := []
  https : List LoginHttpTask := []
  complete : List LoginHttpTask := []
  accts : ℕ → Option Account := fun _ => none
  waits : UInt32 → Option Wait := fun _ => none
  gate : ℕ → GateSession := fun _ => {}
  gates : ℕ → Option ℕ := fun _ => none
  serverTime : ℕ := 0
  /-- an assertion has failed: the process is gone -/
  aborted : Bool := false
  sent : List ((ℕ × ℕ) × Reply) := []
  toGate : List (ℕ × GateMsg) := []
  granted : List (ℕ × UInt32 × (ℕ × ℕ)) := []

def St.modUser (s : St) (p : ℕ) (f : UserLoginSession → UserLoginSession) : St :=
  { s with user := Function.update s.user p (f (s.user p)) }

/-- the timer that `setState` arms calls `setClose`, which does nothing -/
def setState (s : St) (p : ℕ) (x : SessionState) : St := s.modUser p fun u => { u with state := x }

/-- `send_message` drops what is sent to an object without a connection -/
def sendPBMessage (s : St) (p : ℕ) (r : Reply) : St :=
  { s with sent := s.sent ++
      if (s.net.sess p).isvalid ∧ (s.net.sess p).isconnected then [(s.net.conn p, r)] else [] }

/-- `get_remote_address_string`: an object that is waiting for its peer has none -/
def getRemoteAddressString (cfg : Cfg) (s : St) (p : ℕ) : String :=
  if (s.net.sess p).father then cfg.addr (s.net.conn p)
  else if p ∈ s.net.posted then cfg.addr (p, (s.net.sess p).gen + 1)
  else ""

/-! ## Gates -/

def maxGateId : ℕ := 0xff

/-- `GateSession::getBalenceCount`, an `int` -/
def GateSession.getBalenceCount (g : GateSession) : ℤ := Int.bmod (g.onlines + g.balenceTime.length) (2 ^ 32)

/-- `GateSession::addBalenceTime` -/
def GateSession.addBalenceTime (g : GateSession) (now : ℕ) : GateSession :=
  { g with balenceTime := g.balenceTime ++ [now] }

/-- `GateSession::balenceInfoEvent`: `_BALENCE_TIME_ * 20 + time_temp`, where the macro is `2 * 1000` -/
def GateSession.balenceInfoEvent (g : GateSession) (now : ℕ) : GateSession :=
  { g with balenceTime := g.balenceTime.filter fun t => ¬now > 2 * 1000 * 20 + t }

def St.modGate (s : St) (q : ℕ) (f : GateSession → GateSession) : St :=
  { s with gate := Function.update s.gate q (f (s.gate q)) }

/-- `GateManager::addGate` -/
def addGate (s : St) (nId q : ℕ) : St :=
  if nId > 0 ∧ nId < maxGateId then { s with gates := Function.update s.gates nId (some q) } else s

/-- `GateManager::removeGate` -/
def removeGate (s : St) (q : ℕ) : St :=
  let nId := (s.gate q).gateId
  if nId > 0 ∧ nId < maxGateId ∧ s.gates nId = some q then { s with gates := Function.update s.gates nId none } else s

/-- `GateManager::getIdleGate`: the first with the smallest count -/
def getIdleGate (s : St) : Option ℕ :=
  (List.range maxGateId).foldl (fun best i =>
    match s.gates i, best with
    | none, best => best
    | some q, none => some q
    | some q, some b => if (s.gate b).getBalenceCount > (s.gate q).getBalenceCount then some q else some b) none

/-- `GateManager::kickUserFromGate` -/
def kickUserFromGate (s : St) (p : Account) : St :=
  { s with toGate := s.toGate ++
      if p.nGateId < maxGateId then
        (s.gates p.nGateId).toList.map fun q => (q, GateMsg.kickUser ⟨p.nId, p.nTranId⟩)
      else [] }

/-- `m_Accts[a] = p` -/
def setAcct (s : St) (a : ℕ) (p : Account) : St := { s with accts := Function.update s.accts a (some p) }

/-- `AccountManager::removeAccount` -/
def removeAccount (s : St) (a : ℕ) : St := { s with accts := Function.update s.accts a none }

/-- `m_WaitSessions.addData`, which keeps the session that is there -/
def addWait (s : St) (t : UInt32) (w : Wait) : St :=
  { s with waits := Function.update s.waits t ((s.waits t).or (some w)) }

/-- `GateManager::removeWaitSession` -/
def removeWaitSession (s : St) (t : UInt32) : St := { s with waits := Function.update s.waits t none }

/-- `GateManager::giveUserToGate` for the account `a`; `none`: there is no gate -/
def giveUserToGate (s : St) (a : ℕ) (pkAccount : Account) (pkSession : ℕ) (conn : ℕ × ℕ) : Option St :=
  match getIdleGate s with
  | none => none
  | some q =>
    let pkAccount := { pkAccount with nGateId := (s.gate q).gateId }
    let data : GTLGData := ⟨pkAccount.nId, pkAccount.nTranId⟩
    let s := setAcct s a pkAccount
    let s := s.modUser pkSession fun u => { u with accid := pkAccount.nId }
    let s := setState s pkSession .waitGate
    let s := s.modGate q fun g => g.addBalenceTime s.serverTime
    let s := addWait s pkAccount.nTranId ⟨pkSession, a, conn⟩
    some { s with
      toGate := s.toGate ++ [(q, .userLogin data (s.user pkSession).channel)]
      granted := s.granted ++ [(a, pkAccount.nTranId, conn)] }

/-- `GateManager::receiveUserPrepar` -/
def receiveUserPrepar (s : St) (ntran : ℕ) (ip : String) (port : ℕ) : St :=
  let t := UInt32.ofNat ntran
  match s.waits t with
  | none => s
  | some w =>
    let s := sendPBMessage s w.session (.loginResponse
      { gateIp := ip, gatePort := port, userAccount := some t, result := .success })
    let s := setState s w.session .waitClose
    removeWaitSession s t

/-! ## Accounts -/

/-- `AccountManager::makeTransId` -/
def makeTransId (str : String) (now : ℕ) : UInt32 := sslCrc32 (str ++ toString now)

/-- `AccountManager::addAccount` -/
def addAccount (s : St) (account : ℕ) (tranid : UInt32) (gate : ℕ) : St :=
  setAcct s account { nGateId := gate, nId := account, nTranId := tranid }

/-- `AccountManager::checkAccount` -/
def checkAccount (s : St) (strName strPwd : String) (channel : ℤ) (p : ℕ) (t : CheckType) (conn : ℕ × ℕ) : St :=
  let s := setState s p .checkingData
  { s with tasks := s.tasks ++ [{ str := strName, pwd := strPwd, channel, checkType := t, ower := p, conn }] }

/-- `AccountManager::batchQuery`: the row the procedure returns, if any -/
def CheckAcct.batchQuery (d : CheckAcct) (row : Option (ℕ × ℕ)) : CheckAcct :=
  match row with
  | none => d
  | some (acct, result) => { d with acct, result }

/-- `AccountManager::CreateNewAccount` -/
def createNewAccount (s : St) (d : CheckAcct) (sucess : Bool) : St :=
  if (s.net.sess d.ower).isvalid then
    if !sucess then setState (sendPBMessage s d.ower .registerAccountFaildACK) d.ower .waitClose
    else if d.result ≠ 0 then setState (sendPBMessage s d.ower .registerAccountFaildACK) d.ower .waitClose
    else { s with tasks := s.tasks ++
      [{ str := d.str, pwd := d.pwd, channel := 0, checkType := .loginCheck, ower := d.ower, conn := d.conn }] }
  else s

/-- the transaction id a login gets -/
def loginId (cfg : Cfg) (s : St) (d : CheckAcct) (now : ℕ) : UInt32 :=
  makeTransId (d.str ++ d.pwd ++ getRemoteAddressString cfg s d.ower) now

/-- the account that is in already is kicked from its gate -/
def kickOld (s : St) (a : ℕ) : St :=
  match s.accts a with
  | some p => kickUserFromGate s p
  | none => s

/-- only a message to a gate comes of it -/
theorem kickOld_eq (s : St) (a : ℕ) : ∃ msgs, kickOld s a = { s with toGate := s.toGate ++ msgs } := by
  unfold kickOld
  split
  · exact ⟨_, rfl⟩
  · exact ⟨[], by rw [List.append_nil]⟩

/-- `AccountManager::checkAccountCall` -/
def checkAccountCall (cfg : Cfg) (s : St) (d : CheckAcct) (sucess : Bool) (now : ℕ) : St :=
  if (s.net.sess d.ower).isvalid then
    if !sucess then setState (sendPBMessage s d.ower (.loginResponse { result := .fail })) d.ower .waitClose
    else if d.acct ≠ 0 then
      let p : Account := { nGateId := 0, nId := d.acct, nTranId := loginId cfg s d now }
      let s := setAcct (kickOld s d.acct) d.acct p
      match giveUserToGate s d.acct p d.ower d.conn with
      | some s => s
      | none =>
        let s := removeAccount s d.acct
        setState (sendPBMessage s d.ower (.loginResponse { result := .fail })) d.ower .waitClose
    else sendPBMessage (setState s d.ower .waitClose) d.ower (.loginResponse { result := .nameFail })
  else s

/-! ## Messages of a gate -/

/-- the loop of `GateSession::parseGateRegister` -/
def registerAccounts (cfg : Cfg) (gateId : ℕ) : List GTLGData → St → St
  | [], s => s
  | d :: ds, s =>
    match s.accts d.account with
    | none => registerAccounts cfg gateId ds (addAccount s d.account d.transid gateId)
    | some p =>
      if p.nGateId = gateId then registerAccounts cfg gateId ds (addAccount s d.account d.transid gateId)
      else if cfg.ndebug then
        registerAccounts cfg gateId ds (addAccount (kickUserFromGate s p) d.account d.transid gateId)
      else { s with aborted := true }

/-- `GateSession::parseGateRegister`; a gate with an old version is registered before it is closed -/
def parseGateRegister (cfg : Cfg) (s : St) (q : ℕ) (m : MsgGTRegisterLG) : St :=
  let gateId := m.serverid % 2 ^ 8
  let s := s.modGate q fun g =>
    { g with gateId, onlines := m.accounts.length, outIp := m.ip, outPort := m.port % 2 ^ 16 }
  registerAccounts cfg gateId m.accounts (addGate s gateId q)

/-- `GateSession::parseGateUserPrepar` -/
def parseGateUserPrepar (s : St) (q account : ℕ) : St := receiveUserPrepar s account (s.gate q).outIp (s.gate q).outPort

/-! ## Platform -/

/-- `LoginHttpTask::excute`: what is read from the reply before a value of another type ends it -/
def LoginHttpTask.excute (t : LoginHttpTask) (r : HttpReply) : LoginHttpTask :=
  match r.status with
  | none => t
  | some n =>
    let t := { t with status := n }
    if n ≠ 0 then t else
    match r.userId with
    | none => t
    | some u =>
      let t := { t with userId := u, answer := some u }
      match r.nickName with
      | none => t
      | some nick => { t with nickName := nick, sToken := r.token.getD t.sToken }

/-- `LoginHttpTask::logicExcute` -/
def logicExcute (s : St) (t : LoginHttpTask) : St :=
  let success : Bool := (s.user t.session).state = .waitPlatform ∧ t.status = 0
  let s := if success then
      s.modUser t.session fun u =>
        { u with state := .platformSuccess, channel := t.channelId, confirm := some ⟨t.conn, t.answer⟩ }
    else s
  sendPBMessage s t.session (.platformVerifyACK (cStr t.userId) (cStr t.nickName) (cStr t.sToken) success)

/-! ## Messages of a client -/

/-- `UserLoginSession::parsePlatformVerify`; `status` is what the new task finds in its field -/
def parsePlatformVerify (s : St) (p : ℕ) (m : C2SPlatformVerifyReq) (status : ℤ) (conn : ℕ × ℕ) : St :=
  if (s.user p).platformUserId = "" ∨ (s.user p).platformUserId = m.userId then
    let task : LoginHttpTask := { userId := cStr m.userId, channelId := m.channelId, status, session := p, conn }
    setState { s with https := s.https ++ [task] } p .waitPlatform
  else s

/-- the checks of a login request that the server needs no account for -/
def requestResult (cfg : Cfg) (m : LoginRequest) : Option LoginResponse :=
  if ¬cfg.config.compareVersion m.version then some { result := .errorVersion, version := some cfg.config.version }
  else if ¬cfg.config.compareChannel m.channel then some { result := .errorChannel }
  else if m.name.utf8ByteSize ≥ 128 ∨ m.pwd.utf8ByteSize ≥ 128 then some { result := .nameFail }
  else none

/-- the first condition of `parseLoginGame` -/
def mustVerify (cfg : Cfg) (m : LoginRequest) : Bool := cfg.config.needPlatformVerify ∧ m.channel ≠ 0

/-- the second condition of `parseLoginGame` -/
def refused (s : St) (p : ℕ) (m : LoginRequest) : Bool :=
  (s.user p).state ≠ .platformSuccess ∨ m.name ≠ (s.user p).platformUserId

/-- `UserLoginSession::parseLoginGame`: a request that is refused for its verification still goes on to the checks, one
that is not refused does not -/
def parseLoginGame (cfg : Cfg) (s : St) (p : ℕ) (m : LoginRequest) (conn : ℕ × ℕ) : St :=
  let check_account : Bool := if mustVerify cfg m then refused s p m else true
  let s := if mustVerify cfg m ∧ refused s p m then
      sendPBMessage s p (.loginResponse { result := .errorNeedThirdVerify })
    else s
  if check_account then
    match requestResult cfg m with
    | some r => sendPBMessage s p (.loginResponse r)
    | none => checkAccount s m.name m.pwd m.channel p .loginCheck conn
  else s

/-- `UserLoginSession::parseRegister` -/
def parseRegister (s : St) (p : ℕ) (m : RegisterAccountRequest) (conn : ℕ × ℕ) : St :=
  checkAccount s m.name m.pwd 0 p .newAccCheck conn

/-- `UserLoginSession::proc_message` -/
def procMessage (cfg : Cfg) (s : St) (conn : ℕ × ℕ) (m : Msg) (status : ℤ) : St :=
  match m with
  | .loginRequest m => parseLoginGame cfg s conn.1 m conn
  | .registerAccountRequest m => parseRegister s conn.1 m conn
  | .platformVerifyReq m => parsePlatformVerify s conn.1 m status conn

/-! ## The server -/

/-- `UserLoginSession::on_accept` -/
def onAccept (s : St) (p : ℕ) : St := setState s p .waitData

/-- `UserLoginSession::on_close`, without what `tcp_session::on_close` does -/
def onClose (s : St) (p : ℕ) : St := s.modUser p fun u => { u with state := .disable, platformUserId := "" }

/-- `UserLoginSession::reset`, without what `tcp_session::reset` does -/
def reset (s : St) (p : ℕ) : St := s.modUser p fun u => { u with state := .disable, accid := 0 }

/-- an event of the network layer, with the callbacks and the resets it leads to -/
def netStep (s : St) (o : Net.Op) : St :=
  let next := { s with net := Net.step s.net o }
  match o with
  | .accept p r => if p ∈ s.net.accepting ∧ r ≠ .ok then reset next p else next
  | .poll =>
    match s.net.cb with
    | [] => next
    | .onAccept p _ :: _ => onAccept next p
    | .onClose p _ :: _ => if (s.net.sess p).father then reset (onClose next p) p else onClose next p
  | _ => next

/-- `handle_read_some` with the messages of the complete frames -/
def read (s : St) (p gen : ℕ) (r : Net.ReadResult) (msgs : List Msg) : St :=
  let next := netStep s (.readSome p gen r)
  if s.net.reads.contains (p, gen) ∧ (s.net.sess p).isvalid ∧ (s.net.sess p).father ∧ r ≠ .error then
    { next with recv := next.recv ++ msgs.map fun m => ((p, gen), m) }
  else next

/-- one message of the queue; `status`: see `parsePlatformVerify` -/
def process (cfg : Cfg) (s : St) (status : ℤ) : St :=
  match s.recv with
  | [] => s
  | (conn, m) :: rest =>
    let s := { s with recv := rest }
    if (s.net.sess conn.1).isvalid ∧ (s.net.sess conn.1).isconnected then procMessage cfg s conn m status else s

/-- the callback of the `i`-th task of the database; the workers may finish them in any order -/
def dbDone (cfg : Cfg) (s : St) (i : ℕ) (row : Option (ℕ × ℕ)) (sucess : Bool) (now : ℕ) : St :=
  match s.tasks[i]? with
  | none => s
  | some d =>
    let s := { s with tasks := s.tasks.eraseIdx i }
    match d.checkType with
    | .loginCheck => checkAccountCall cfg s (d.batchQuery row) sucess now
    | .newAccCheck => createNewAccount s (d.batchQuery row) sucess

/-- one task of the thread that talks to the platform -/
def httpUpdate (s : St) (r : HttpReply) : St :=
  match s.https with
  | [] => s
  | t :: rest => { s with https := rest, complete := s.complete ++ [t.excute r] }

/-- one task of `HttpManager::logicUpdate` -/
def logicUpdate (s : St) : St :=
  match s.complete with
  | [] => s
  | t :: rest => logicExcute { s with complete := rest } t

inductive Op where
  | net (o : Net.Op)
  | read (p gen : ℕ) (r : Net.ReadResult) (msgs : List Msg)
  | process (status : ℤ)
  | dbDone (i : ℕ) (row : Option (ℕ × ℕ)) (sucess : Bool) (now : ℕ)
  | httpUpdate (r : HttpReply)
  | logicUpdate
  | gateRegister (q : ℕ) (m : MsgGTRegisterLG)
  | gateOnlines (q onlines : ℕ)
  | gateUserPrepar (q account : ℕ)
  | gateClose (q : ℕ)
  | balenceInfoEvent (q : ℕ)
  | tick (now : ℕ)
deriving DecidableEq, Repr

/-- one event; nothing happens once an assertion has failed -/
def step (cfg : Cfg) (s : St) (o : Op) : St :=
  if s.aborted then s else
  match o with
  | .net o => netStep s o
  | .read p gen r msgs => read s p gen r msgs
  | .process status => process cfg s status
  | .dbDone i row sucess now => dbDone cfg s i row sucess now
  | .httpUpdate r => httpUpdate s r
  | .logicUpdate => logicUpdate s
  | .gateRegister q m => parseGateRegister cfg s q m
  | .gateOnlines q onlines => s.modGate q fun g => { g with onlines }
  | .gateUserPrepar q account => parseGateUserPrepar s q account
  | .gateClose q => removeGate s q
  | .balenceInfoEvent q => s.modGate q fun g => g.balenceInfoEvent s.serverTime
  | .tick now => { s with serverTime := now }

/-- the server once `n` session objects are in the pool -/
def create (n onceListenCount : ℕ) : St := { net := Net.create n onceListenCount }

end DreamHeroes.Login

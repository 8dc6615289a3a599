/-
The timers of a client session of the gate server (`gateserver/user_session.cpp`), over the timers of the process
(`Common/EventTable.lean`): the 20 seconds for the account, the 1 second before a close, the minute without a ping, and
the pings every 2 seconds.

The model is one session `p`. Everything else in the process works on the same table of timers, as the operation `other`
with any timer of any other object.

- `setState`, `parsePingMsg`, `parseLoginGame`: what they do to the timers of the session. `checkConn` is the parameter
  of the operation `loginGame`: the game server it finds, or none.
- `opened`: between `on_accept` and `on_close`. The socket is read before `on_accept` is called, so messages may come
  before.
- `closing`: `close` has been called since `on_accept`. It only posts the close of the socket; the `on_close` it leads
  to is the operation `onClose`, which a client that drops its connection leads to as well.
- `accepted`, `ending`, `heard`, `pinged` and `calls` are bookkeeping: when `on_accept` was last called, when the
  session was last told to close, when it last sent a ping or a login, when it was last sent a ping, and what its timers
  called.

- `Right`: what a timer of the session is, and since when it counts. `Guarded`: the timer that closes the session.
  `Pinging`: the timer of the pings is one.
- `Ready`: what holds of them between two updates. `Ready.setState`, `Ready.heardNow` and `Ready.startPing` keep it.
- `guarded_waitAccount`, `guarded_waitClose`, `guarded_connect`: the steps that arm the timer of a state.
-/
import Mathlib.Tactic
import DreamHeroes.Common.PendingEvents
import DreamHeroes.Gate.UserManager

namespace DreamHeroes.KeepAlive

open DreamHeroes.Lib DreamHeroes.Gate DreamHeroes.Events

def eventUserSessionClose : ℕ := 1
def eventWaitPingInfo : ℕ := 6
def eventPingTimeInfo : ℕ := 7
def eventFlagDeletesObject : ℕ := 2

def waitAccountDataTime : ℕ := 20000
def waitCloseTime : ℕ := 1000
def pingTime : ℕ := 2000
def noPingTime : ℕ := 60000

/-! ## State -/

/-- the functions the timers call; `other` is one of another class -/
inductive Callback where
  | setClose
  | noPing
  | pingNotify
  | other (k : ℕ)
deriving DecidableEq, Repr

structure Session where
  user : UserSession := {}
  pingCount : ℕ := 0
  opened : Bool := false
  closing : Bool := false
  accepted : Option ℕ := none
  ending : Option ℕ := none
  heard : Option ℕ := none
  /-- when the pings started, or the last one was sent -/
  pinged : Option ℕ := none
deriving DecidableEq, Repr

/-- a call of a timer: the clock, and the session before it -/
structure Call where
  cb : Callback
  clock : ℕ
  session : Session
deriving DecidableEq, Repr

structure St where
  table : Table Callback := {}
  session : Session := {}
  /-- `MsgS2CPingNotify`: the counts sent to the client -/
  toClient : List ℕ := []
  calls : List Call := []

/-! ## Sessions and their timers -/

def does (t : Table Callback) (a : Act Callback) : Table Callback := Events.step t (.act a)

/-- the timers of `UserSession::setState` -/
def setStateEvents (t : Table Callback) (p : ℕ) : SessionState → Table Callback
  | .disable => does t (.removeEvents p eventUserSessionClose)
  | .waitAccount =>
    does t (.addEvent ⟨p, some .setClose, eventUserSessionClose, waitAccountDataTime, 1, eventFlagDeletesObject⟩)
  | .connect =>
    if eventHasEvent t p eventUserSessionClose then does t (.removeEvents p eventUserSessionClose) else t
  | .waitClose =>
    if eventHasEvent t p eventUserSessionClose then
      does t (.modifyTimeAndTimeLeft p eventUserSessionClose waitCloseTime)
    else does t (.addEvent ⟨p, some .setClose, eventUserSessionClose, waitCloseTime, 1, eventFlagDeletesObject⟩)

/-- `UserSession::setState` at the time `clock`; the timers are `setStateEvents` -/
def Session.setState (x : Session) (s : SessionState) (clock : ℕ) : Session :=
  { x with
    user := x.user.setState s
    accepted := if s = .waitAccount then some clock else x.accepted
    ending := if s = .waitClose then some clock else x.ending }

/-- the minute begins again, in `parsePingMsg` and `parseLoginGame` -/
def waitPing (t : Table Callback) (p : ℕ) : Table Callback :=
  let t := if eventHasEvent t p eventWaitPingInfo then does t (.removeEvents p eventWaitPingInfo) else t
  does t (.addEvent ⟨p, some .noPing, eventWaitPingInfo, noPingTime, 1, eventFlagDeletesObject⟩)

/-- `tcp_session::close` -/
def Session.close (x : Session) : Session := { x with closing := true }

def St.setState (s : St) (p : ℕ) (state : SessionState) : St :=
  { s with table := setStateEvents s.table p state, session := s.session.setState state s.table.now.clock }

/-- `UserSession::on_accept` -/
def onAccept (s : St) (p : ℕ) : St :=
  let s := s.setState p .waitAccount
  { s with session := { s.session with opened := true, closing := false } }

/-- `UserSession::on_close`; `checkClose` has no timer of the session -/
def onClose (s : St) (p : ℕ) : St :=
  let s := s.setState p .disable
  { s with session := { s.session with opened := false, closing := false } }

def heardNow (s : St) (p : ℕ) : St :=
  { s with table := waitPing s.table p, session := { s.session with heard := some s.table.now.clock } }

/-- the pings start with the first login, in `parseLoginGame` -/
def startPing (s : St) (p : ℕ) : St :=
  if eventHasEvent s.table p eventPingTimeInfo then s
  else
    { s with
      table := does s.table (.addEvent ⟨p, some .pingNotify, eventPingTimeInfo, pingTime, -1, 0⟩)
      session := { s.session with pinged := some s.table.now.clock } }

def parsePingMsg (s : St) (p : ℕ) : St := heardNow s p

/-- `checkConn`, on the session -/
def checkConn (s : St) (p t : ℕ) : Option ℕ → St
  | none => s.setState p .waitClose
  | some gs =>
    let s := s.setState p .connect
    { s with session := { s.session with user := { s.session.user with gsId := gs, tranid := t } } }

/-- `UserSession::parseLoginGame` -/
def parseLoginGame (s : St) (p t : ℕ) (conn : Option ℕ) : St :=
  if s.session.user.state = .connect then s
  else startPing (heardNow (checkConn s p t conn) p) p

/-- a callback of the session -/
def St.call (s : St) : Callback → St
  | .setClose | .noPing => { s with session := s.session.close }
  | .pingNotify =>
    let count := s.session.pingCount + 1
    { s with
      session := { s.session with pingCount := count, pinged := some s.table.now.clock }
      toClient := s.toClient ++ [count] }
  | .other _ => s

/-! ## Steps -/

inductive Op where
  | accept
  | loginGame (t : ℕ) (conn : Option ℕ)
  | ping
  | waitClose
  | close
  | onClose
  | other (a : Act Callback)
  | update (d : ℕ)
  | visit
  | ret
deriving DecidableEq, Repr

/-- the callback of the session that begins between `t` and `t'` -/
def begun (t t' : Table Callback) (p : ℕ) : Option Callback :=
  if t.cur = none then t'.cur.bind fun i => (t'.pending p i).bind fun ev => ev.cb else none

def visit (s : St) (p : ℕ) : St :=
  let t := Events.step s.table .visit
  match begun s.table t p with
  | none => { s with table := t }
  | some cb => St.call { s with table := t, calls := s.calls ++ [⟨cb, t.now.clock, s.session⟩] } cb

/-- the network calls the session between two updates -/
def step (p : ℕ) (s : St) : Op → St
  | .accept => if s.table.updating = none ∧ s.session.opened = false then onAccept s p else s
  | .loginGame t conn => if s.table.updating = none then parseLoginGame s p t conn else s
  | .ping => if s.table.updating = none then parsePingMsg s p else s
  | .waitClose => if s.table.updating = none then s.setState p .waitClose else s
  | .close => { s with session := s.session.close }
  | .onClose => if s.table.updating = none ∧ s.session.opened = true then onClose s p else s
  | .other a => if a.object ≠ p then { s with table := does s.table a } else s
  | .update d => { s with table := Events.step s.table (.update d) }
  | .visit => visit s p
  | .ret => { s with table := Events.step s.table .ret }

/-! ## What the program does -/

variable {t t' : Table Callback} {p : ℕ}

/-- between two updates, when the network calls the session -/
structure Idle (t : Table Callback) (p : ℕ) : Prop where
  kept : Kept t
  listed : Listed t
  alive : (t.objects p).destroyed = false
  idle : t.updating = none

theorem Idle.does_eq (h : Idle t p) {a : Act Callback} (ho : a.object = p) : does t a = act t a := by
  simp only [does, Events.step]
  rw [if_pos ⟨Or.inl h.idle, by rw [ho]; exact h.alive⟩]

theorem alive_act (h : (t.objects p).destroyed = false) {a : Act Callback} (ha : a ≠ .destroy p) :
    ((act t a).objects p).destroyed = false := by
  cases a with
  | addEvent n =>
    simp only [act, addEvent, Function.update_apply]
    split_ifs with hp
    · rwa [← hp]
    · exact h
  | removeEvents o ty =>
    simp only [act, eventRemoveEvents, Function.update_apply]
    split_ifs with hp
    · rwa [← hp]
    · exact h
  | destroy o =>
    have hp : p ≠ o := fun hp => ha (by rw [hp])
    simp only [act, destroy]
    rwa [Function.update_of_ne hp]
  | modifyTimeLeft => exact h
  | modifyTime => exact h
  | modifyTimeAndTimeLeft => exact h

/-- an operation leaves the loop where it stands -/
theorem does_loop (t : Table Callback) (a : Act Callback) :
    (does t a).updating = t.updating ∧ (does t a).cur = t.cur ∧ (does t a).now = t.now := by
  simp only [does, Events.step]
  split_ifs
  · cases a <;> exact ⟨rfl, rfl, rfl⟩
  · exact ⟨rfl, rfl, rfl⟩

theorem Idle.does (h : Idle t p) {a : Act Callback} (ho : a.object = p) (ha : a ≠ .destroy p) :
    Idle (KeepAlive.does t a) p := by
  refine ⟨kept_step _ h.kept, listed_step h.kept.owned h.kept.placed _ h.listed, ?_, ?_⟩
  · rw [h.does_eq ho]
    exact alive_act h.alive ha
  · rw [(does_loop t a).1]
    exact h.idle

theorem Idle.cur (h : Idle t p) : t.cur = none := (h.kept.placed.idle h.idle).1

theorem Idle.does_cur (h : Idle t p) (a : Act Callback) : (KeepAlive.does t a).cur = none :=
  (does_loop t a).2.1.trans h.cur

theorem Idle.seen (h : Idle t p) (i : ℕ) : t.seen i = t.now := by
  simp [Table.seen, (h.kept.placed.idle h.idle).2.2.2]

theorem Idle.pending_add (h : Idle t p) {n : NewEvent Callback} (hn : n.owner = p) (i : ℕ) :
    (KeepAlive.does t (.addEvent n)).pending p i =
      if i = t.heap.cells.length then some (n.event t.now) else t.pending p i := by
  obtain ⟨hcur, -, -, hbefore⟩ := h.kept.placed.idle h.idle
  subst hn
  rw [h.does_eq rfl, act, pending_addEvent, hbefore, ite_self]

theorem Idle.pending_remove (h : Idle t p) {ty : ℕ} (hty : ty ≠ removalFlagAll) (i : ℕ) :
    (KeepAlive.does t (.removeEvents p ty)).pending p i = (t.pending p i).filter fun ev => ev.eventType ≠ ty := by
  rw [h.does_eq rfl, act, pending_removeEvents h.listed p hty]

theorem Idle.pending_modify (h : Idle t p) (ty time i : ℕ) :
    (KeepAlive.does t (.modifyTimeAndTimeLeft p ty time)).pending p i = (t.pending p i).map fun ev =>
      if ev.eventType = ty then { ev.setTimeLeft time t.now with msTime := time, modified := true } else ev := by
  rw [h.does_eq rfl, act, pending_modifyTimeAndTimeLeft h.kept.owned h.listed, h.seen]

theorem Idle.no_event (h : Idle t p) {ty : ℕ} (hnone : eventHasEvent t p ty ≠ true) {i : ℕ} {ev : TimedEvent Callback}
    (hev : t.pending p i = some ev) : ev.eventType ≠ ty :=
  fun hty => hnone ((eventHasEvent_iff h.listed p ty).2 ⟨i, ev, hev, hty⟩)

/-- `if (hasEvent(ty)) removeEvents(ty)` -/
theorem Idle.pending_removeIf (h : Idle t p) {ty : ℕ} (hty : ty ≠ removalFlagAll) (i : ℕ) :
    (if eventHasEvent t p ty then KeepAlive.does t (.removeEvents p ty) else t).pending p i =
      (t.pending p i).filter fun ev => ev.eventType ≠ ty := by
  split_ifs with hhas
  · exact h.pending_remove hty i
  · rcases hev : t.pending p i with _ | ev
    · rfl
    · exact (Option.filter_some_pos (by simpa using h.no_event hhas hev)).symm

theorem Idle.removeIf (h : Idle t p) (ty : ℕ) :
    Idle (if eventHasEvent t p ty then KeepAlive.does t (.removeEvents p ty) else t) p := by
  split_ifs
  · exact h.does rfl (by simp)
  · exact h

/-! ## What the timers are -/

structure Made (ev : TimedEvent Callback) (ty : ℕ) (cb : Callback) (flags : ℕ) : Prop where
  eventType : ev.eventType = ty
  cb : ev.cb = some cb
  eventFlag : ev.eventFlag = flags
  instanceId : ev.instanceId = worldInstance

variable {x y : Session} {ev ev' : TimedEvent Callback}

theorem Made.ages {ty flags : ℕ} {cb : Callback} (h : Made ev ty cb flags) (ha : Ages ev ev') : Made ev' ty cb flags :=
  ⟨ha.eventType.trans h.eventType, ha.cb.trans h.cb, ha.eventFlag.trans h.eventFlag, ha.instanceId.trans h.instanceId⟩

theorem made_event (n : NewEvent Callback) {cb : Callback} (hcb : n.cb = some cb) (st : Stamp) :
    Made (n.event st) n.eventType cb n.flags := ⟨rfl, hcb, rfl, rfl⟩

/-- the timer of the pings -/
structure Pings (ev : TimedEvent Callback) : Prop where
  made : Made ev eventPingTimeInfo .pingNotify 0
  goal : ev.goal = pingTime
  delay : ev.delay = pingTime
  modified : ev.modified = false
  wanted : ev.wanted = -1

theorem Pings.ages (h : Pings ev) (ha : Ages ev ev') : Pings ev' :=
  ⟨h.made.ages ha, ha.goal.trans h.goal, ha.delay.trans h.delay, ha.modified.trans h.modified,
    ha.wanted.trans h.wanted⟩

/-- a timer of the session that waits -/
inductive Right (x : Session) (ev : TimedEvent Callback) : Prop where
  | account (made : Made ev eventUserSessionClose .setClose eventFlagDeletesObject)
      (hstate : x.user.state = .waitAccount) (hgoal : ev.goal = waitAccountDataTime)
      (hsince : x.accepted = some ev.armed.clock)
  | ending (made : Made ev eventUserSessionClose .setClose eventFlagDeletesObject)
      (hstate : x.user.state = .waitAccount ∨ x.user.state = .waitClose) (hgoal : ev.goal = waitCloseTime)
      (hsince : x.ending = some ev.armed.clock)
  | silent (made : Made ev eventWaitPingInfo .noPing eventFlagDeletesObject) (hgoal : ev.goal = noPingTime)
      (hsince : x.heard = some ev.armed.clock)
  | ping (hpings : Pings ev) (hsince : x.pinged = some ev.armed.clock)

/-- a timer of the session whose callback runs, in an update that ends at the time `clock` -/
inductive Fired (x : Session) (clock : ℕ) (ev : TimedEvent Callback) : Prop where
  | closes (ty : ℕ) (cb : Callback) (made : Made ev ty cb eventFlagDeletesObject) (hne : ty ≠ eventPingTimeInfo)
      (hclosing : x.closing = true)
  | ping (hpings : Pings ev) (hsince : x.pinged = some clock)

/-- the timer that closes the session in its state -/
inductive Guards (x : Session) (ev : TimedEvent Callback) : Prop where
  | account (hstate : x.user.state = .waitAccount) (htype : ev.eventType = eventUserSessionClose)
      (hgoal : ev.goal = waitAccountDataTime)
  | ending (hstate : x.user.state = .waitClose) (htype : ev.eventType = eventUserSessionClose)
  | silent (hstate : x.user.state = .connect) (htype : ev.eventType = eventWaitPingInfo)

def Guarded (t : Table Callback) (p : ℕ) (x : Session) : Prop :=
  ∃ i ev, t.pending p i = some ev ∧ t.cur ≠ some i ∧ Guards x ev

/-- when the session is closed in its state -/
def Session.deadline (x : Session) : Option ℕ :=
  match x.user.state with
  | .disable => none
  | .waitAccount => x.accepted.map (· + waitAccountDataTime)
  | .connect => x.heard.map (· + noPingTime)
  | .waitClose => x.ending.map (· + waitCloseTime)

theorem Right.close (h : Right x ev) (hty : ev.eventType = eventUserSessionClose) :
    Made ev eventUserSessionClose .setClose eventFlagDeletesObject ∧
      (x.user.state = .waitAccount ∧ ev.goal = waitAccountDataTime ∧ x.accepted = some ev.armed.clock ∨
        (x.user.state = .waitAccount ∨ x.user.state = .waitClose) ∧ ev.goal = waitCloseTime ∧
          x.ending = some ev.armed.clock) := by
  cases h with
  | account made hstate hgoal hsince => exact ⟨made, Or.inl ⟨hstate, hgoal, hsince⟩⟩
  | ending made hstate hgoal hsince => exact ⟨made, Or.inr ⟨hstate, hgoal, hsince⟩⟩
  | silent made => exact absurd (made.eventType.symm.trans hty) (by decide)
  | ping hpings => exact absurd (hpings.made.eventType.symm.trans hty) (by decide)

theorem Right.wait (h : Right x ev) (hty : ev.eventType = eventWaitPingInfo) :
    ev.goal = noPingTime ∧ x.heard = some ev.armed.clock := by
  cases h with
  | account made => exact absurd (made.eventType.symm.trans hty) (by decide)
  | ending made => exact absurd (made.eventType.symm.trans hty) (by decide)
  | silent _ hgoal hsince => exact ⟨hgoal, hsince⟩
  | ping hpings => exact absurd (hpings.made.eventType.symm.trans hty) (by decide)

theorem Right.pings (h : Right x ev) (hty : ev.eventType = eventPingTimeInfo) :
    Pings ev ∧ x.pinged = some ev.armed.clock := by
  cases h with
  | account made => exact absurd (made.eventType.symm.trans hty) (by decide)
  | ending made => exact absurd (made.eventType.symm.trans hty) (by decide)
  | silent made => exact absurd (made.eventType.symm.trans hty) (by decide)
  | ping hpings hsince => exact ⟨hpings, hsince⟩

theorem Right.deadline (h : Right x ev) (hg : Guards x ev) : x.deadline = some (ev.armed.clock + ev.goal) := by
  cases hg with
  | account hstate htype hgoal =>
    obtain ⟨-, ⟨-, -, hsince⟩ | ⟨-, hgoal', -⟩⟩ := h.close htype
    · simp [Session.deadline, hstate, hsince, hgoal]
    · exact absurd (hgoal.symm.trans hgoal') (by decide)
  | ending hstate htype =>
    obtain ⟨-, ⟨hstate', -⟩ | ⟨-, hgoal, hsince⟩⟩ := h.close htype
    · exact absurd (hstate.symm.trans hstate') (by decide)
    · simp [Session.deadline, hstate, hsince, hgoal]
  | silent hstate htype =>
    obtain ⟨hgoal, hsince⟩ := h.wait htype
    simp [Session.deadline, hstate, hsince, hgoal]

theorem Guards.not_ping (h : Guards x ev) : ev.eventType ≠ eventPingTimeInfo := by
  intro hty
  cases h with
  | account _ htype => exact absurd (hty.symm.trans htype) (by decide)
  | ending _ htype => exact absurd (hty.symm.trans htype) (by decide)
  | silent _ htype => exact absurd (hty.symm.trans htype) (by decide)

theorem Right.goal_pos (h : Right x ev) : 0 < ev.goal := by
  cases h with
  | account _ _ hgoal => simp [hgoal, waitAccountDataTime]
  | ending _ _ hgoal => simp [hgoal, waitCloseTime]
  | silent _ hgoal => simp [hgoal, noPingTime]
  | ping hpings => simp [hpings.goal, pingTime]

/-- what a timer of the session is, when the session is as it was in what the timer counts from -/
theorem Right.congr (h : Right x ev) (hstate : y.user.state = x.user.state) (haccepted : y.accepted = x.accepted)
    (hending : y.ending = x.ending) (hheard : y.heard = x.heard)
    (hpinged : ev.eventType = eventPingTimeInfo → y.pinged = x.pinged) : Right y ev := by
  cases h with
  | account made hs hgoal hsince => exact .account made (hstate.trans hs) hgoal (haccepted.trans hsince)
  | ending made hs hgoal hsince => exact .ending made (by rwa [hstate]) hgoal (hending.trans hsince)
  | silent made hgoal hsince => exact .silent made hgoal (hheard.trans hsince)
  | ping hpings hsince => exact .ping hpings ((hpinged hpings.made.eventType).trans hsince)

theorem Right.ages (h : Right x ev) (ha : Ages ev ev') : Right x ev' := by
  cases h with
  | account made hs hgoal hsince => exact .account (made.ages ha) hs (ha.goal.trans hgoal) (by rw [ha.armed, hsince])
  | ending made hs hgoal hsince => exact .ending (made.ages ha) hs (ha.goal.trans hgoal) (by rw [ha.armed, hsince])
  | silent made hgoal hsince => exact .silent (made.ages ha) (ha.goal.trans hgoal) (by rw [ha.armed, hsince])
  | ping hpings hsince => exact .ping (hpings.ages ha) (by rw [ha.armed, hsince])

theorem Guards.congr (h : Guards x ev) (hstate : y.user.state = x.user.state) : Guards y ev := by
  cases h with
  | account hs htype hgoal => exact .account (hstate.trans hs) htype hgoal
  | ending hs htype => exact .ending (hstate.trans hs) htype
  | silent hs htype => exact .silent (hstate.trans hs) htype

theorem Guards.ages (h : Guards x ev) (ha : Ages ev ev') : Guards x ev' := by
  cases h with
  | account hs htype hgoal => exact .account hs (ha.eventType.trans htype) (ha.goal.trans hgoal)
  | ending hs htype => exact .ending hs (ha.eventType.trans htype)
  | silent hs htype => exact .silent hs (ha.eventType.trans htype)

theorem Made.executable {ty flags : ℕ} {cb : Callback} (h : Made ev ty cb flags) (hflags : flags.testBit 0 = false)
    (hdeleted : ev.deleted = false) : Executable ev :=
  ⟨h.instanceId, hdeleted, by rw [TimedEvent.notInWorld, h.eventFlag, hflags]⟩

/-- the loop executes the timers of the session -/
theorem Right.executable (h : Right x ev) (hdeleted : ev.deleted = false) : Executable ev ∧ ev.cb ≠ none := by
  cases h with
  | account made => exact ⟨made.executable rfl hdeleted, by simp [made.cb]⟩
  | ending made => exact ⟨made.executable rfl hdeleted, by simp [made.cb]⟩
  | silent made => exact ⟨made.executable rfl hdeleted, by simp [made.cb]⟩
  | ping hpings => exact ⟨hpings.made.executable rfl hdeleted, by simp [hpings.made.cb]⟩

/-! ## What the session does to its timers -/

variable {s : St}

def PingsAt (t : Table Callback) (p i : ℕ) : Prop := ∃ ev, t.pending p i = some ev ∧ ev.eventType = eventPingTimeInfo

/-- the timer of the pings is one, from the first login on -/
structure Pinging (t : Table Callback) (p : ℕ) (x : Session) : Prop where
  once : ∀ i j, PingsAt t p i → PingsAt t p j → i = j
  started : x.pinged ≠ none → ∃ i, PingsAt t p i

theorem Pinging.congr (h : Pinging t p x) (hsame : ∀ i, PingsAt t' p i ↔ PingsAt t p i)
    (hpinged : y.pinged ≠ none → x.pinged ≠ none) : Pinging t' p y := by
  refine ⟨fun i j hi hj => h.once i j ((hsame i).1 hi) ((hsame j).1 hj), fun hy => ?_⟩
  obtain ⟨i, hi⟩ := h.started (hpinged hy)
  exact ⟨i, (hsame i).2 hi⟩

/-- between two updates every timer of the session is right -/
structure Ready (p : ℕ) (s : St) : Prop where
  idle : Idle s.table p
  right : ∀ i ev, s.table.pending p i = some ev → Right s.session ev
  pinging : Pinging s.table p s.session

/-- a timer that does not close the session for its state -/
theorem Right.other (h : Right x ev) (hty : ev.eventType ≠ eventUserSessionClose) (hheard : y.heard = x.heard)
    (hpinged : y.pinged = x.pinged) : Right y ev := by
  cases h with
  | account made => exact absurd made.eventType hty
  | ending made => exact absurd made.eventType hty
  | silent made hgoal hsince => exact .silent made hgoal (hheard.trans hsince)
  | ping hpings hsince => exact .ping hpings (hpinged.trans hsince)

theorem lt_of_pending {i : ℕ} (hev : t.pending p i = some ev) : i < t.heap.cells.length :=
  lt_of_ownerOf (o := ev.owner) (by rw [Table.ownerOf, (pending_eq_some.1 hev).1]; rfl)

/-- a timer after an addition -/
theorem Idle.of_added (h : Idle t p) {n : NewEvent Callback} (hn : n.owner = p) {i : ℕ}
    (hev : (KeepAlive.does t (.addEvent n)).pending p i = some ev) : ev = n.event t.now ∨ t.pending p i = some ev := by
  rw [h.pending_add hn] at hev
  split_ifs at hev with hi
  · exact Or.inl (Option.some.inj hev).symm
  · exact Or.inr hev

theorem Idle.added (h : Idle t p) {n : NewEvent Callback} (hn : n.owner = p) :
    (KeepAlive.does t (.addEvent n)).pending p t.heap.cells.length = some (n.event t.now) := by
  rw [h.pending_add hn, if_pos rfl]

theorem Idle.still (h : Idle t p) {n : NewEvent Callback} (hn : n.owner = p) {i : ℕ} (hev : t.pending p i = some ev) :
    (KeepAlive.does t (.addEvent n)).pending p i = some ev := by
  rw [h.pending_add hn, if_neg (lt_of_pending hev).ne, hev]

/-- a timer after the removal of the others -/
theorem of_filtered {o : Option (TimedEvent Callback)} {ty : ℕ}
    (hev : (o.filter fun ev => ev.eventType ≠ ty) = some ev) :
    o = some ev ∧ ev.eventType ≠ ty := by
  simpa [Option.filter_eq_some_iff] using hev

theorem pingsAt_filter {ty : ℕ} (hty : ty ≠ eventPingTimeInfo) {i : ℕ}
    (h : t'.pending p i = (t.pending p i).filter fun ev => ev.eventType ≠ ty) : PingsAt t' p i ↔ PingsAt t p i := by
  constructor
  · rintro ⟨ev, hev, hping⟩
    exact ⟨ev, (of_filtered (h.symm.trans hev)).1, hping⟩
  · rintro ⟨ev, hev, hping⟩
    refine ⟨ev, ?_, hping⟩
    rw [h, hev]
    exact Option.filter_some_pos (by simpa [hping] using hty.symm)

theorem Idle.pingsAt_add (h : Idle t p) {n : NewEvent Callback} (hn : n.owner = p)
    (hty : n.eventType ≠ eventPingTimeInfo) (i : ℕ) :
    PingsAt (KeepAlive.does t (.addEvent n)) p i ↔ PingsAt t p i := by
  constructor
  · rintro ⟨ev, hev, hping⟩
    rcases h.of_added hn hev with rfl | hold
    · exact absurd hping hty
    · exact ⟨ev, hold, hping⟩
  · rintro ⟨ev, hev, hping⟩
    exact ⟨ev, h.still hn hev, hping⟩

theorem Idle.pingsAt_modify (h : Idle t p) {ty : ℕ} (time i : ℕ) :
    PingsAt (KeepAlive.does t (.modifyTimeAndTimeLeft p ty time)) p i ↔ PingsAt t p i := by
  unfold PingsAt
  rw [h.pending_modify]
  rcases t.pending p i with _ | ev
  · simp
  · simp only [Option.map_some, Option.some.injEq, exists_eq_left']
    split_ifs
    · rfl
    · rfl

theorem Idle.pingsAt_setState (h : Idle t p) (state : SessionState) (i : ℕ) :
    PingsAt (setStateEvents t p state) p i ↔ PingsAt t p i := by
  cases state with
  | disable => exact pingsAt_filter (by decide) (h.pending_remove (by decide) i)
  | waitAccount => exact h.pingsAt_add rfl (by simp [eventUserSessionClose, eventPingTimeInfo]) i
  | connect => exact pingsAt_filter (by decide) (h.pending_removeIf (by decide) i)
  | waitClose =>
    simp only [setStateEvents]
    split_ifs
    · exact h.pingsAt_modify waitCloseTime i
    · exact h.pingsAt_add rfl (by simp [eventUserSessionClose, eventPingTimeInfo]) i

theorem Idle.pingsAt_waitPing (h : Idle t p) (i : ℕ) : PingsAt (waitPing t p) p i ↔ PingsAt t p i :=
  ((h.removeIf _).pingsAt_add rfl (by simp [eventWaitPingInfo, eventPingTimeInfo]) i).trans
    (pingsAt_filter (by decide) (h.pending_removeIf (by decide) i))

theorem Ready.setState (h : Ready p s) {state : SessionState}
    (hfresh : state = .waitAccount → s.session.user.state ≠ .waitAccount) : Ready p (s.setState p state) := by
  obtain ⟨hidle, hright, hpinging⟩ := h
  have hsame := hpinging.congr (y := s.session.setState state s.table.now.clock) (hidle.pingsAt_setState state) id
  cases state with
  | disable =>
    refine ⟨hidle.does rfl (by simp), fun i ev hev => ?_, hsame⟩
    simp only [St.setState, setStateEvents] at hev
    rw [hidle.pending_remove (by decide)] at hev
    obtain ⟨hold, hty⟩ := of_filtered hev
    exact (hright i ev hold).other hty rfl rfl
  | waitAccount =>
    refine ⟨hidle.does rfl (by simp), fun i ev hev => ?_, hsame⟩
    rcases hidle.of_added rfl hev with rfl | hold
    · exact .account (made_event _ rfl _) rfl rfl rfl
    · cases hright i ev hold with
      | account _ hstate => exact absurd hstate (hfresh rfl)
      | ending made _ hgoal hsince => exact .ending made (Or.inl rfl) hgoal hsince
      | silent made hgoal hsince => exact .silent made hgoal hsince
      | ping hpings hsince => exact .ping hpings hsince
  | connect =>
    refine ⟨hidle.removeIf _, fun i ev hev => ?_, hsame⟩
    simp only [St.setState, setStateEvents] at hev
    rw [hidle.pending_removeIf (by decide)] at hev
    obtain ⟨hold, hty⟩ := of_filtered hev
    exact (hright i ev hold).other hty rfl rfl
  | waitClose =>
    simp only [St.setState, setStateEvents] at hsame ⊢
    split_ifs at hsame ⊢ with hhas
    · refine ⟨hidle.does rfl (by simp), fun i ev hev => ?_, hsame⟩
      dsimp only at hev
      rw [hidle.pending_modify] at hev
      obtain ⟨old, hold, hnew⟩ := Option.map_eq_some_iff.1 hev
      split_ifs at hnew with hty
      · subst hnew
        obtain ⟨hmade, -⟩ := (hright i old hold).close hty
        exact .ending ⟨hmade.eventType, hmade.cb, hmade.eventFlag, hmade.instanceId⟩ (Or.inr rfl) rfl rfl
      · subst hnew
        exact (hright i _ hold).other hty rfl rfl
    · refine ⟨hidle.does rfl (by simp), fun i ev hev => ?_, hsame⟩
      rcases hidle.of_added rfl hev with rfl | hold
      · exact .ending (made_event _ rfl _) (Or.inr rfl) rfl rfl
      · exact (hright i ev hold).other (hidle.no_event hhas hold) rfl rfl

/-- `on_accept` starts the time for the account -/
theorem guarded_waitAccount (h : Idle s.table p) :
    Guarded (s.setState p .waitAccount).table p (s.setState p .waitAccount).session := by
  refine ⟨_, _, h.added rfl, ?_, .account rfl rfl rfl⟩
  simp [St.setState, setStateEvents, h.does_cur]

/-- a session that is told to close has a timer that closes it, the one of its account or a new one -/
theorem guarded_waitClose (h : Idle s.table p) :
    Guarded (s.setState p .waitClose).table p (s.setState p .waitClose).session := by
  simp only [St.setState, setStateEvents]
  split_ifs with hhas
  · obtain ⟨i, ev, hev, hty⟩ := (eventHasEvent_iff h.listed p _).1 hhas
    refine ⟨i, { ev.setTimeLeft waitCloseTime s.table.now with msTime := waitCloseTime, modified := true }, ?_, ?_,
      .ending rfl hty⟩
    · rw [h.pending_modify, hev, Option.map_some, if_pos hty]
    · simp [h.does_cur]
  · refine ⟨_, _, h.added rfl, ?_, .ending rfl rfl⟩
    simp [h.does_cur]

theorem Idle.waitPing (h : Idle t p) : Idle (KeepAlive.waitPing t p) p := (h.removeIf _).does rfl (by simp)

theorem Ready.heardNow (h : Ready p s) : Ready p (heardNow s p) := by
  refine ⟨h.idle.waitPing, fun i ev hev => ?_, h.pinging.congr h.idle.pingsAt_waitPing id⟩
  rcases (h.idle.removeIf _).of_added rfl hev with rfl | hold
  · refine .silent (made_event _ rfl _) rfl ?_
    simp only [KeepAlive.heardNow, NewEvent.event]
    split_ifs
    · rw [(does_loop _ _).2.2]
    · rfl
  · rw [h.idle.pending_removeIf (by decide)] at hold
    obtain ⟨hold, hty⟩ := of_filtered hold
    cases h.right i ev hold with
    | account made hstate hgoal hsince => exact .account made hstate hgoal hsince
    | ending made hstate hgoal hsince => exact .ending made hstate hgoal hsince
    | silent made => exact absurd made.eventType hty
    | ping hpings hsince => exact .ping hpings hsince

theorem guarded_connect (h : Idle s.table p) (hstate : s.session.user.state = .connect) :
    Guarded (heardNow s p).table p (heardNow s p).session := by
  refine ⟨_, _, (h.removeIf _).added rfl, ?_, .silent hstate rfl⟩
  simp [heardNow, h.waitPing.cur]

theorem Guarded.heardNow (hg : Guarded s.table p s.session) (h : Idle s.table p) :
    Guarded (heardNow s p).table p (heardNow s p).session := by
  obtain ⟨i, ev, hev, -, hguards⟩ := hg
  have hkeep (hty : ev.eventType = eventUserSessionClose) :
      (KeepAlive.heardNow s p).table.pending p i = some ev := by
    refine (h.removeIf _).still rfl ?_
    rw [h.pending_removeIf (by decide), hev]
    exact Option.filter_some_pos (by rw [hty]; decide)
  have hcur : (KeepAlive.heardNow s p).table.cur ≠ some i := by simp [KeepAlive.heardNow, h.waitPing.cur]
  cases hguards with
  | account hstate hty hgoal => exact ⟨i, ev, hkeep hty, hcur, .account hstate hty hgoal⟩
  | ending hstate hty => exact ⟨i, ev, hkeep hty, hcur, .ending hstate hty⟩
  | silent hstate => exact guarded_connect h hstate

theorem Ready.startPing (h : Ready p s) : Ready p (startPing s p) := by
  obtain ⟨hidle, hright, hpinging⟩ := h
  unfold KeepAlive.startPing
  split_ifs with hhas
  · exact ⟨hidle, hright, hpinging⟩
  · have hnew {i : ℕ} :
      PingsAt (does s.table (.addEvent ⟨p, some .pingNotify, eventPingTimeInfo, pingTime, -1, 0⟩)) p i →
        i = s.table.heap.cells.length := by
      rintro ⟨ev, hev, hty⟩
      by_contra hi
      rw [hidle.pending_add rfl, if_neg hi] at hev
      exact hidle.no_event hhas hev hty
    refine ⟨hidle.does rfl (by simp), fun i ev hev => ?_, fun i j hi hj => (hnew hi).trans (hnew hj).symm,
      fun _ => ⟨_, _, hidle.added rfl, rfl⟩⟩
    rcases hidle.of_added rfl hev with rfl | hold
    · exact .ping ⟨made_event _ rfl _, rfl, rfl, rfl, rfl⟩ rfl
    · exact (hright i ev hold).congr rfl rfl rfl rfl fun hty => absurd hty (hidle.no_event hhas hold)

theorem Guarded.startPing (hg : Guarded s.table p s.session) (h : Idle s.table p) :
    Guarded (startPing s p).table p (startPing s p).session := by
  obtain ⟨i, ev, hev, hcur, hguards⟩ := hg
  unfold KeepAlive.startPing
  split_ifs
  · exact ⟨i, ev, hev, hcur, hguards⟩
  · exact ⟨i, ev, h.still rfl hev, by simp [h.does_cur], hguards.congr rfl⟩

end DreamHeroes.KeepAlive

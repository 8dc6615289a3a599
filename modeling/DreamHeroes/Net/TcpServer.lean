/-
The server side of the network layer: the pool of session objects of `tcp_server`, the completion handlers of
`tcp_session`, and the callback queue the main thread polls (`common/tcpserver.cpp`, `tcpsession.cpp`,
`call_back.cpp`).

- `sess p` is the session object with the address `p`. It is used for one connection after the other: `gen` counts
  them, and the pair `(p, gen)` names a connection. Nothing in the code carries `gen`; a completion handler that is
  still pending when its connection is gone runs on whatever connection the object serves by then.
- `m_isvalid` is set when the object is handed to `async_accept`, `m_father` when the accepted connection starts, and
  both are cleared by `free_session` only.
- `reads` and `writes` hold the connections with a pending completion handler, `posted` and `closes` the objects with
  a posted `handle_accept` or `handle_close`. Any of them may run next, with any result.
- `cb` is the queue of `call_back_mgr`: what is added is called in the order it was added.
- `m_accepting_count` is the length of `accepting`. The send queue is left open: a `_write_message`, which
  `_send_message` posts, may run at any time, and finds something to send (`more`) or not.
- `closed` is bookkeeping of the model: the connections for which an `on_close` callback has been added.
-/
import Mathlib.Tactic
import DreamHeroes.Lib.Machine

namespace DreamHeroes.Net

open DreamHeroes.Lib

/-! ## State -/

structure TcpSession where
  isvalid : Bool := false
  isconnected : Bool := false
  /-- `m_father` is not `NULL` -/
  father : Bool := false
  isSendingData : Bool := false
  /-- the socket has been shut down and closed -/
  shut : Bool := false
  gen : ℕ := 0
deriving DecidableEq, Repr

inductive Call where
  | onAccept (p gen : ℕ)
  | onClose (p gen : ℕ)
deriving DecidableEq, Repr

structure St where
  sess : ℕ → TcpSession := fun _ => {}
  sessions : List ℕ := []
  accepting : List ℕ := []
  posted : List ℕ := []
  closes : List ℕ := []
  reads : List (ℕ × ℕ) := []
  writes : List (ℕ × ℕ) := []
  cb : List Call := []
  onceListenCount : ℕ := 40
  closed : List (ℕ × ℕ) := []

def St.modSess (s : St) (p : ℕ) (f : TcpSession → TcpSession) : St :=
  { s with sess := Function.update s.sess p (f (s.sess p)) }

@[simp] theorem St.modSess_self (s : St) (p : ℕ) (f : TcpSession → TcpSession) :
    (s.modSess p f).sess p = f (s.sess p) := by simp [St.modSess]

@[simp] theorem St.modSess_ne (s : St) {p q : ℕ} (f : TcpSession → TcpSession) (h : q ≠ p) :
    (s.modSess p f).sess q = s.sess q := by simp [St.modSess, h]

/-- the connection the object serves, or served last -/
def St.conn (s : St) (p : ℕ) : ℕ × ℕ := (p, (s.sess p).gen)

theorem St.conn_modSess (s : St) (p q : ℕ) {f : TcpSession → TcpSession} (hf : ∀ u, (f u).gen = u.gen) :
    (s.modSess p f).conn q = s.conn q := by
  rcases eq_or_ne q p with rfl | hq
  · rw [St.conn, St.conn, St.modSess_self, hf]
  · rw [St.conn, St.conn, St.modSess_ne s f hq]

/-! ## The session object -/

/-- `tcp_session::reset`: a new socket, no connection -/
def TcpSession.reset (u : TcpSession) : TcpSession :=
  { u with isvalid := false, isconnected := false, father := false, isSendingData := false, shut := false }

/-- `tcp_server::free_session` -/
def freeSession (s : St) (p : ℕ) : St :=
  let s := s.modSess p TcpSession.reset
  { s with sessions := s.sessions ++ [p] }

/-- `tcp_session::handle_close` -/
def handleClose (s : St) (p : ℕ) : St := s.modSess p fun u => { u with shut := true, isconnected := false }

/-- `tcp_session::close` -/
def close (s : St) (p : ℕ) : St := { s with closes := s.closes ++ [p] }

/-- `tcp_session::_on_close`: without a father there is no callback queue -/
def onCloseIntern (s : St) (p : ℕ) : St :=
  let s := s.modSess p fun u => { u with shut := true, isconnected := false }
  if (s.sess p).father then
    { s with cb := s.cb ++ [.onClose p (s.sess p).gen], closed := s.closed ++ [s.conn p] }
  else s

/-- `tcp_session::on_close`, called from the queue -/
def onClose (s : St) (p : ℕ) : St := if (s.sess p).father then freeSession s p else s

/-- `tcp_session::handle_accept` -/
def handleAccept (s : St) (p : ℕ) : St :=
  let s := s.modSess p fun u => { u with isvalid := true, isconnected := true, father := true, gen := u.gen + 1 }
  { s with reads := s.reads ++ [s.conn p], cb := s.cb ++ [.onAccept p (s.sess p).gen] }

inductive ReadResult where
  | error
  /-- every complete frame of the buffer was good; the read is armed again -/
  | frames
  /-- a frame length below the head or above the maximum: `close_and_ban` -/
  | badLength
  /-- `_uncompress_message` failed -/
  | badCheckSum
deriving DecidableEq, Repr

/-- `tcp_session::handle_read_some` -/
def handleReadSome (s : St) (p : ℕ) (r : ReadResult) : St :=
  if (s.sess p).isvalid then
    match r with
    | .error => onCloseIntern s p
    | .frames => { s with reads := s.reads ++ [s.conn p] }
    | .badLength => close s p
    | .badCheckSum => onCloseIntern (close s p) p
  else s

/-- `tcp_session::_write_message`; `more`: something waits in the send queue -/
def writeMessage (s : St) (p : ℕ) (more : Bool) : St :=
  if (s.sess p).isconnected ∧ ¬(s.sess p).isSendingData ∧ more then
    let s := s.modSess p fun u => { u with isSendingData := true }
    { s with writes := s.writes ++ [s.conn p] }
  else s

/-- `tcp_session::handle_write` -/
def handleWrite (s : St) (p : ℕ) (ok more : Bool) : St :=
  if (s.sess p).isvalid then
    if ok then writeMessage (s.modSess p fun u => { u with isSendingData := false }) p more else onCloseIntern s p
  else s

/-! ## The server -/

/-- one turn of the accept loop of `_real_run` -/
def listen (s : St) : St :=
  match s.sessions with
  | [] => s
  | p :: rest =>
    if s.accepting.length < s.onceListenCount then
      { s.modSess p fun u => { u with isvalid := true } with sessions := rest, accepting := s.accepting ++ [p] }
    else s

inductive AcceptResult where
  | ok
  | banned
  | error
deriving DecidableEq, Repr

/-- `tcp_server::handle_accept` -/
def serverHandleAccept (s : St) (p : ℕ) (r : AcceptResult) : St :=
  let s := { s with accepting := s.accepting.erase p }
  match r with
  | .banned => freeSession (handleClose s p) p
  | .ok => { s.modSess p fun u => { u with shut := false } with posted := s.posted ++ [p] }
  | .error => freeSession (handleClose s p) p

/-- one call of `call_back_mgr::poll`; what the application does in its callbacks is its own `close` -/
def poll (s : St) : St :=
  match s.cb with
  | [] => s
  | .onAccept _ _ :: rest => { s with cb := rest }
  | .onClose p _ :: rest => onClose { s with cb := rest } p

inductive Op where
  | listen
  | accept (p : ℕ) (r : AcceptResult)
  | handleAccept (p : ℕ)
  | readSome (p gen : ℕ) (r : ReadResult)
  | writeMessage (p : ℕ) (more : Bool)
  | write (p gen : ℕ) (ok more : Bool)
  | close (p : ℕ)
  | handleClose (p : ℕ)
  | poll
deriving DecidableEq, Repr

/-- one event; a handler that is not pending does not run, and the application closes connections only -/
def step (s : St) : Op → St
  | .listen => listen s
  | .accept p r => if p ∈ s.accepting then serverHandleAccept s p r else s
  | .handleAccept p => if p ∈ s.posted then handleAccept { s with posted := s.posted.erase p } p else s
  | .readSome p g r =>
    if (p, g) ∈ s.reads then handleReadSome { s with reads := s.reads.erase (p, g) } p r else s
  | .writeMessage p more => writeMessage s p more
  | .write p g ok more =>
    if (p, g) ∈ s.writes then handleWrite { s with writes := s.writes.erase (p, g) } p ok more else s
  | .close p => if (s.sess p).father then close s p else s
  | .handleClose p => if p ∈ s.closes then handleClose { s with closes := s.closes.erase p } p else s
  | .poll => poll s

/-- `tcp_server::create` with `n` session objects -/
def create (n onceListenCount : ℕ) : St :=
  (List.range n).foldl freeSession { onceListenCount := onceListenCount }

end DreamHeroes.Net

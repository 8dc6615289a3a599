/-
The client side of the network layer: a `tcp_client` connects, loses its connection and connects again
(`common/tcpclient.cpp`, and what it inherits from `tcp_session`). The object keeps its send queue, which is that of
`SendQueue`, from one connection to the next.

- `connects`, `reads` and `SendQueue.St.inFlight` are what the socket has been given. An operation is under way until
  the socket is through with it (`connectEnds`, `readEnds`, `writeEnds`), or is closed; then its handler may run.
- The handlers and the posted calls run one at a time: while `handle_write` is between its two sections (`completing`),
  none of the others begins.
- `run_no_wait` is `run`. The callbacks are called in the order in which they were added.
- `Inv`: one attempt to connect, one write, and when the flag of the send queue is set for good.
- `View`, `Did`: what a step does to the connection, and to what is written. `step_did` is the inversion.

`failed`, `starts`, `log` and `clock` are bookkeeping: whether a write has failed, when `run` began to connect, the
callbacks that were added, and the last time that was read.
-/
import Mathlib.Tactic
import DreamHeroes.Lib.Machine
import DreamHeroes.Net.SendQueue
import DreamHeroes.Net.TcpServer

namespace DreamHeroes.TcpClient

open DreamHeroes.Lib DreamHeroes.Wire DreamHeroes.Net

/-! ## The client -/

inductive Callback where
  | onConnect
  | onConnectFailed
  | onClose
deriving DecidableEq, Repr

structure St where
  /-- the sending half, with `m_isconnected`; there is no father -/
  queue : SendQueue.St
  isconnecting : Bool := false
  isinitconncted : Bool := false
  isreconnect : Bool := false
  lastReconnectTime : UInt32 := 0
  /-- whether it worked, when the socket is through with it -/
  connects : List (Option Bool) := []
  reads : List (Option ReadResult) := []
  /-- how the outstanding write ended -/
  wrote : Option Bool := none
  /-- posted calls of `handle_close` -/
  closes : ℕ := 0
  cb : List Callback := []
  failed : Bool := false
  starts : List ℕ := []
  log : List Callback := []
  clock : ℕ := 0

def reconnectTime : UInt32 := 5

def addCb (s : St) (c : Callback) : St := { s with cb := s.cb ++ [c], log := s.log ++ [c] }

/-- `m_socket->close()`: whatever is under way is aborted -/
def closeSocket (s : St) : St :=
  { s with
    connects := s.connects.map fun r => some (r.getD false)
    reads := s.reads.map fun r => some (r.getD .error)
    wrote := if s.queue.inFlight = [] then s.wrote else some (s.wrote.getD false) }

/-- `tcp_session::_on_close` -/
def onClose (s : St) : St :=
  let s := closeSocket { s with queue := { s.queue with queue := [] } }
  addCb { s with queue := { s.queue with isconnected := false } } .onClose

/-- `tcp_session::handle_close` -/
def handleClose (s : St) : St :=
  let s := closeSocket s
  { s with queue := { s.queue with isconnected := false } }

def reconnect (s : St) : St :=
  if s.queue.isconnected then s
  else if s.isconnecting then s
  else { s with isconnecting := true, connects := s.connects ++ [none] }

/-- `_connect`, which `connect` has posted -/
def connect (s : St) : St := { reconnect s with isinitconncted := true }

/-- the first section of `run` -/
def runReconnect (s : St) (now : ℕ) : St :=
  if !s.queue.isconnected && s.isreconnect && !s.isconnecting && s.isinitconncted then
    if reconnectTime < UInt32.ofNat now - s.lastReconnectTime then
      { reconnect s with starts := s.starts ++ [now] }
    else s
  else s

def handleConnect (s : St) (ok : Bool) (now : ℕ) : St :=
  let s := { s with isconnecting := false }
  if s.queue.isconnected then s
  else
    let s := { s with lastReconnectTime := UInt32.ofNat now }
    if ok then addCb { s with queue := { s.queue with isconnected := true } } .onConnect
    else addCb { s with queue := { s.queue with isconnected := false } } .onConnectFailed

/-- `begin_read_message` -/
def onConnect (s : St) : St := { s with reads := s.reads ++ [none] }

def poll (s : St) : St :=
  match s.cb with
  | [] => s
  | .onConnect :: cb => onConnect { s with cb := cb }
  | _ :: cb => { s with cb := cb }

/-- `handle_read_some`, by what it finds in the buffer -/
def handleReadSome (s : St) : ReadResult → St
  | .error => onClose s
  | .frames => { s with reads := s.reads ++ [none] }
  | .badLength => { s with closes := s.closes + 1 }
  | .badCheckSum => onClose { s with closes := s.closes + 1 }

/-- `handle_write`, up to the end of its section; a write that has failed leaves `m_is_sending_data` as it is -/
def handleWrite (s : St) (ok : Bool) : St :=
  let s := { s with wrote := none }
  if ok then { s with queue := SendQueue.step s.queue .complete }
  else onClose { s with queue := { s.queue with inFlight := s.queue.inFlight.tail }, failed := true }

inductive Op where
  | setReconnect (b : Bool)
  | connect
  | run (now : ℕ)
  | poll
  | close
  | send (msg : SendQueue.Frame)
  | post
  | write
  | finish
  | handleClose
  | connectEnds (i : ℕ) (ok : Bool)
  | handleConnect (i now : ℕ)
  | readEnds (i : ℕ) (r : ReadResult)
  | handleReadSome (i : ℕ)
  | writeEnds (ok : Bool)
  | handleWrite

/-- a handler, or a posted call: it does not begin while `handle_write` is not through -/
def atRest (s : St) (f : St → St) : St := if s.queue.completing = none then f s else s

def step (s : St) : Op → St
  | .setReconnect b => { s with isreconnect := b }
  | .connect => atRest s connect
  | .run now => runReconnect { s with clock := now } now
  | .poll => poll s
  | .close => { s with closes := s.closes + 1 }
  | .send msg => { s with queue := SendQueue.step s.queue (.send msg) }
  | .post => { s with queue := SendQueue.step s.queue .post }
  | .write => { s with queue := SendQueue.step s.queue .write }
  | .finish => { s with queue := SendQueue.step s.queue .finish }
  | .handleClose => atRest s fun s => if 0 < s.closes then handleClose { s with closes := s.closes - 1 } else s
  | .connectEnds i ok => { s with connects := s.connects.modify i fun r => some (r.getD ok) }
  | .handleConnect i now => atRest s fun s =>
    match s.connects[i]? with
    | some (some ok) => handleConnect { s with connects := s.connects.eraseIdx i, clock := now } ok now
    | _ => s
  | .readEnds i r => { s with reads := s.reads.modify i fun r' => some (r'.getD r) }
  | .handleReadSome i => atRest s fun s =>
    match s.reads[i]? with
    | some (some r) => handleReadSome { s with reads := s.reads.eraseIdx i } r
    | _ => s
  | .writeEnds ok => if s.queue.inFlight = [] then s else { s with wrote := some (s.wrote.getD ok) }
  | .handleWrite => atRest s fun s =>
    match s.wrote with
    | some ok => handleWrite s ok
    | none => s

/-- the constructor -/
def start (isreconnect : Bool) (sendingData : Buffer maxMessageLen) : St where
  queue := { SendQueue.start sendingData with isconnected := false }
  isreconnect := isreconnect

/-! ## The sending half -/

/-- it begins a write, or leaves the socket alone -/
theorem writeMessage_cases (q : SendQueue.St) (size : ℕ) :
    ((SendQueue.writeMessage q size).isValid = q.isValid ∧ (SendQueue.writeMessage q size).limit = q.limit ∧
      (SendQueue.writeMessage q size).completing = q.completing ∧
        (SendQueue.writeMessage q size).isconnected = q.isconnected) ∧
      ((SendQueue.writeMessage q size).isSendingData = q.isSendingData ∧
          (SendQueue.writeMessage q size).inFlight = q.inFlight ∧ (SendQueue.writeMessage q size).written = q.written ∨
        q.isSendingData = false ∧ (SendQueue.writeMessage q size).isSendingData = true ∧ ∃ data,
          (SendQueue.writeMessage q size).inFlight = q.inFlight ++ [data] ∧
            (SendQueue.writeMessage q size).written = q.written ++ [data]) := by
  rw [SendQueue.writeMessage]
  dsimp only
  split_ifs with hconnected hflag hempty
  · exact ⟨⟨rfl, rfl, rfl, rfl⟩, Or.inl ⟨rfl, rfl, rfl⟩⟩
  · exact ⟨⟨rfl, rfl, rfl, rfl⟩, Or.inl ⟨rfl, rfl, rfl⟩⟩
  · exact ⟨⟨rfl, rfl, rfl, rfl⟩, Or.inl ⟨rfl, rfl, rfl⟩⟩
  · split
    · exact ⟨⟨rfl, rfl, rfl, rfl⟩, Or.inr ⟨Bool.not_eq_true _ ▸ hflag, rfl, _, rfl, rfl⟩⟩
    · exact ⟨⟨rfl, rfl, rfl, rfl⟩, Or.inl ⟨rfl, rfl, rfl⟩⟩

/-- The flag is set while a write is outstanding, and for good after one that has failed. -/
structure Sends (q : SendQueue.St) (failed : Bool) : Prop where
  isValid : q.isValid = true
  limit : q.limit = false
  one : q.inFlight.length ≤ 1
  flag : q.isSendingData = true ↔ q.inFlight ≠ [] ∨ failed = true
  apart : q.completing ≠ none → q.inFlight = [] ∧ failed = false
  lost : failed = true → q.inFlight = []

variable {q : SendQueue.St} {failed : Bool}

/-- what else the state holds does not matter -/
theorem Sends.congr {q' : SendQueue.St} (hq : Sends q failed) (hvalid : q'.isValid = q.isValid)
    (hlimit : q'.limit = q.limit) (hflight : q'.inFlight = q.inFlight) (hflag : q'.isSendingData = q.isSendingData)
    (hcompleting : q'.completing = q.completing) : Sends q' failed where
  isValid := hvalid.trans hq.isValid
  limit := hlimit.trans hq.limit
  one := hflight ▸ hq.one
  flag := by rw [hflag, hflight, hq.flag]
  apart := by
    rw [hcompleting, hflight]
    exact hq.apart
  lost := by
    rw [hflight]
    exact hq.lost

theorem sends_writeMessage (hq : Sends q failed) (hcompleting : q.completing = none) (size : ℕ) :
    Sends (SendQueue.writeMessage q size) failed := by
  obtain ⟨⟨hvalid, hlimit, hcompleting', -⟩, ⟨hflag, hflight, -⟩ | ⟨hidle, hflag, data, hflight, -⟩⟩ :=
    writeMessage_cases q size
  · exact hq.congr hvalid hlimit hflight hflag hcompleting'
  · have hnone : ¬(q.inFlight ≠ [] ∨ failed = true) := fun h => Bool.false_ne_true (hidle.symm.trans (hq.flag.2 h))
    have hempty : q.inFlight = [] := by
      by_contra h
      exact hnone (Or.inl h)
    rw [hempty, List.nil_append] at hflight
    refine ⟨hvalid.trans hq.isValid, hlimit.trans hq.limit, ?_, ?_, ?_, fun h => absurd (Or.inr h) hnone⟩
    · rw [hflight]
      exact le_rfl
    · rw [hflag, hflight]
      exact iff_of_true rfl (Or.inl (List.cons_ne_nil _ _))
    · rw [hcompleting', hcompleting]
      exact fun h => absurd rfl h

theorem sends_send (hq : Sends q failed) (msg : SendQueue.Frame) : Sends (SendQueue.step q (.send msg)) failed := by
  rw [SendQueue.step, SendQueue.sendMessage]
  dsimp only
  split_ifs
  · exact hq.congr rfl rfl rfl rfl rfl
  · exact hq.congr rfl rfl rfl rfl rfl
  · exact hq

theorem sends_post (hq : Sends q failed) : Sends (SendQueue.step q .post) failed := by
  rw [SendQueue.step]
  split_ifs
  · exact hq.congr rfl rfl rfl rfl rfl
  · exact hq

theorem sends_write (hq : Sends q failed) : Sends (SendQueue.step q .write) failed := by
  rw [SendQueue.step]
  split_ifs with hwrite
  · have hposted : Sends { q with posted := q.posted - 1 } failed := hq.congr rfl rfl rfl rfl rfl
    exact sends_writeMessage hposted hwrite.2 0
  · exact hq

theorem sends_finish (hq : Sends q failed) : Sends (SendQueue.step q .finish) failed := by
  rw [SendQueue.step]
  split
  · have hnone : Sends { q with completing := none } failed :=
      ⟨hq.isValid, hq.limit, hq.one, hq.flag, fun h => absurd rfl h, hq.lost⟩
    exact sends_writeMessage hnone rfl _
  · exact hq

/-- the write that completes is the only one -/
theorem complete_eq (hq : Sends q failed) (hcompleting : q.completing = none) (hflight : q.inFlight ≠ []) :
    ∃ data, q.inFlight = [data] ∧ SendQueue.step q .complete =
      { q with inFlight := [], isSendingData := false, completing := some data.length } := by
  obtain ⟨data, rest, hcons⟩ := List.exists_cons_of_ne_nil hflight
  have hone := hq.one
  rw [hcons, List.length_cons] at hone
  have hrest : rest = [] := List.length_eq_zero_iff.1 (by omega)
  rw [hrest] at hcons
  refine ⟨data, hcons, ?_⟩
  rw [SendQueue.step, hcompleting, hcons]
  exact if_pos hq.isValid

theorem sends_complete (hq : Sends q failed) (hcompleting : q.completing = none) (hflight : q.inFlight ≠ []) :
    Sends (SendQueue.step q .complete) failed := by
  obtain ⟨data, -, heq⟩ := complete_eq hq hcompleting hflight
  have hfailed : failed = false := by
    by_contra h
    exact hflight (hq.lost (Bool.eq_true_of_not_eq_false h))
  rw [heq]
  refine ⟨hq.isValid, hq.limit, Nat.zero_le 1, ?_, fun _ => ⟨rfl, hfailed⟩, fun _ => rfl⟩
  exact iff_of_false Bool.false_ne_true (by simp [hfailed])

/-- the write has failed, and the flag stays set -/
theorem sends_fail (hq : Sends q failed) (hcompleting : q.completing = none) (hflight : q.inFlight ≠ []) :
    Sends { q with inFlight := q.inFlight.tail } true := by
  obtain ⟨data, hone, -⟩ := complete_eq hq hcompleting hflight
  have htail : q.inFlight.tail = [] := by rw [hone]; rfl
  refine ⟨hq.isValid, hq.limit, ?_, ?_, ?_, fun _ => htail⟩
  · dsimp only
    rw [htail]
    exact Nat.zero_le 1
  · exact iff_of_true (hq.flag.2 (Or.inl hflight)) (Or.inr rfl)
  · exact fun h => absurd hcompleting h

/-! ## The invariant -/

structure Inv (s : St) : Prop where
  sends : Sends s.queue s.failed
  wrote : s.wrote ≠ none → s.queue.inFlight ≠ []
  /-- at most one attempt to connect -/
  attempts : s.connects.length ≤ 1
  connecting : s.isconnecting = true ↔ s.connects ≠ []
  connected : s.queue.isconnected = true → s.connects = []

variable {s : St}

/-- a step that leaves the attempts and the write alone -/
theorem Inv.queue (hs : Inv s) {q : SendQueue.St} (hq : Sends q s.failed) (hwrote : s.wrote ≠ none → q.inFlight ≠ [])
    (hconnected : q.isconnected = true → s.queue.isconnected = true) : Inv { s with queue := q } :=
  ⟨hq, hwrote, hs.attempts, hs.connecting, fun h => hs.connected (hconnected h)⟩

theorem inv_closeSocket (hs : Inv s) : Inv (closeSocket s) := by
  refine ⟨hs.sends, ?_, ?_, ?_, ?_⟩
  · rw [closeSocket]
    dsimp only
    split_ifs with hempty
    · exact hs.wrote
    · exact fun _ => hempty
  · rw [closeSocket, List.length_map]
    exact hs.attempts
  · rw [closeSocket, ne_eq, List.map_eq_nil_iff]
    exact hs.connecting
  · intro hconnected
    rw [closeSocket, List.map_eq_nil_iff]
    exact hs.connected hconnected

theorem inv_handleClose (hs : Inv s) : Inv (handleClose s) := by
  have hclosed := inv_closeSocket hs
  have hsends : Sends { s.queue with isconnected := false } s.failed := hs.sends.congr rfl rfl rfl rfl rfl
  exact ⟨hsends, hclosed.wrote, hclosed.attempts, hclosed.connecting, fun h => absurd h Bool.false_ne_true⟩

theorem inv_onClose (hs : Inv s) : Inv (onClose s) := by
  have hsends : Sends { s.queue with queue := [] } s.failed := hs.sends.congr rfl rfl rfl rfl rfl
  have hcleared : Inv { s with queue := { s.queue with queue := [] } } := hs.queue hsends hs.wrote id
  have hclosed := inv_handleClose hcleared
  exact ⟨hclosed.sends, hclosed.wrote, hclosed.attempts, hclosed.connecting, hclosed.connected⟩

theorem inv_reconnect (hs : Inv s) : Inv (reconnect s) := by
  rw [reconnect]
  split_ifs with hconnected hconnecting
  · exact hs
  · exact hs
  · have hnone : s.connects = [] := by
      by_contra h
      exact hconnecting (hs.connecting.2 h)
    refine ⟨hs.sends, hs.wrote, ?_, ?_, fun h => absurd h hconnected⟩
    · dsimp only
      rw [hnone]
      exact le_rfl
    · exact iff_of_true rfl (by simp)

theorem inv_runReconnect (hs : Inv s) (now : ℕ) : Inv (runReconnect s now) := by
  rw [runReconnect]
  split_ifs
  · have hnext := inv_reconnect hs
    exact ⟨hnext.sends, hnext.wrote, hnext.attempts, hnext.connecting, hnext.connected⟩
  · exact hs
  · exact hs

/-- the only attempt is over -/
theorem erased (hs : Inv s) {i : ℕ} {r : Option Bool} (hi : s.connects[i]? = some r) : s.connects.eraseIdx i = [] := by
  obtain ⟨hlt, -⟩ := List.getElem?_eq_some_iff.1 hi
  have hone := hs.attempts
  refine List.length_eq_zero_iff.1 ?_
  rw [List.length_eraseIdx_of_lt hlt]
  omega

theorem inv_handleConnect (hs : Inv s) {i : ℕ} {r : Option Bool} (hi : s.connects[i]? = some r) (ok : Bool) (now : ℕ) :
    Inv (handleConnect { s with connects := s.connects.eraseIdx i, clock := now } ok now) := by
  have hnone := erased hs hi
  have hsends (b : Bool) : Sends { s.queue with isconnected := b } s.failed := hs.sends.congr rfl rfl rfl rfl rfl
  rw [handleConnect, hnone]
  dsimp only
  split_ifs
  · exact ⟨hs.sends, hs.wrote, Nat.zero_le 1, iff_of_false Bool.false_ne_true fun h => h rfl, fun _ => rfl⟩
  · exact ⟨hsends true, hs.wrote, Nat.zero_le 1, iff_of_false Bool.false_ne_true fun h => h rfl, fun _ => rfl⟩
  · exact ⟨hsends false, hs.wrote, Nat.zero_le 1, iff_of_false Bool.false_ne_true fun h => h rfl, fun _ => rfl⟩

theorem inv_poll (hs : Inv s) : Inv (poll s) := by
  rw [poll]
  split
  · exact hs
  · exact ⟨hs.sends, hs.wrote, hs.attempts, hs.connecting, hs.connected⟩
  · exact ⟨hs.sends, hs.wrote, hs.attempts, hs.connecting, hs.connected⟩

theorem inv_handleReadSome (hs : Inv s) (r : ReadResult) : Inv (handleReadSome s r) := by
  cases r with
  | error => exact inv_onClose hs
  | frames => exact ⟨hs.sends, hs.wrote, hs.attempts, hs.connecting, hs.connected⟩
  | badLength => exact ⟨hs.sends, hs.wrote, hs.attempts, hs.connecting, hs.connected⟩
  | badCheckSum => exact inv_onClose ⟨hs.sends, hs.wrote, hs.attempts, hs.connecting, hs.connected⟩

theorem inv_handleWrite (hs : Inv s) (hcompleting : s.queue.completing = none) (hwrote : s.wrote ≠ none) (ok : Bool) :
    Inv (handleWrite s ok) := by
  have hflight := hs.wrote hwrote
  rw [handleWrite]
  dsimp only
  split_ifs
  · obtain ⟨data, -, heq⟩ := complete_eq hs.sends hcompleting hflight
    refine ⟨sends_complete hs.sends hcompleting hflight, fun h => absurd rfl h, hs.attempts, hs.connecting, ?_⟩
    rw [heq]
    exact hs.connected
  · exact inv_onClose ⟨sends_fail hs.sends hcompleting hflight, fun h => absurd rfl h, hs.attempts, hs.connecting,
      hs.connected⟩

/-- an operation of the socket ends -/
theorem inv_connectEnds (hs : Inv s) (i : ℕ) (f : Option Bool → Option Bool) :
    Inv { s with connects := s.connects.modify i f } := by
  have hlength : (s.connects.modify i f).length = s.connects.length := List.length_modify ..
  have hnil : s.connects.modify i f = [] ↔ s.connects = [] := by
    rw [← List.length_eq_zero_iff, hlength, List.length_eq_zero_iff]
  refine ⟨hs.sends, hs.wrote, hlength.trans_le hs.attempts, ?_, fun h => hnil.2 (hs.connected h)⟩
  rw [ne_eq, hnil]
  exact hs.connecting

theorem inv_atRest (hs : Inv s) {f : St → St} (hf : s.queue.completing = none → Inv (f s)) : Inv (atRest s f) := by
  rw [atRest]
  split_ifs with hrest
  · exact hf hrest
  · exact hs

/-- a posted `_write_message` and the second section of `handle_write` -/
theorem queue_kept (q : SendQueue.St) {op : SendQueue.Op} (hop : op = .write ∨ op = .finish) :
    q.inFlight <+: (SendQueue.step q op).inFlight ∧ (SendQueue.step q op).isconnected = q.isconnected := by
  have hkept (q : SendQueue.St) (size : ℕ) : q.inFlight <+: (SendQueue.writeMessage q size).inFlight ∧
      (SendQueue.writeMessage q size).isconnected = q.isconnected := by
    obtain ⟨⟨-, -, -, hconnected⟩, ⟨-, hflight, -⟩ | ⟨-, -, data, hflight, -⟩⟩ := writeMessage_cases q size
    · exact ⟨hflight ▸ List.prefix_refl _, hconnected⟩
    · exact ⟨hflight ▸ List.prefix_append _ _, hconnected⟩
  rcases hop with rfl | rfl
  · rw [SendQueue.step]
    split_ifs
    · exact hkept { q with posted := q.posted - 1 } 0
    · exact ⟨List.prefix_refl _, rfl⟩
  · rw [SendQueue.step]
    split
    · exact hkept { q with completing := none } _
    · exact ⟨List.prefix_refl _, rfl⟩

theorem inv_queue (hs : Inv s) {op : SendQueue.Op} (hop : op = .write ∨ op = .finish) :
    Inv { s with queue := SendQueue.step s.queue op } := by
  obtain ⟨hflight, hconnected⟩ := queue_kept s.queue hop
  have hsends : Sends (SendQueue.step s.queue op) s.failed := by
    rcases hop with rfl | rfl
    · exact sends_write hs.sends
    · exact sends_finish hs.sends
  exact hs.queue hsends (fun h hnil => hs.wrote h (List.prefix_nil.1 (hnil ▸ hflight))) (hconnected ▸ id)

/-- `_send_message` leaves the socket alone -/
theorem send_kept (q : SendQueue.St) (msg : SendQueue.Frame) : (SendQueue.step q (.send msg)).inFlight = q.inFlight ∧
    (SendQueue.step q (.send msg)).isconnected = q.isconnected := by
  rw [SendQueue.step, SendQueue.sendMessage]
  dsimp only
  split_ifs <;> exact ⟨rfl, rfl⟩

theorem post_kept (q : SendQueue.St) : (SendQueue.step q .post).inFlight = q.inFlight ∧
    (SendQueue.step q .post).isconnected = q.isconnected := by
  rw [SendQueue.step]
  split_ifs <;> exact ⟨rfl, rfl⟩

/-- **Step.** -/
theorem inv_step (s : St) (op : Op) (hs : Inv s) : Inv (step s op) := by
  cases op with
  | setReconnect b => exact ⟨hs.sends, hs.wrote, hs.attempts, hs.connecting, hs.connected⟩
  | connect =>
    refine inv_atRest hs fun _ => ?_
    have hnext := inv_reconnect hs
    exact ⟨hnext.sends, hnext.wrote, hnext.attempts, hnext.connecting, hnext.connected⟩
  | run now =>
    have hclock : Inv { s with clock := now } := ⟨hs.sends, hs.wrote, hs.attempts, hs.connecting, hs.connected⟩
    exact inv_runReconnect hclock now
  | poll => exact inv_poll hs
  | close => exact ⟨hs.sends, hs.wrote, hs.attempts, hs.connecting, hs.connected⟩
  | send msg =>
    obtain ⟨hflight, hconnected⟩ := send_kept s.queue msg
    exact hs.queue (sends_send hs.sends msg) (hflight.symm ▸ hs.wrote) (hconnected ▸ id)
  | post =>
    obtain ⟨hflight, hconnected⟩ := post_kept s.queue
    exact hs.queue (sends_post hs.sends) (hflight.symm ▸ hs.wrote) (hconnected ▸ id)
  | write => exact inv_queue hs (Or.inl rfl)
  | finish => exact inv_queue hs (Or.inr rfl)
  | handleClose =>
    refine inv_atRest hs fun _ => ?_
    split_ifs
    · exact inv_handleClose ⟨hs.sends, hs.wrote, hs.attempts, hs.connecting, hs.connected⟩
    · exact hs
  | connectEnds i ok => exact inv_connectEnds hs i _
  | handleConnect i now =>
    rw [step]
    refine inv_atRest hs fun _ => ?_
    split
    · rename_i ok hi
      exact inv_handleConnect hs hi ok now
    · exact hs
  | readEnds i r => exact ⟨hs.sends, hs.wrote, hs.attempts, hs.connecting, hs.connected⟩
  | handleReadSome i =>
    rw [step]
    refine inv_atRest hs fun _ => ?_
    split
    · rename_i r _
      exact inv_handleReadSome (s := { s with reads := s.reads.eraseIdx i })
        ⟨hs.sends, hs.wrote, hs.attempts, hs.connecting, hs.connected⟩ r
    · exact hs
  | writeEnds ok =>
    rw [step]
    split_ifs with hempty
    · exact hs
    · exact ⟨hs.sends, fun _ => hempty, hs.attempts, hs.connecting, hs.connected⟩
  | handleWrite =>
    rw [step]
    refine inv_atRest hs fun hrest => ?_
    split
    · rename_i ok hwrote
      exact inv_handleWrite hs hrest (by rw [hwrote]; exact Option.some_ne_none ok) ok
    · exact hs

theorem inv_start (isreconnect : Bool) (sendingData : Buffer maxMessageLen) : Inv (start isreconnect sendingData) where
  sends :=
    { isValid := rfl
      limit := rfl
      one := Nat.zero_le 1
      flag := iff_of_false Bool.false_ne_true (by simp [start, SendQueue.start])
      apart := fun h => absurd rfl h
      lost := fun h => absurd h Bool.false_ne_true }
  wrote := fun h => absurd rfl h
  attempts := Nat.zero_le 1
  connecting := iff_of_false Bool.false_ne_true fun h => h rfl
  connected := fun h => absurd h Bool.false_ne_true

/-! ## What a step does -/

/-- what there is to see of a client -/
structure View where
  written : List Bytes
  sending : Bool
  wrote : Option Bool
  failed : Bool
  connected : Bool
  connecting : Bool
  starts : List ℕ
  last : UInt32
  clock : ℕ
  log : List Callback

def view (s : St) : View where
  written := s.queue.written
  sending := s.queue.isSendingData
  wrote := s.wrote
  failed := s.failed
  connected := s.queue.isconnected
  connecting := s.isconnecting
  starts := s.starts
  last := s.lastReconnectTime
  clock := s.clock
  log := s.log

/-- A step. When the socket is closed, a write that is outstanding ends (`wrote`), if it had not. -/
inductive Did (v : View) : Op → View → Prop
  | quiet (op : Op) : Did v op v
  | write (op : Op) (idle : v.sending = false) (data : Bytes) :
    Did v op { v with written := v.written ++ [data], sending := true }
  | connect : Did v .connect { v with connecting := true }
  | look (now : ℕ) : Did v (.run now) { v with clock := now }
  | begin (now : ℕ) (free : v.connecting = false) (pause : reconnectTime < UInt32.ofNat now - v.last) :
    Did v (.run now) { v with clock := now, connecting := true, starts := v.starts ++ [now] }
  | opened (i now : ℕ) (before : v.connected = false) : Did v (.handleConnect i now)
    { v with
      connecting := false, clock := now, last := UInt32.ofNat now, connected := true, log := v.log ++ [.onConnect] }
  | refused (i now : ℕ) (before : v.connected = false) : Did v (.handleConnect i now)
    { v with connecting := false, clock := now, last := UInt32.ofNat now, log := v.log ++ [.onConnectFailed] }
  | closed (i : ℕ) (w : Option Bool) (kept : ∀ b, v.wrote = some b → w = some b) :
    Did v (.handleReadSome i) { v with wrote := w, connected := false, log := v.log ++ [.onClose] }
  | shut (w : Option Bool) (kept : ∀ b, v.wrote = some b → w = some b) :
    Did v .handleClose { v with wrote := w, connected := false }
  | ended (ok : Bool) (waiting : v.wrote = none) : Did v (.writeEnds ok) { v with wrote := some ok }
  | completed (well : v.wrote = some true) : Did v .handleWrite { v with wrote := none, sending := false }
  | failed (badly : v.wrote = some false) : Did v .handleWrite
    { v with wrote := none, failed := true, connected := false, log := v.log ++ [.onClose] }

theorem did_quiet {v w : View} {op : Op} (h : w = v) : Did v op w := h ▸ .quiet op

theorem did_atRest {op : Op} {f : St → St} (hf : s.queue.completing = none → Did (view s) op (view (f s))) :
    Did (view s) op (view (atRest s f)) := by
  rw [atRest]
  split_ifs with hrest
  · exact hf hrest
  · exact .quiet op

/-- how the outstanding write ends when the socket is closed -/
theorem wrote_closeSocket (s : St) : ∀ b, s.wrote = some b → (closeSocket s).wrote = some b := by
  intro b hb
  rw [closeSocket]
  dsimp only
  split_ifs
  · exact hb
  · rw [hb, Option.getD_some]

theorem did_writeMessage {q : SendQueue.St} (hq : view { s with queue := q } = view s) (size : ℕ) (op : Op) :
    Did (view s) op (view { s with queue := SendQueue.writeMessage q size }) := by
  obtain ⟨⟨-, -, -, hconnected⟩, ⟨hflag, -, hwritten⟩ | ⟨hidle, hflag, data, -, hwritten⟩⟩ := writeMessage_cases q size
  · rw [← hq]
    refine did_quiet ?_
    rw [view, view, hflag, hwritten, hconnected]
  · have hwrite := Did.write (v := view { s with queue := q }) op hidle data
    rw [← hq]
    convert hwrite using 1
    rw [view, view, hflag, hwritten, hconnected]

theorem did_handleReadSome (s : St) (i : ℕ) (r : ReadResult) :
    Did (view s) (.handleReadSome i) (view (handleReadSome { s with reads := s.reads.eraseIdx i } r)) := by
  cases r with
  | error => exact .closed i _ (wrote_closeSocket s)
  | frames => exact .quiet _
  | badLength => exact .quiet _
  | badCheckSum => exact .closed i _ (wrote_closeSocket s)

theorem did_handleWrite (hs : Inv s) (hcompleting : s.queue.completing = none) {ok : Bool}
    (hwrote : s.wrote = some ok) :
    Did (view s) .handleWrite (view (handleWrite s ok)) := by
  have hflight := hs.wrote (by rw [hwrote]; exact Option.some_ne_none ok)
  obtain ⟨data, hone, hcomplete⟩ := complete_eq hs.sends hcompleting hflight
  rw [handleWrite]
  dsimp only
  cases ok with
  | true =>
    rw [if_pos rfl, hcomplete]
    exact .completed hwrote
  | false =>
    -- there was only one write, so closing the socket ends none
    have htail : s.queue.inFlight.tail = [] := by rw [hone]; rfl
    rw [if_neg Bool.false_ne_true, onClose, closeSocket]
    dsimp only
    rw [if_pos htail]
    exact .failed hwrote

/-- **What a step does.** -/
theorem step_did (hs : Inv s) (op : Op) : Did (view s) op (view (step s op)) := by
  cases op with
  | setReconnect b => exact .quiet _
  | connect =>
    refine did_atRest fun _ => ?_
    rw [connect, reconnect]
    split_ifs
    · exact .quiet _
    · exact .quiet _
    · exact .connect
  | run now =>
    rw [step, runReconnect]
    split_ifs with hflags hpause
    · rw [Bool.and_eq_true, Bool.and_eq_true, Bool.and_eq_true, Bool.not_eq_true', Bool.not_eq_true'] at hflags
      obtain ⟨⟨⟨hconnected, -⟩, hconnecting⟩, -⟩ := hflags
      dsimp only at hconnected hconnecting
      rw [reconnect, hconnected, hconnecting]
      exact .begin now hconnecting hpause
    · exact .look now
    · exact .look now
  | poll =>
    rw [step, poll]
    split <;> exact .quiet _
  | close => exact .quiet _
  | send msg =>
    refine did_quiet ?_
    rw [step, SendQueue.step, SendQueue.sendMessage]
    dsimp only
    split_ifs <;> rfl
  | post =>
    refine did_quiet ?_
    rw [step, SendQueue.step]
    split_ifs <;> rfl
  | write =>
    rw [step, SendQueue.step]
    split_ifs
    · exact did_writeMessage (s := s) (q := { s.queue with posted := s.queue.posted - 1 }) rfl 0 .write
    · exact .quiet _
  | finish =>
    rw [step, SendQueue.step]
    split
    · exact did_writeMessage (s := s) (q := { s.queue with completing := none }) rfl _ .finish
    · exact .quiet _
  | handleClose =>
    refine did_atRest fun _ => ?_
    split_ifs
    · exact .shut _ (wrote_closeSocket s)
    · exact .quiet _
  | connectEnds i ok => exact .quiet _
  | handleConnect i now =>
    rw [step]
    refine did_atRest fun _ => ?_
    split
    · rename_i ok hi
      -- while an attempt is under way there is no connection
      have hconnected : s.queue.isconnected = false := by
        rw [Bool.eq_false_iff]
        intro h
        rw [hs.connected h] at hi
        exact absurd hi (by simp)
      rw [handleConnect]
      dsimp only
      rw [if_neg (by rw [hconnected]; exact Bool.false_ne_true)]
      split_ifs
      · exact .opened i now hconnected
      · have hrefused := Did.refused (v := view s) i now hconnected
        convert hrefused using 1
        rw [view, view, hconnected]
        rfl
    · exact .quiet _
  | readEnds i r => exact .quiet _
  | handleReadSome i =>
    rw [step]
    refine did_atRest fun _ => ?_
    split
    · exact did_handleReadSome s i _
    · exact .quiet _
  | writeEnds ok =>
    rw [step]
    split_ifs
    · exact .quiet _
    · cases hwrote : s.wrote with
      | none => exact .ended ok hwrote
      | some b =>
        refine did_quiet ?_
        rw [view, view, hwrote]
        rfl
  | handleWrite =>
    rw [step]
    refine did_atRest fun hrest => ?_
    split
    · rename_i ok hwrote
      exact did_handleWrite hs hrest hwrote
    · exact .quiet _

end DreamHeroes.TcpClient

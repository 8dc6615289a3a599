/-
A `tcp_client` after a failed write. `handle_write` clears `m_is_sending_data` when the write has worked, and leaves it
set when it has not; nothing else clears it, since a client is never `reset`. `_write_message` then returns at the flag
on every connection that follows.

- `Muted`: nothing more is ever handed to a socket. `Broken`: a write has failed.
- `muted_of_broken`: the flag stays set.
- `writes_of_not_broken`: otherwise some steps write, from any state: an outstanding write ends, `connect` is called,
  something is sent.
- `muted_iff`: every state that a client reaches.
-/
import Mathlib.Tactic
import DreamHeroes.Net.TcpClient

namespace DreamHeroes.TcpClient

open DreamHeroes.Lib DreamHeroes.Wire DreamHeroes.Net

variable {s : St}

/-! ## A client that never writes again -/

/-- whatever happens, nothing more is handed to the socket -/
def Muted (s : St) : Prop := ∀ ops, (run step s ops).queue.written = s.queue.written

/-- a write has failed, or its handler is going to find that it has -/
def Broken (s : St) : Prop := s.failed = true ∨ s.wrote = some false

/-- the flag is set -/
theorem sending_of_broken (hs : Inv s) (hbroken : Broken s) : s.queue.isSendingData = true := by
  refine hs.sends.flag.2 (hbroken.symm.imp (fun h => hs.wrote ?_) id)
  rw [h]
  exact Option.some_ne_none false

/-- after a failure there is no write whose end could be handled -/
theorem broken_once (hs : Inv s) (hbroken : Broken s) : s.wrote ≠ some true := by
  intro h
  rcases hbroken with hfailed | hwrote
  · exact hs.wrote (by rw [h]; exact Option.some_ne_none true) (hs.sends.lost hfailed)
  · exact absurd (h.symm.trans hwrote) (by decide)

theorem broken_step (hs : Inv s) (hbroken : Broken s) (op : Op) :
    Broken (step s op) ∧ (step s op).queue.written = s.queue.written := by
  have hsending := sending_of_broken hs hbroken
  have hdid := step_did hs op
  have hafter (w : View) (hw : view (step s op) = w) (hfailed : s.failed = true → w.failed = true)
      (hwrote : s.wrote = some false → w.failed = true ∨ w.wrote = some false)
        (hwritten : w.written = s.queue.written) :
      Broken (step s op) ∧ (step s op).queue.written = s.queue.written := by
    subst hw
    exact ⟨hbroken.elim (fun h => Or.inl (hfailed h)) hwrote, hwritten⟩
  generalize hview : view (step s op) = w at hdid
  cases hdid with
  | quiet => exact hafter _ hview id Or.inr rfl
  | write _ idle _ => exact absurd (idle.symm.trans hsending) Bool.false_ne_true
  | connect => exact hafter _ hview id Or.inr rfl
  | look now => exact hafter _ hview id Or.inr rfl
  | begin now free pause => exact hafter _ hview id Or.inr rfl
  | opened i now before => exact hafter _ hview id Or.inr rfl
  | refused i now before => exact hafter _ hview id Or.inr rfl
  | closed i w kept => exact hafter _ hview id (fun h => Or.inr (kept false h)) rfl
  | shut w kept => exact hafter _ hview id (fun h => Or.inr (kept false h)) rfl
  | ended ok waiting =>
    exact hafter _ hview id (fun h => absurd (waiting.symm.trans h) (Option.some_ne_none _).symm) rfl
  | completed well => exact absurd well (broken_once hs hbroken)
  | failed badly => exact hafter _ hview (fun _ => rfl) (fun _ => Or.inl rfl) rfl

theorem muted_of_broken (hs : Inv s) (hbroken : Broken s) : Muted s := by
  intro ops
  induction ops generalizing s with
  | nil => rfl
  | cons op ops ih =>
    obtain ⟨hstill, hwritten⟩ := broken_step hs hbroken op
    rw [run_cons, ih (inv_step s op hs) hstill, hwritten]

/-! ## A client that still writes -/

/-- some steps hand more to the socket -/
def Writes (s : St) : Prop := ∃ ops, (run step s ops).queue.written ≠ s.queue.written

/-- it is enough that a state on the way does -/
theorem writes_of_run (ops : List Op) (hsame : (run step s ops).queue.written = s.queue.written)
    (hwrites : Writes (run step s ops)) : Writes s := by
  obtain ⟨more, hmore⟩ := hwrites
  refine ⟨ops ++ more, ?_⟩
  rw [run_append]
  exact fun h => hmore (h.trans hsame.symm)

/-- nothing is outstanding, and nothing has failed -/
structure Idle (s : St) : Prop where
  completing : s.queue.completing = none
  inFlight : s.queue.inFlight = []
  failed : s.failed = false

/-- there is something to write, and nothing in its way -/
theorem writeMessage_starts {q : SendQueue.St} (hconnected : q.isconnected = true) (hflag : q.isSendingData = false)
    (hqueue : q.queue ≠ []) (size : ℕ) : (SendQueue.writeMessage q size).written ≠ q.written := by
  obtain ⟨buf, taken, rest, hbatch, -, -⟩ := SendQueue.batch_zero q.sendingData q.queue
  have hempty : q.queue.isEmpty = false := by
    rw [Bool.eq_false_iff, ne_eq, List.isEmpty_iff]
    exact hqueue
  rw [SendQueue.writeMessage]
  dsimp only
  rw [hconnected, hflag, hempty, hbatch]
  exact fun h => absurd (congrArg List.length h) (by simp [SendQueue.asyncWrite])

/-- a frame is pushed, and the posted `_write_message` runs -/
theorem writes_connected (hs : Inv s) (hidle : Idle s) (hconnected : s.queue.isconnected = true) : Writes s := by
  have hflag : s.queue.isSendingData = false := by
    rw [Bool.eq_false_iff, ne_eq, hs.sends.flag, hidle.inFlight, hidle.failed]
    simp
  let msg : SendQueue.Frame := ⟨[0], by decide⟩
  have hsend : SendQueue.step s.queue (.send msg) = { s.queue with
      queue := s.queue.queue ++ [msg], notSentSize := s.queue.notSentSize + msg.1.length,
      pushed := s.queue.pushed ++ [msg], posting := s.queue.posting + 1 } := by
    rw [SendQueue.step, SendQueue.sendMessage, if_pos hconnected]
    dsimp only
    rw [hs.sends.limit]
    exact if_neg fun h => Bool.false_ne_true h.1
  refine ⟨[.send msg, .post, .write], ?_⟩
  rw [run_cons, run_cons, run_cons, run_nil, step, hsend, step, SendQueue.step, if_pos (Nat.succ_pos _), step,
    SendQueue.step, if_pos ⟨Nat.succ_pos _, hidle.completing⟩]
  refine writeMessage_starts ?_ ?_ ?_ 0
  · exact hconnected
  · exact hflag
  · exact List.append_ne_nil_of_right_ne_nil _ (List.cons_ne_nil _ _)

/-- an attempt that has worked -/
theorem writes_handleConnect (hs : Inv s) (hidle : Idle s) (hconnected : s.queue.isconnected = false)
    (hconnects : s.connects = [some true]) : Writes s := by
  have hstep : step s (.handleConnect 0 0) = addCb { s with
      isconnecting := false, connects := [], clock := 0, lastReconnectTime := 0,
      queue := { s.queue with isconnected := true } } .onConnect := by
    rw [step, atRest, if_pos hidle.completing, hconnects]
    dsimp only [List.getElem?_cons_zero, List.eraseIdx_cons_zero]
    rw [handleConnect]
    dsimp only
    rw [hconnected]
    rfl
  refine writes_of_run [.handleConnect 0 0] ?_ ?_ <;> rw [run_cons, run_nil]
  · rw [hstep]
    rfl
  · refine writes_connected (inv_step s _ hs) ?_ ?_ <;> rw [hstep]
    · exact ⟨hidle.completing, hidle.inFlight, hidle.failed⟩
    · rfl

/-- an attempt that is under way -/
theorem writes_connecting (hs : Inv s) (hidle : Idle s) (hconnected : s.queue.isconnected = false)
    (hconnects : s.connects = [none]) : Writes s := by
  have hstep : step s (.connectEnds 0 true) = { s with connects := [some true] } := by
    rw [step, hconnects]
    rfl
  refine writes_of_run [.connectEnds 0 true] ?_ ?_ <;> rw [run_cons, run_nil]
  · rfl
  · refine writes_handleConnect (inv_step s _ hs) ?_ ?_ ?_ <;> rw [hstep]
    · exact ⟨hidle.completing, hidle.inFlight, hidle.failed⟩
    · exact hconnected

/-- somebody calls `connect` -/
theorem writes_connect (hs : Inv s) (hidle : Idle s) (hconnected : s.queue.isconnected = false)
    (hconnects : s.connects = []) : Writes s := by
  have hconnecting : s.isconnecting = false := by
    rw [Bool.eq_false_iff, ne_eq, hs.connecting, hconnects]
    simp
  have hstep : step s .connect = { s with isconnecting := true, connects := [none], isinitconncted := true } := by
    rw [step, atRest, if_pos hidle.completing, connect, reconnect, hconnected, hconnecting, hconnects]
    rfl
  refine writes_of_run [.connect] ?_ ?_ <;> rw [run_cons, run_nil]
  · rw [hstep]
  · refine writes_connecting (inv_step s _ hs) ?_ ?_ ?_ <;> rw [hstep]
    · exact ⟨hidle.completing, hidle.inFlight, hidle.failed⟩
    · exact hconnected

/-- an attempt that has not worked: the next one may -/
theorem writes_refused (hs : Inv s) (hidle : Idle s) (hconnected : s.queue.isconnected = false)
    (hconnects : s.connects = [some false]) : Writes s := by
  have hstep : step s (.handleConnect 0 0) = addCb { s with
      isconnecting := false, connects := [], clock := 0, lastReconnectTime := 0,
      queue := { s.queue with isconnected := false } } .onConnectFailed := by
    rw [step, atRest, if_pos hidle.completing, hconnects]
    dsimp only [List.getElem?_cons_zero, List.eraseIdx_cons_zero]
    rw [handleConnect]
    dsimp only
    rw [hconnected]
    rfl
  refine writes_of_run [.handleConnect 0 0] ?_ ?_ <;> rw [run_cons, run_nil]
  · rw [hstep]
    rfl
  · refine writes_connect (inv_step s _ hs) ?_ ?_ ?_ <;> rw [hstep]
    · exact ⟨hidle.completing, hidle.inFlight, hidle.failed⟩
    · rfl
    · rfl

theorem writes_idle (hs : Inv s) (hidle : Idle s) : Writes s := by
  cases hconnected : s.queue.isconnected with
  | true => exact writes_connected hs hidle hconnected
  | false =>
    have hone := hs.attempts
    cases hconnects : s.connects with
    | nil => exact writes_connect hs hidle hconnected hconnects
    | cons r rest =>
      rw [hconnects, List.length_cons] at hone
      have hrest : rest = [] := List.length_eq_zero_iff.1 (by omega)
      rw [hrest] at hconnects
      cases r with
      | none => exact writes_connecting hs hidle hconnected hconnects
      | some ok =>
        cases ok with
        | true => exact writes_handleConnect hs hidle hconnected hconnects
        | false => exact writes_refused hs hidle hconnected hconnects

/-- `handle_write` goes on with the queue: it writes, or leaves nothing outstanding -/
theorem writes_finish (hs : Inv s) {size : ℕ} (hcompleting : s.queue.completing = some size) : Writes s := by
  obtain ⟨hflight, hfailed⟩ := hs.sends.apart (by rw [hcompleting]; exact Option.some_ne_none size)
  have hstep :
    step s .finish = { s with queue := SendQueue.writeMessage { s.queue with completing := none } size } := by
    rw [step, SendQueue.step, hcompleting]
  obtain ⟨⟨-, -, hnone, -⟩, ⟨-, hsame, hwritten⟩ | ⟨-, -, data, -, hwritten⟩⟩ :=
    writeMessage_cases { s.queue with completing := none } size
  · refine writes_of_run [.finish] ?_ ?_ <;> rw [run_cons, run_nil]
    · rw [hstep]
      exact hwritten
    · refine writes_idle (inv_step s _ hs) ?_
      rw [hstep]
      exact ⟨hnone, hsame.trans hflight, hfailed⟩
  · refine ⟨[.finish], ?_⟩
    rw [run_cons, run_nil, hstep]
    dsimp only
    rw [hwritten]
    exact fun h => absurd (congrArg List.length h) (by simp)

/-- the outstanding write ends well -/
theorem writes_flying (hs : Inv s) (hcompleting : s.queue.completing = none) (hflight : s.queue.inFlight ≠ [])
    (hwrote : s.wrote ≠ some false) : Writes s := by
  obtain ⟨data, -, hcomplete⟩ := complete_eq hs.sends hcompleting hflight
  have hends : step s (.writeEnds true) = { s with wrote := some true } := by
    rw [step, if_neg hflight]
    cases h : s.wrote with
    | none => rfl
    | some ok =>
      cases ok with
      | true => rfl
      | false => exact absurd h hwrote
  have hhandle : step { s with wrote := some true } .handleWrite =
      { s with wrote := none, queue := SendQueue.step s.queue .complete } := by
    rw [step, atRest, if_pos hcompleting]
    rfl
  refine writes_of_run [.writeEnds true, .handleWrite] ?_ ?_ <;> rw [run_cons, run_cons, run_nil]
  · rw [hends, hhandle, hcomplete]
  · have hinv := inv_step _ .handleWrite (inv_step s (.writeEnds true) hs)
    have hsize : (step (step s (.writeEnds true)) .handleWrite).queue.completing = some data.length := by
      rw [hends, hhandle, hcomplete]
    exact writes_finish hinv hsize

theorem writes_of_not_broken (hs : Inv s) (hbroken : ¬Broken s) : Writes s := by
  have hfailed : s.failed = false := Bool.eq_false_iff.2 fun h => hbroken (Or.inl h)
  have hwrote : s.wrote ≠ some false := fun h => hbroken (Or.inr h)
  cases hcompleting : s.queue.completing with
  | some size => exact writes_finish hs hcompleting
  | none =>
    by_cases hflight : s.queue.inFlight = []
    · exact writes_idle hs ⟨hcompleting, hflight, hfailed⟩
    · exact writes_flying hs hcompleting hflight hwrote

/-- **Muted.** In every state that a client reaches: nothing it is asked to send will ever be handed to a socket again,
whatever it connects to, exactly when a write has failed or is about to be found to have. -/
theorem muted_iff (isreconnect : Bool) (sendingData : Buffer maxMessageLen) (ops : List Op) :
    Muted (run step (start isreconnect sendingData) ops) ↔ Broken (run step (start isreconnect sendingData) ops) := by
  have hinv := inv_run_all inv_step ops (inv_start isreconnect sendingData)
  constructor
  · intro hmuted
    by_contra hbroken
    obtain ⟨more, hmore⟩ := writes_of_not_broken hinv hbroken
    exact hmore (hmuted more)
  · exact muted_of_broken hinv

end DreamHeroes.TcpClient

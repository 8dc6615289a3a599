/-
One direction of a connection, from `send_message` on one side to `proc_message` on the other: the frames of
`FrameCodec`, the queue of `SendQueue`, the bytes in the socket, the buffer of `Framing`, and the queue of the server
that `Queues` describes (the one of a `tcp_client` is the same, less the test of the session).

- `step`: a step of one of the parts. The socket gives any number of the bytes that were written; a message that has
  been put together is pushed later; other sessions push to the same queue.
- `Inv`: each part has what the one before it has let go.
- `sent_run`: what was sent is what `send_message` was given.
- `channel_refines`: all of it is a `Fifo`, and neither side bans, closes or overruns.
- `channel_drains`: from every state, some steps hand on everything that was sent.

Both sides are connected, the sender is not in limit mode, and the payloads fit: 2 to 64990 bytes go into the frame.
-/
import Mathlib.Tactic
import DreamHeroes.Lib.Fifo
import DreamHeroes.Net.Envelope
import DreamHeroes.Net.FrameCodec
import DreamHeroes.Net.Framing
import DreamHeroes.Net.Queues
import DreamHeroes.Net.SendQueue

namespace DreamHeroes.Channel

open DreamHeroes.Lib DreamHeroes.Wire DreamHeroes.Queues

variable {Other : Type*} (cs : Option CompressStrategy) (cfg : Sender)

/-- a payload that has room in a frame; `base64` goes with it -/
abbrev Payload := {m : Message // Wire.Fits cs cfg m.data}

/-- the sessions of the receiving server: this one is `none` -/
abbrev Received (Other : Type*) := MessageQueue.Msg (Option Other) Message

structure St (Other : Type*) where
  sender : SendQueue.St
  /-- the bytes that the other side has read -/
  taken : ℕ := 0
  receiver : Session
  /-- the messages that the handler has pushed -/
  handed : ℕ := 0
  queue : MessageQueue.St (Option Other) Message := {}
  sent : List Message := []

/-- the others come and go -/
def sessions (e : MessageQueue.Sessions Other) : MessageQueue.Sessions (Option Other) where
  isValid x := x.elim true e.isValid
  isConnected x := x.elim true e.isConnected

inductive Op (Other : Type*) where
  | send (m : Payload cs cfg)
  /-- a step of the sender that sends nothing new -/
  | sender (op : {op : SendQueue.Op // op.Quiet})
  /-- `async_read_some` completes with at most this many bytes -/
  | read (n : ℕ)
  | pushMessage
  | other (x : Other) (m : Message)
  | realRun (e : MessageQueue.Sessions Other)

/-- the message that `_send_message` is given -/
def frame (m : Payload cs cfg) : Option SendQueue.Frame :=
  (sendMessage cs cfg m.1.data m.1.base64).bind fun msg =>
    if h : msg.data.length ≤ maxMessageLen then some ⟨msg.data, h⟩ else none

def send (s : St Other) (m : Payload cs cfg) : St Other :=
  match frame cs cfg m with
  | some f => { s with sender := SendQueue.step s.sender (.send f), sent := s.sent ++ [m.1] }
  | none => s

/-- the bytes in the socket -/
def wire (s : St Other) : Bytes := s.sender.written.flatten.drop s.taken

def read (s : St Other) (n : ℕ) : St Other :=
  let c := (wire s).take (min n maxMessageLen)
  if s.receiver.reading ∧ c ≠ [] then
    { s with receiver := readSome cs s.receiver c, taken := s.taken + c.length }
  else s

def pushMessage (s : St Other) : St Other :=
  match s.receiver.pushed[s.handed]? with
  | some m => { s with handed := s.handed + 1, queue := MessageQueue.step s.queue (.pushMessage ⟨none, m⟩) }
  | none => s

def step (s : St Other) : Op cs cfg Other → St Other
  | .send m => send cs cfg s m
  | .sender op => { s with sender := SendQueue.step s.sender op.1 }
  | .read n => read cs s n
  | .pushMessage => pushMessage s
  | .other x m => { s with queue := MessageQueue.step s.queue (.pushMessage ⟨some x, m⟩) }
  | .realRun e => { s with queue := MessageQueue.step s.queue (.realRun (sessions e)) }

/-- of this session -/
def own (msgs : List (Received Other)) : List Message :=
  msgs.filterMap fun m => if m.sender.isNone then some m.data else none

/-- what `proc_message` was given -/
def delivered (s : St Other) : List Message := own s.queue.calls

def view (s : St Other) : Fifo Message := ⟨s.sent, delivered s⟩

/-! ## Frames -/

variable {cs} in
/-- a payload that fits has a frame, whose message is the payload -/
theorem carries_of_fits (hcs : ∀ c, cs = some c → c.Inverts) {s : Sender} {payload : Bytes} {base64 : Bool}
    {msg : Message} (hsend : sendMessage cs s payload base64 = some msg) (hfits : Wire.Fits cs s payload) :
    Carries cs msg payload base64 := by
  obtain ⟨hshort, ⟨buff, hbuff, rfl⟩ | ⟨hnone, rfl⟩⟩ := sendMessage_cases hsend
  · obtain ⟨-, -, c, hc, hcompress, hless⟩ := id hbuff
    have hopens : Opens cs true buff payload := ⟨c, hc, hcs c hc _ _ _ _ hcompress hshort.le⟩
    exact (carries_makeMessage_iff (hless.trans hshort) hopens base64).2 (hfits.1 buff hbuff)
  · have hopens : Opens cs false payload payload := rfl
    exact (carries_makeMessage_iff hshort hopens base64).2 (hfits.2 hnone)

variable {cs} in
theorem valid_of_carries {msg : Message} {payload : Bytes} {base64 : Bool} (h : Carries cs msg payload base64) :
    Valid cs msg.data ∧ message cs msg.data = ⟨payload, base64⟩ := by
  have hvalid : Valid cs msg.data := by
    refine (uncompress_isSome_iff cs (h.framed ▸ h.accepted) h.framed).1 ?_
    rw [h.decoded]
    rfl
  refine ⟨hvalid, ?_⟩
  have hmsg := (uncompress_valid cs hvalid).symm.trans h.decoded
  exact Option.some.inj hmsg

variable {cs cfg} in
theorem frame_spec (hcs : ∀ c, cs = some c → c.Inverts) {m : Payload cs cfg} {f : SendQueue.Frame}
    (h : frame cs cfg m = some f) : Valid cs f.1 ∧ message cs f.1 = m.1 ∧ m.1.data.length < maxMessageLen := by
  obtain ⟨msg, hsend, hframe⟩ := Option.bind_eq_some_iff.1 h
  have hvalid := valid_of_carries (carries_of_fits hcs hsend m.2)
  split_ifs at hframe
  cases hframe
  exact ⟨hvalid.1, hvalid.2, (sendMessage_cases hsend).1⟩

/-- `send_message` goes on with it: the session is there, and the payload is shorter than a message -/
def Accepted (m : Payload cs cfg) : Prop :=
  cfg.isValid = true ∧ cfg.isconnected = true ∧ m.1.data.length < maxMessageLen

instance (m : Payload cs cfg) : Decidable (Accepted cs cfg m) := inferInstanceAs (Decidable (_ ∧ _ ∧ _))

theorem sendMessage_isSome_iff (s : Sender) (payload : Bytes) (base64 : Bool) :
    (sendMessage cs s payload base64).isSome ↔
      s.isValid = true ∧ s.isconnected = true ∧ payload.length ≠ 0 ∧ payload.length < maxMessageLen := by
  have hlong : maxMessageLen - 1 < payload.length ↔ ¬payload.length < maxMessageLen := by
    rw [maxMessageLen]
    omega
  rw [sendMessage]
  split_ifs with hguard
  · refine iff_of_false Bool.false_ne_true ?_
    rintro ⟨hvalid, hconnected, hnonempty, hshort⟩
    rw [hvalid, hconnected] at hguard
    simp only [Bool.true_eq_false, false_or] at hguard
    exact hguard.elim hnonempty fun h => hlong.1 h hshort
  all_goals
    simp only [not_or, Bool.not_eq_false, hlong, not_not] at hguard
    exact iff_of_true rfl hguard

variable {cs cfg} in
theorem length_pos_of_fits {payload : Bytes} (h : Wire.Fits cs cfg payload) : payload.length ≠ 0 := by
  by_cases hbuff : ∃ buff, Shortened cs cfg payload buff
  · obtain ⟨buff, -, hlong, -⟩ := hbuff
    omega
  · have htwo := (h.2 fun buff hb => hbuff ⟨buff, hb⟩).1
    omega

variable {cs cfg} in
/-- a payload that fits has a frame, unless `send_message` refuses it -/
theorem frame_isSome_iff (hcs : ∀ c, cs = some c → c.Inverts) (m : Payload cs cfg) :
    (frame cs cfg m).isSome ↔ Accepted cs cfg m := by
  have hsome := sendMessage_isSome_iff cs cfg m.1.data m.1.base64
  rw [frame]
  cases hsend : sendMessage cs cfg m.1.data m.1.base64 with
  | none =>
    rw [hsend] at hsome
    refine iff_of_false Bool.false_ne_true fun h => Bool.false_ne_true (hsome.2 ?_)
    exact ⟨h.1, h.2.1, length_pos_of_fits m.2, h.2.2⟩
  | some msg =>
    rw [hsend] at hsome
    obtain ⟨hvalid, hconnected, -, hshort⟩ := hsome.1 rfl
    rw [Option.bind_some, dif_pos (carries_of_fits hcs hsend m.2).batch]
    exact iff_of_true rfl ⟨hvalid, hconnected, hshort⟩

/-! ## The invariant -/

/-- what the sender has let go -/
def stream (s : St Other) : Bytes := s.sender.written.flatten.take s.taken

structure Inv (s : St Other) : Prop where
  sender : SendQueue.Inv s.sender
  /-- each frame that was queued holds what was sent -/
  valid : ∀ f ∈ s.sender.pushed, Valid cs f.1
  sent : s.sender.pushed.map (fun f => message cs f.1) = s.sent
  short : ∀ m ∈ s.sent, m.data.length < maxMessageLen
  taken : s.taken ≤ s.sender.written.flatten.length
  receiver : Follows cs s.receiver (stream s)
  handed : s.handed ≤ s.receiver.pushed.length
  queue : DoubleQueue.Inv MessageQueue.body s.queue
  /-- this session's share of the queue -/
  own : own s.queue.pushed = s.receiver.pushed.take s.handed
  alive : ∀ p ∈ s.queue.begun, ∃ e, p.2 = sessions e
  /-- nobody has stopped the consumer -/
  stopped : s.queue.stopped = false

variable {cs}

theorem stream_within {s : St Other} (hs : Inv cs s) :
    stream s <+: (s.sender.pushed.map Subtype.val).flatten ++ [] := by
  have hwritten : s.sender.written.flatten <+: SendQueue.bytes s.sender.pushed :=
    ⟨SendQueue.bytes s.sender.queue, hs.sender.order⟩
  rw [List.append_nil]
  exact (List.take_prefix _ _).trans hwritten

/-- whole messages have been put together, and there are some bytes of the next -/
theorem put_together {s : St Other} (hs : Inv cs s) : ∃ k tail, k ≤ s.sent.length ∧
    stream s = ((s.sender.pushed.map Subtype.val).take k).flatten ++ tail ∧ s.receiver.pushed = s.sent.take k ∧
      s.receiver.Waits tail ∧ (k = s.sent.length → tail = []) := by
  have hlength : s.sent.length = (s.sender.pushed.map Subtype.val).length := by
    rw [← hs.sent, List.length_map, List.length_map]
  have hvalid : ∀ f ∈ s.sender.pushed.map Subtype.val, Valid cs f := by
    intro f hf
    obtain ⟨g, hg, rfl⟩ := List.mem_map.1 hf
    exact hs.valid g hg
  obtain ⟨k, tail, hk, hstream, hnext, hlast⟩ := prefix_frames (stream_within hs)
  have hlast' : k = (s.sender.pushed.map Subtype.val).length → tail = [] := fun hall => List.prefix_nil.1 (hlast hall)
  have hun : Unfinished tail := by
    rcases hk.lt_or_eq with hlt | hall
    · obtain ⟨hfront, hshort⟩ := hnext _ (List.getElem?_eq_getElem hlt)
      exact unfinished_of_front cs (hvalid _ (List.getElem_mem hlt)) hfront hshort
    · rw [hlast' hall]
      exact Or.inl (by decide)
  have htake : ∀ f ∈ (s.sender.pushed.map Subtype.val).take k, Valid cs f := fun f hf =>
    hvalid f (List.mem_of_mem_take hf)
  have hscan := scan_frames cs htake tail
  rw [← hstream, scan_unfinished cs hun, List.append_nil] at hscan
  have hpushed := hs.receiver.pushed
  have hended := hs.receiver.ended
  rw [hscan] at hpushed hended
  refine ⟨k, tail, hlength ▸ hk, hstream, hpushed.trans ?_, hended, fun hall => hlast' (hall.trans hlength)⟩
  rw [← hs.sent, ← List.map_take, ← List.map_take, List.map_map]
  rfl

/-- the receiver waits for more -/
theorem reading {s : St Other} (hs : Inv cs s) : s.receiver.reading = true := by
  obtain ⟨k, tail, -, -, -, hwaits, -⟩ := put_together hs
  exact hwaits.reading

/-! ## The steps -/

theorem written_flatten (s : SendQueue.St) (op : SendQueue.Op) :
    s.written.flatten <+: (SendQueue.step s op).written.flatten := by
  obtain ⟨more, hmore⟩ := SendQueue.written_step s op
  rw [← hmore, List.flatten_append]
  exact List.prefix_append _ _

/-- a step of the sender leaves what has been read -/
theorem stream_sender {s : St Other} (hs : s.taken ≤ s.sender.written.flatten.length) (op : SendQueue.Op) :
    stream { s with sender := SendQueue.step s.sender op } = stream s := by
  obtain ⟨more, hmore⟩ := written_flatten s.sender op
  rw [stream, stream, ← hmore]
  exact List.take_append_of_le_length hs

theorem inv_sender {s : St Other} (hs : Inv cs s) {op : SendQueue.Op} (hquiet : op.Quiet) :
    Inv cs { s with sender := SendQueue.step s.sender op } := by
  have hpushed := SendQueue.pushed_quiet s.sender hquiet
  refine ⟨SendQueue.inv_step s.sender op hs.sender, ?_, ?_, hs.short, ?_, ?_, hs.handed, hs.queue, hs.own,
    hs.alive, hs.stopped⟩
  · rw [hpushed]
    exact hs.valid
  · rw [hpushed]
    exact hs.sent
  · exact hs.taken.trans (written_flatten s.sender op).length_le
  · rw [stream_sender hs.taken]
    exact hs.receiver

variable {cfg}

theorem inv_send (hcs : ∀ c, cs = some c → c.Inverts) {s : St Other} (hs : Inv cs s) (m : Payload cs cfg) :
    Inv cs (send cs cfg s m) := by
  rw [send]
  split
  · rename_i f hframe
    obtain ⟨hvalid, hmessage, hshort⟩ := frame_spec hcs hframe
    have hpushed := SendQueue.pushed_send hs.sender f
    refine ⟨SendQueue.inv_step s.sender (.send f) hs.sender, ?_, ?_, ?_, ?_, ?_, hs.handed, hs.queue, hs.own,
      hs.alive, hs.stopped⟩
    · rw [hpushed]
      intro g hg
      rcases List.mem_append.1 hg with hg | hg
      · exact hs.valid g hg
      · rw [List.mem_singleton.1 hg]
        exact hvalid
    · rw [hpushed, List.map_append, hs.sent, List.map_singleton, hmessage]
    · intro x hx
      rcases List.mem_append.1 hx with hx | hx
      · exact hs.short x hx
      · rw [List.mem_singleton.1 hx]
        exact hshort
    · exact hs.taken.trans (written_flatten s.sender _).length_le
    · have hstream := stream_sender hs.taken (.send f)
      exact hstream.symm ▸ hs.receiver
  · exact hs

theorem length_wire (s : St Other) : (wire s).length = s.sender.written.flatten.length - s.taken := List.length_drop

/-- what is read next -/
theorem stream_read (s : St Other) (n : ℕ) :
    s.sender.written.flatten.take (s.taken + ((wire s).take n).length) = stream s ++ (wire s).take n := by
  have hfront : (wire s).take n = (wire s).take ((wire s).take n).length :=
    List.prefix_iff_eq_take.1 (List.take_prefix n (wire s))
  rw [List.take_add, stream]
  exact congrArg _ hfront.symm

/-- more bytes, more messages -/
theorem scan_prefix (a b : Bytes) : (scan cs a).1 <+: (scan cs (a ++ b)).1 := by
  rw [scan_append, resume]
  split
  · exact List.prefix_append _ _
  · exact List.prefix_refl _
  · exact List.prefix_refl _

theorem inv_read {s : St Other} (hs : Inv cs s) (n : ℕ) : Inv cs (read cs s n) := by
  rw [read]
  split_ifs with hread
  · have hle : ((wire s).take (min n maxMessageLen)).length ≤ maxMessageLen :=
      (List.length_take_le _ _).trans (min_le_right _ _)
    have hfollows := follows_readSome hs.receiver hle
    have hpushed : s.receiver.pushed <+: (readSome cs s.receiver ((wire s).take (min n maxMessageLen))).pushed := by
      rw [hs.receiver.pushed, hfollows.pushed]
      exact scan_prefix _ _
    rw [← stream_read] at hfollows
    refine ⟨hs.sender, hs.valid, hs.sent, hs.short, ?_, hfollows, hs.handed.trans hpushed.length_le, hs.queue, ?_,
      hs.alive, hs.stopped⟩
    · have hwire := (List.take_prefix (min n maxMessageLen) (wire s)).length_le
      have htaken := hs.taken
      rw [length_wire] at hwire
      dsimp only
      omega
    · obtain ⟨more, hmore⟩ := hpushed
      dsimp only
      rw [hs.own, ← hmore, List.take_append_of_le_length hs.handed]
  · exact hs

theorem own_append (a b : List (Received Other)) : own (a ++ b) = own a ++ own b := List.filterMap_append

/-- what a push of a session leaves of the queue -/
theorem push_same (q : MessageQueue.St (Option Other) Message) (m : Received Other) :
    (MessageQueue.step q (.pushMessage m)).pushed = q.pushed ++ [m] ∧
      (MessageQueue.step q (.pushMessage m)).begun = q.begun ∧ (MessageQueue.step q (.pushMessage m)).calls = q.calls :=
  ⟨rfl, rfl, rfl⟩

theorem inv_queue {q : MessageQueue.St (Option Other) Message} (hq : DoubleQueue.Inv MessageQueue.body q)
    (op : MessageQueue.Op (Option Other) Message) : DoubleQueue.Inv MessageQueue.body (MessageQueue.step q op) := by
  rw [MessageQueue.step_toOp]
  exact DoubleQueue.inv_step q op.toOp hq

theorem inv_pushMessage {s : St Other} (hs : Inv cs s) : Inv cs (pushMessage s) := by
  rw [pushMessage]
  split
  · rename_i m hm
    obtain ⟨hlt, rfl⟩ := List.getElem?_eq_some_iff.1 hm
    have hqueue := inv_queue hs.queue (.pushMessage ⟨none, s.receiver.pushed[s.handed]⟩)
    refine ⟨hs.sender, hs.valid, hs.sent, hs.short, hs.taken, hs.receiver, hlt, hqueue, ?_, hs.alive, hs.stopped⟩
    dsimp only
    rw [(push_same _ _).1, own_append, hs.own, List.take_add_one, List.getElem?_eq_getElem hlt]
    rfl
  · exact hs

theorem inv_other {s : St Other} (hs : Inv cs s) (x : Other) (m : Message) :
    Inv cs { s with queue := MessageQueue.step s.queue (.pushMessage ⟨some x, m⟩) } := by
  have hqueue := inv_queue hs.queue (.pushMessage ⟨some x, m⟩)
  refine ⟨hs.sender, hs.valid, hs.sent, hs.short, hs.taken, hs.receiver, hs.handed, hqueue, ?_, hs.alive, hs.stopped⟩
  dsimp only
  rw [(push_same _ _).1, own_append, hs.own]
  exact List.append_nil _

/-- the consumer pushes nothing, and finds the sessions as they are -/
theorem consume_same (q : MessageQueue.St (Option Other) Message) (e : MessageQueue.Sessions (Option Other)) :
    (MessageQueue.step q (.realRun e)).pushed = q.pushed ∧ (MessageQueue.step q (.realRun e)).stopped = q.stopped ∧
      ∀ p ∈ (MessageQueue.step q (.realRun e)).begun, p ∈ q.begun ∨ p.2 = e := by
  rw [MessageQueue.step, DoubleQueue.consume]
  cases q.phase with
  | idle =>
    dsimp only
    split_ifs <;> exact ⟨rfl, rfl, fun p hp => Or.inl hp⟩
  | draining proc =>
    dsimp only
    split
    · exact ⟨rfl, rfl, fun p hp => Or.inl hp⟩
    · refine ⟨rfl, rfl, fun p hp => ?_⟩
      rcases List.mem_append.1 hp with hp | hp
      · exact Or.inl hp
      · exact Or.inr (by rw [List.mem_singleton.1 hp])
  | running proc todo => cases todo <;> exact ⟨rfl, rfl, fun p hp => Or.inl hp⟩

theorem inv_realRun {s : St Other} (hs : Inv cs s) (e : MessageQueue.Sessions Other) :
    Inv cs { s with queue := MessageQueue.step s.queue (.realRun (sessions e)) } := by
  obtain ⟨hpushed, hstopped, hbegun⟩ := consume_same s.queue (sessions e)
  have hqueue := inv_queue hs.queue (.realRun (sessions e))
  refine ⟨hs.sender, hs.valid, hs.sent, hs.short, hs.taken, hs.receiver, hs.handed, hqueue, ?_, ?_, ?_⟩
  · dsimp only
    rw [hpushed]
    exact hs.own
  · intro p hp
    exact (hbegun p hp).elim (hs.alive p) fun h => ⟨e, h⟩
  · exact hstopped.trans hs.stopped

/-- **Step.** -/
theorem inv_step (hcs : ∀ c, cs = some c → c.Inverts) (s : St Other) (op : Op cs cfg Other) (hs : Inv cs s) :
    Inv cs (step cs cfg s op) := by
  cases op with
  | send m => exact inv_send hcs hs m
  | sender op => exact inv_sender hs op.2
  | read n => exact inv_read hs n
  | pushMessage => exact inv_pushMessage hs
  | other x m => exact inv_other hs x m
  | realRun e => exact inv_realRun hs e

/-! ## The channel -/

/-- a message of this session is handed on, whoever else is there -/
theorem own_body {begun : List (Received Other × MessageQueue.Sessions (Option Other))}
    (halive : ∀ p ∈ begun, ∃ e, p.2 = sessions e) :
    own (begun.flatMap fun p => MessageQueue.body p.1 p.2) = own (begun.map Prod.fst) := by
  induction begun with
  | nil => rfl
  | cons p begun ih =>
    obtain ⟨e, he⟩ := halive p List.mem_cons_self
    have hone : own (MessageQueue.body p.1 p.2) = own [p.1] := by
      rw [MessageQueue.body, he]
      cases hsender : p.1.sender with
      | none => rfl
      | some x =>
        have hnone : own [p.1] = [] := by simp [own, hsender]
        split_ifs
        · rfl
        · exact hnone.symm
    rw [List.flatMap_cons, List.map_cons, own_append, hone, ih fun q hq => halive q (List.mem_cons_of_mem p hq),
      ← own_append]
    rfl

theorem own_prefix {a b : List (Received Other)} (h : a <+: b) : own a <+: own b := h.filterMap _

/-- what was handed on was received, and what was received was sent -/
theorem ok_of_inv {s : St Other} (hs : Inv cs s) : Fifo.Ok (view s) := by
  obtain ⟨k, tail, -, -, hpushed, -⟩ := put_together hs
  calc
    own s.queue.calls <+: own (s.queue.calls ++ s.queue.todo) := own_prefix (List.prefix_append _ _)
    _ = own (s.queue.begun.map Prod.fst) := by rw [hs.queue.calls, own_body hs.alive]
    _ <+: own s.queue.pushed := own_prefix (DoubleQueue.begun_prefix hs.queue)
    _ = (s.sent.take k).take s.handed := by rw [hs.own, hpushed]
    _ <+: s.sent.take k := List.take_prefix _ _
    _ <+: s.sent := List.take_prefix _ _

theorem calls_consume (q : MessageQueue.St (Option Other) Message) (e : MessageQueue.Sessions (Option Other)) :
    (MessageQueue.step q (.realRun e)).calls = q.calls ∨
      ∃ m, (MessageQueue.step q (.realRun e)).calls = q.calls ++ [m] := by
  rw [MessageQueue.step, DoubleQueue.consume]
  cases q.phase with
  | idle =>
    dsimp only
    split_ifs <;> exact Or.inl rfl
  | draining proc =>
    dsimp only
    split <;> exact Or.inl rfl
  | running proc todo =>
    cases todo with
    | nil => exact Or.inl rfl
    | cons m todo => exact Or.inr ⟨m, rfl⟩

theorem view_send (s : St Other) (m : Payload cs cfg) : Fifo.Step (view s) (view (send cs cfg s m)) := by
  rw [send]
  split
  · exact .send (view s) m.1
  · exact .stay (view s)

theorem view_realRun {s : St Other} {e : MessageQueue.Sessions Other}
    (hs : Inv cs { s with queue := MessageQueue.step s.queue (.realRun (sessions e)) }) :
    Fifo.Step (view s) (view { s with queue := MessageQueue.step s.queue (.realRun (sessions e)) }) := by
  have hok := ok_of_inv hs
  rw [Fifo.Ok, view, delivered] at hok
  rw [view, view, delivered, delivered]
  dsimp only at hok ⊢
  rcases calls_consume s.queue (sessions e) with hsame | ⟨m, hone⟩
  · rw [hsame]
    exact .stay _
  · rw [hone, own_append] at hok ⊢
    cases hsender : m.sender with
    | none =>
      have hown : own [m] = [m.data] := by simp [own, hsender]
      rw [hown] at hok ⊢
      exact .deliver ⟨s.sent, own s.queue.calls⟩ m.data hok
    | some x =>
      have hown : own [m] = [] := by simp [own, hsender]
      rw [hown, List.append_nil]
      exact .stay _

theorem refines (hcs : ∀ c, cs = some c → c.Inverts) :
    Fifo.Refines (S := St Other) (step cs cfg) (Inv cs) view where
  inv := inv_step hcs
  step s op hs := by
    have hinv := inv_step hcs s op hs
    cases op with
    | send m => exact view_send s m
    | sender op => exact .stay (view s)
    | read n =>
      rw [step, read]
      split_ifs
      · exact .stay (view s)
      · exact .stay (view s)
    | pushMessage =>
      rw [step, pushMessage]
      split <;> exact .stay (view s)
    | other x m => exact .stay (view s)
    | realRun e => exact view_realRun hinv

/-! ## Everything arrives -/

/-- nothing new is sent, by this session or another -/
def Op.Quiet : Op cs cfg Other → Prop
  | .send _ => False
  | .other _ _ => False
  | _ => True

variable (cs cfg) in
/-- some quiet steps lead from one state to the other -/
def Leads (s t : St Other) : Prop :=
  ∃ ops : List (Op cs cfg Other), (∀ op ∈ ops, op.Quiet) ∧ run (step cs cfg) s ops = t

theorem Leads.refl (s : St Other) : Leads cs cfg s s := ⟨[], by simp, rfl⟩

theorem Leads.one (s : St Other) (op : Op cs cfg Other) (hquiet : op.Quiet) :
    Leads cs cfg s (step cs cfg s op) := ⟨[op], by simpa using hquiet, rfl⟩

theorem Leads.trans {s t u : St Other} (h : Leads cs cfg s t) (h' : Leads cs cfg t u) :
    Leads cs cfg s u := by
  obtain ⟨a, ha, rfl⟩ := h
  obtain ⟨b, hb, rfl⟩ := h'
  exact ⟨a ++ b, fun op hop => (List.mem_append.1 hop).elim (ha op) (hb op), run_append _ _ _ _⟩

theorem Leads.inv (hcs : ∀ c, cs = some c → c.Inverts) {s t : St Other} (h : Leads cs cfg s t) (hs : Inv cs s) :
    Inv cs t := by
  obtain ⟨ops, -, rfl⟩ := h
  exact inv_run_all (inv_step hcs) ops hs

/-- the sender on its own -/
theorem leads_sender (s : St Other) {ops : List SendQueue.Op} (hquiet : ∀ op ∈ ops, op.Quiet) :
    Leads cs cfg s { s with sender := run SendQueue.step s.sender ops } := by
  induction ops generalizing s with
  | nil => exact Leads.refl s
  | cons op ops ih =>
    have hone := Leads.one s (.sender ⟨op, hquiet op List.mem_cons_self⟩ : Op cs cfg Other) trivial
    exact hone.trans (ih _ fun o ho => hquiet o (List.mem_cons_of_mem op ho))

variable (cfg) in
/-- the bytes in the socket are read -/
theorem leads_read {s : St Other} (hs : Inv cs s) :
    ∃ t, Leads cs cfg s t ∧ t.sender = s.sender ∧ t.sent = s.sent ∧ wire t = [] := by
  induction hn : (wire s).length using Nat.strong_induction_on generalizing s with
  | _ n ih =>
    subst hn
    by_cases hempty : wire s = []
    · exact ⟨s, Leads.refl s, rfl, rfl, hempty⟩
    · have hpos : 0 < ((wire s).take (min maxMessageLen maxMessageLen)).length := by
        have hlength := List.length_pos_of_ne_nil hempty
        rw [min_self, List.length_take, maxMessageLen]
        omega
      have hread : read cs s maxMessageLen =
          { s with
            receiver := readSome cs s.receiver ((wire s).take (min maxMessageLen maxMessageLen))
            taken := s.taken + ((wire s).take (min maxMessageLen maxMessageLen)).length } :=
        if_pos ⟨reading hs, List.ne_nil_of_length_pos hpos⟩
      have hone := Leads.one s (.read maxMessageLen : Op cs cfg Other) trivial
      have hless : (wire (read cs s maxMessageLen)).length < (wire s).length := by
        have hlength := List.length_pos_of_ne_nil hempty
        rw [length_wire] at hlength
        rw [length_wire, length_wire, hread]
        dsimp only
        omega
      obtain ⟨t, hleads, hsender, hsent, hwire⟩ := ih _ hless (inv_read hs maxMessageLen) rfl
      refine ⟨t, hone.trans hleads, hsender.trans ?_, hsent.trans ?_, hwire⟩ <;> rw [hread]

variable (cs cfg) in
/-- what has been put together is pushed -/
theorem leads_push {s : St Other} (hs : s.handed ≤ s.receiver.pushed.length) :
    ∃ t, Leads cs cfg s t ∧ t.sent = s.sent ∧ t.receiver = s.receiver ∧
      t.handed = s.receiver.pushed.length := by
  induction hn : s.receiver.pushed.length - s.handed generalizing s with
  | zero => exact ⟨s, Leads.refl s, rfl, rfl, by omega⟩
  | succ n ih =>
    have hlt : s.handed < s.receiver.pushed.length := by omega
    have hone := Leads.one s (.pushMessage : Op cs cfg Other) trivial
    have hpush : pushMessage s = { s with
        handed := s.handed + 1
        queue := MessageQueue.step s.queue (.pushMessage ⟨none, s.receiver.pushed[s.handed]⟩) } := by
      rw [pushMessage, List.getElem?_eq_getElem hlt]
    rw [step, hpush] at hone
    obtain ⟨t, hleads, hsent, hreceiver, hhanded⟩ := ih (s := { s with
      handed := s.handed + 1
      queue := MessageQueue.step s.queue (.pushMessage ⟨none, s.receiver.pushed[s.handed]⟩) }) hlt
        (by dsimp only; omega)
    exact ⟨t, hone.trans hleads, hsent, hreceiver, hhanded⟩

/-- the consumer on its own -/
theorem leads_realRun (s : St Other) (e : MessageQueue.Sessions Other) (n : ℕ) :
    Leads cs cfg s { s with
      queue := run (DoubleQueue.step MessageQueue.body) s.queue (List.replicate n (.consume (sessions e))) } := by
  induction n generalizing s with
  | zero => exact Leads.refl s
  | succ n ih =>
    have hone := Leads.one s (.realRun e : Op cs cfg Other) trivial
    exact hone.trans (ih _)

variable (cfg) in
/-- the queue is emptied -/
theorem leads_empty (e : MessageQueue.Sessions Other) {s : St Other} (hs : Inv cs s) : ∃ t, Leads cs cfg s t ∧
    t.sent = s.sent ∧ t.receiver = s.receiver ∧ t.handed = s.handed ∧ t.queue.phase = .idle ∧
    ∀ i, t.queue.queue i = [] := by
  obtain ⟨n, hidle, hempty⟩ := DoubleQueue.empties hs.queue hs.stopped (sessions e)
  exact ⟨_, leads_realRun s e n, rfl, rfl, rfl, hidle, hempty⟩

/-- all frames have been read -/
theorem pushed_of_stream {s : St Other} (hs : Inv cs s) (hall : stream s = SendQueue.bytes s.sender.pushed) :
    s.receiver.pushed = s.sent := by
  have hvalid : ∀ f ∈ s.sender.pushed.map Subtype.val, Valid cs f := by
    intro f hf
    obtain ⟨g, hg, rfl⟩ := List.mem_map.1 hf
    exact hs.valid g hg
  have hscan := scan_frames cs hvalid []
  have hnil : Unfinished [] := Or.inl (by decide)
  rw [List.append_nil, scan_unfinished cs hnil, List.append_nil] at hscan
  have hpushed := hs.receiver.pushed
  rw [hall, SendQueue.bytes, hscan] at hpushed
  rw [hpushed, ← hs.sent, List.map_map]
  rfl

/-- the queue is empty, and the consumer is through -/
theorem calls_of_empty {s : St Other} (hs : Inv cs s) (hidle : s.queue.phase = .idle)
    (hempty : ∀ i, s.queue.queue i = [])
    (hhanded : s.handed = s.receiver.pushed.length) : delivered s = s.receiver.pushed := by
  have hitem : s.queue.item = none := by rw [DoubleQueue.item, hidle]
  have htodo : s.queue.todo = [] := by rw [DoubleQueue.todo, hidle]
  have horder := hs.queue.order
  have hbegun := hs.queue.begun
  have hcalls := hs.queue.calls
  rw [hempty, hempty, List.append_nil, List.append_nil] at horder
  rw [hitem, Option.toList_none, List.append_nil, horder] at hbegun
  rw [htodo, List.append_nil] at hcalls
  rw [delivered, hcalls, own_body hs.alive, hbegun, hs.own, hhanded, List.take_length]

variable (cfg) in
/-- everything arrives -/
theorem leads_delivered (hcs : ∀ c, cs = some c → c.Inverts) {s : St Other} (hs : Inv cs s) :
    ∃ t, Leads cs cfg s t ∧ t.sent = s.sent ∧ delivered t = s.sent := by
  -- the sender, the socket, the handler, the consumer
  obtain ⟨ops, hquiet, hwritten⟩ := SendQueue.drains hs.sender
  have hfirst : Leads cs cfg s { s with sender := run SendQueue.step s.sender ops } := leads_sender s hquiet
  obtain ⟨t2, hread, hsender, hsent2, hwire⟩ := leads_read cfg (hfirst.inv hcs hs)
  have hsecond := hfirst.trans hread
  have hinv2 := hsecond.inv hcs hs
  obtain ⟨t3, hpush, hsent3, hreceiver3, hhanded3⟩ := leads_push cs cfg hinv2.handed
  have hthird := hsecond.trans hpush
  obtain ⟨t4, hrun, hsent4, hreceiver4, hhanded4, hidle, hempty⟩ :=
    leads_empty cfg ⟨fun _ => true, fun _ => true⟩ (hthird.inv hcs hs)
  have hfourth := hthird.trans hrun
  have hstream : stream t2 = SendQueue.bytes t2.sender.pushed := by
    have hall : t2.sender.written.flatten.length ≤ t2.taken := List.drop_eq_nil_iff.1 hwire
    rw [stream, List.take_of_length_le hall, hsender, hwritten]
    exact congrArg _ (SendQueue.run_quiet s.sender hquiet).symm
  have hpushed := pushed_of_stream hinv2 hstream
  have hdelivered :=
    calls_of_empty (hfourth.inv hcs hs) hidle hempty (by rw [hhanded4, hhanded3, hreceiver4, hreceiver3])
  refine ⟨t4, hfourth, ?_, ?_⟩
  · rw [hsent4, hsent3, hsent2]
  · rw [hdelivered, hreceiver4, hreceiver3, hpushed, hsent2]

/-! ## Every interleaving -/

/-- two sessions that have just connected -/
def start (sendingData : Buffer maxMessageLen) (father : Bool) (recvBuffer : Buffer (2 * maxMessageLen)) :
    St Other where
  sender := SendQueue.start sendingData
  receiver := Wire.start father recvBuffer

theorem inv_start (sendingData : Buffer maxMessageLen) (father : Bool) (recvBuffer : Buffer (2 * maxMessageLen)) :
    Inv cs (start sendingData father recvBuffer : St Other) where
  sender := SendQueue.inv_start sendingData
  valid := fun _ h => absurd h List.not_mem_nil
  sent := rfl
  short := fun _ h => absurd h List.not_mem_nil
  taken := Nat.zero_le _
  receiver := follows_start cs father recvBuffer
  handed := Nat.zero_le _
  queue := DoubleQueue.inv_start
  own := rfl
  alive := fun _ h => absurd h List.not_mem_nil
  stopped := rfl

/-- neither side gives the connection up -/
structure Clean (s : St Other) : Prop where
  reading : s.receiver.reading = true
  bans : s.receiver.bans = []
  closing : s.receiver.closing = false
  overrun : s.receiver.overrun = false ∧ s.sender.overrun = false

theorem clean_of_inv {s : St Other} (hs : Inv cs s) : Clean s := by
  obtain ⟨k, tail, -, -, -, hwaits, -⟩ := put_together hs
  exact ⟨hwaits.reading, hwaits.bans, hwaits.closing, hs.receiver.overrun, hs.sender.overrun⟩

/-- the payload that an operation sends -/
def Op.payloads : Op cs cfg Other → List Message
  | .send m => if Accepted cs cfg m then [m.1] else []
  | _ => []

theorem sent_step (hcs : ∀ c, cs = some c → c.Inverts) (s : St Other) (op : Op cs cfg Other) (_ : Inv cs s) :
    (step cs cfg s op).sent = s.sent ++ op.payloads := by
  cases op with
  | send m =>
    have hframe := frame_isSome_iff hcs m
    rw [step, send, Op.payloads]
    cases hf : frame cs cfg m with
    | some f =>
      rw [hf] at hframe
      rw [if_pos (hframe.1 rfl)]
    | none =>
      rw [hf] at hframe
      rw [if_neg fun h => Bool.false_ne_true (hframe.2 h)]
      exact (List.append_nil _).symm
  | sender op => exact (List.append_nil _).symm
  | read n =>
    rw [step, read]
    split_ifs <;> exact (List.append_nil _).symm
  | pushMessage =>
    rw [step, pushMessage]
    split <;> exact (List.append_nil _).symm
  | other x m => exact (List.append_nil _).symm
  | realRun e => exact (List.append_nil _).symm

/-- what was sent is what `send_message` was given, and took -/
theorem sent_run (hcs : ∀ c, cs = some c → c.Inverts) (sendingData : Buffer maxMessageLen) (father : Bool)
    (recvBuffer : Buffer (2 * maxMessageLen)) (ops : List (Op cs cfg Other)) :
    (run (step cs cfg) (start sendingData father recvBuffer) ops).sent = ops.flatMap Op.payloads :=
  log_run (inv_step hcs) (sent_step hcs) ops (inv_start sendingData father recvBuffer)

/-- **The channel.** Whatever the interleaving, what `proc_message` was given is what `send_message` was given first, in
order; each step sends a message, hands the next one on, or does neither. -/
theorem channel_refines (hcs : ∀ c, cs = some c → c.Inverts) (sendingData : Buffer maxMessageLen) (father : Bool)
    (recvBuffer : Buffer (2 * maxMessageLen)) (ops : List (Op cs cfg Other)) :
    let s := run (step cs cfg) (start sendingData father recvBuffer) ops
    s.sent = ops.flatMap Op.payloads ∧ Fifo.Ok (view s) ∧ Clean s ∧
      ∀ op, Fifo.Step (view s) (view (step cs cfg s op)) := by
  have hstart : Inv cs (start sendingData father recvBuffer : St Other) := inv_start sendingData father recvBuffer
  have hinv := inv_run_all (inv_step hcs) ops hstart
  have hok := Fifo.prefix_run (refines hcs) ops hstart (ok_of_inv hstart)
  exact ⟨sent_run hcs sendingData father recvBuffer ops, hok, clean_of_inv hinv,
    fun op => (refines hcs).step _ op hinv⟩

/-- a payload of two bytes -/
def ab : Payload none {} :=
  ⟨⟨[65, 66], false⟩, fun buff h => absurd h (not_shortened buff), fun _ => ⟨by decide, by decide⟩⟩

/-- buffers that hold zeros -/
def zeroBuffer (n : ℕ) : Buffer n := ⟨List.replicate n 0, List.length_replicate⟩

theorem no_strategy : ∀ c, (none : Option CompressStrategy) = some c → c.Inverts := fun _ h => nomatch h

/-- sent, posted, written, read and pushed, and the consumer has not come by: it is the message that was sent, if any -/
theorem channel_refines_ab : delivered (run (step none {})
    (start (zeroBuffer maxMessageLen) true (zeroBuffer (2 * maxMessageLen)) : St Unit)
      [.send ab, .sender ⟨.post, trivial⟩, .sender ⟨.write, trivial⟩, .read 7, .read 5, .pushMessage]) <+:
        [⟨[65, 66], false⟩] := by
  obtain ⟨hsent, hok, -⟩ := channel_refines no_strategy (zeroBuffer maxMessageLen) true (zeroBuffer (2 * maxMessageLen))
    ([.send ab, .sender ⟨.post, trivial⟩, .sender ⟨.write, trivial⟩, .read 7, .read 5, .pushMessage] :
      List (Op none {} Unit))
  rw [Fifo.Ok, view] at hok
  dsimp only at hok
  rw [hsent] at hok
  exact hok

/-- **Nothing is stuck.** From every state, steps that send nothing new hand on everything that `send_message` was
given. -/
theorem channel_drains (hcs : ∀ c, cs = some c → c.Inverts) (sendingData : Buffer maxMessageLen) (father : Bool)
    (recvBuffer : Buffer (2 * maxMessageLen)) (ops : List (Op cs cfg Other)) :
    ∃ more : List (Op cs cfg Other), (∀ op ∈ more, op.Quiet) ∧
      delivered (run (step cs cfg) (start sendingData father recvBuffer) (ops ++ more)) = ops.flatMap Op.payloads := by
  have hinv := inv_run_all (inv_step hcs) ops (inv_start sendingData father recvBuffer)
  obtain ⟨t, ⟨more, hquiet, rfl⟩, -, hdelivered⟩ := leads_delivered cfg hcs hinv
  refine ⟨more, hquiet, ?_⟩
  rw [run_append, hdelivered, sent_run hcs]

theorem channel_drains_ab : ∃ more : List (Op none {} Unit), (∀ op ∈ more, op.Quiet) ∧
    delivered (run (step none {}) (start (zeroBuffer maxMessageLen) true (zeroBuffer (2 * maxMessageLen)))
      ([.send ab] ++ more)) = [⟨[65, 66], false⟩] := by
  obtain ⟨more, hquiet, hdelivered⟩ := channel_drains no_strategy (zeroBuffer maxMessageLen) true
    (zeroBuffer (2 * maxMessageLen)) ([.send ab] : List (Op none {} Unit))
  exact ⟨more, hquiet, hdelivered⟩

/-! ## Objects -/

open Envelope

/-- pushing the object, with the flag, gives this payload to `send_message` -/
def Speaks {M : Type*} (proto : Protobuf M) (m : Message) (x : M × UInt32) : Prop :=
  ∃ length encodeLength, pushProtocMessage proto length encodeLength x.1 x.2 m.base64 = .sent m.data

/-- what goes into a frame goes into the buffers -/
theorem parse_of_sent {M : Type*} {proto : Protobuf M} (hproto : proto.Inverse)
    {length encodeLength flag : UInt32} {x : M}
    {base64 : Bool} {data : Bytes} (hpush : pushProtocMessage proto length encodeLength x flag base64 = .sent data)
    (hshort : data.length < maxMessageLen) (temp1 : Base64.Temp) (recvLength : UInt32) :
    parseProtocmessage proto temp1 recvLength data base64 = .called x flag := by
  have hreturned : (pushProtocMessage proto length encodeLength x flag base64).Returned := by
    rw [hpush]
    trivial
  obtain ⟨hroom, hfinally⟩ := push_of_returned proto hreturned
  have hlt : (sendLength proto length x).toNat < 2 ^ 32 := (sendLength proto length x).toNat_lt
  have hlength := length_envelope proto x flag
  have hdata := ((finallyBuff_eq_sent_iff _ _ _ _ _).1 (hfinally.symm.trans hpush)).2
  have hreceived : received temp1 data base64 = envelope proto x flag := by
    rw [hdata]
    cases base64 with
    | false => rfl
    | true => exact Base64.base64Decode_encode temp1 _
  have hne : data.length ≠ 0 := by
    intro hzero
    rw [List.length_eq_zero_iff.1 hzero] at hreceived
    have hnil : received temp1 [] base64 = [] := by cases base64 <;> rfl
    rw [← hreceived, hnil, List.length_nil] at hlength
    omega
  have hfits : RecvFits recvLength data base64 := by
    have hlong : data.length + 1 < 28633116 := by
      rw [maxMessageLen] at hshort
      omega
    have hroom := le_bufferLength_succ recvLength hlong
    rw [RecvFits, writtenLen]
    split_ifs <;> omega
  rw [parseProtocmessage, if_neg hne, if_pos hfits, hreceived]
  exact parsePacket_envelope hproto (by omega) flag

/-- **Objects.** The handler is called with the objects that were sent, in order, whatever the buffers of the threads
that handle them. -/
theorem objects_handled {M : Type*} {proto : Protobuf M} (hproto : proto.Inverse) (hcs : ∀ c, cs = some c → c.Inverts)
    (sendingData : Buffer maxMessageLen) (father : Bool) (recvBuffer : Buffer (2 * maxMessageLen))
    (ops : List (Op cs cfg Other)) {objects : List (M × UInt32)}
    (hobjects : List.Forall₂ (Speaks proto) (ops.flatMap Op.payloads) objects)
    {i : ℕ} {m : Message}
    (hm : (delivered (run (step cs cfg) (start sendingData father recvBuffer) ops))[i]? = some m) :
    ∃ x, objects[i]? = some x ∧
      ∀ temp1 recvLength, parseProtocmessage proto temp1 recvLength m.data m.base64 = .called x.1 x.2 := by
  have hstart : Inv cs (start sendingData father recvBuffer : St Other) := inv_start sendingData father recvBuffer
  have hinv := inv_run_all (inv_step hcs) ops hstart
  rw [← sent_run hcs sendingData father recvBuffer ops] at hobjects
  have hsent : (run (step cs cfg) (start sendingData father recvBuffer) ops).sent[i]? = some m := by
    obtain ⟨hi, rfl⟩ := List.getElem?_eq_some_iff.1 hm
    exact List.prefix_iff_getElem?.1 (ok_of_inv hinv) i hi
  obtain ⟨hi, rfl⟩ := List.getElem?_eq_some_iff.1 hsent
  have hi' : i < objects.length := hobjects.length_eq ▸ hi
  obtain ⟨length, encodeLength, hpush⟩ := hobjects.get hi hi'
  refine ⟨objects[i], List.getElem?_eq_getElem hi', fun temp1 recvLength => ?_⟩
  exact parse_of_sent hproto hpush (hinv.short _ (List.getElem_mem hi)) temp1 recvLength

/-- the payload of an object -/
def spoken : Payload none {} :=
  ⟨⟨envelope shortMessage () 7, false⟩, fun buff h => absurd h (not_shortened buff), fun _ => ⟨by decide, by decide⟩⟩

theorem speaks_spoken : List.Forall₂ (Speaks shortMessage) [spoken.1] [((), 7)] :=
  .cons ⟨0, 0, by decide⟩ .nil

theorem objects_handled_spoken : ∃ ops : List (Op none {} Unit), ∃ m,
    (delivered (run (step none {}) (start (zeroBuffer maxMessageLen) true (zeroBuffer (2 * maxMessageLen))) ops))[0]? =
      some m ∧ ∀ temp1 recvLength, parseProtocmessage shortMessage temp1 recvLength m.data m.base64 = .called () 7 := by
  have hproto : shortMessage.Inverse := ⟨fun _ => List.cons_ne_nil _ _, fun _ => ⟨_, rfl, rfl⟩⟩
  have hstart : Inv none (start (zeroBuffer maxMessageLen) true (zeroBuffer (2 * maxMessageLen)) : St Unit) :=
    inv_start _ _ _
  have hinv := inv_run_all (inv_step no_strategy) ([.send spoken] : List (Op none {} Unit)) hstart
  obtain ⟨t, ⟨more, -, rfl⟩, hsent, hdelivered⟩ := leads_delivered {} no_strategy hinv
  have hone : (run (step none {}) (start (zeroBuffer maxMessageLen) true (zeroBuffer (2 * maxMessageLen)) : St Unit)
      [.send spoken]).sent = [spoken.1] := rfl
  rw [hone] at hsent hdelivered
  rw [← run_append] at hsent hdelivered
  rw [sent_run no_strategy] at hsent
  have hfirst : (delivered (run (step none {}) (start (zeroBuffer maxMessageLen) true (zeroBuffer (2 * maxMessageLen)))
      ([.send spoken] ++ more)))[0]? = some spoken.1 := by
    rw [hdelivered]
    rfl
  obtain ⟨x, hx, hparse⟩ := objects_handled hproto no_strategy _ _ _ _ (hsent ▸ speaks_spoken) hfirst
  cases hx
  exact ⟨_, _, hfirst, hparse⟩

end DreamHeroes.Channel

/-
The stream of a session, cut anywhere, is put together again (`tcp_session::handle_read_some`).

- `handleReadSome`, `readLoop`: the handler and its loop. A length that has passed the test is a `Len`.
- `scan`: what a stream is, without a buffer: the messages of its frames, and what it ends with.
- `readLoop_scan`, `Follows`: the handler against `scan`; `follows_run` is the session after any chunks.
- `scan_append`: a stream may be cut anywhere.
- `stream_framing`: valid frames, cut into any chunks.

A copy that runs over the end of `m_recv_buffer` sets `overrun`. `reading` says that an `async_read_some` is
outstanding; its handler runs once. What `_on_close` does to the session is in `TcpServer`.
-/
import Mathlib.Tactic
import DreamHeroes.Lib.Machine
import DreamHeroes.Net.Message

namespace DreamHeroes.Wire

open DreamHeroes.Lib

variable (cs : Option CompressStrategy)

/-! ## The session -/

inductive BanReason where
  | wrongCheckSum
  | hackPacket
deriving DecidableEq, Repr

structure Session where
  isValid : Bool := true
  /-- `m_father` is not `NULL` -/
  father : Bool := false
  recvBuffer : Buffer (2 * maxMessageLen)
  recivePos : ℕ := 0
  reading : Bool := false
  /-- the messages pushed so far -/
  pushed : List Message := []
  bans : List (ℕ × BanReason) := []
  closing : Bool := false
  onClosed : Bool := false
  overrun : Bool := false

def Session.addBanIp (s : Session) (seconds : ℕ) (reason : BanReason) : Session :=
  if s.father then { s with bans := s.bans ++ [(seconds, reason)] } else s

def Session.closeAndBan (s : Session) : Session := { s.addBanIp 5 .hackPacket with closing := true }

def Session.onClose (s : Session) : Session := { s with onClosed := true }

def Session.asyncReadSome (s : Session) : Session := { s with reading := true }

def Session.beginReadMessage (s : Session) : Session := { s with recivePos := 0 }.asyncReadSome

/-- a length that has passed the test -/
abbrev Len := {len : ℕ // InRange len}

def testLen (len : ℕ) : Option Len := if h : InRange len then some ⟨len, h⟩ else none

/-- how the loop ends: with `now_pos`, at a length out of range, or at a frame without a message -/
inductive Stop where
  | rest (nowPos : ℕ)
  | range
  | bad

theorem Len.pos (len : Len) : 0 < len.1 := lt_of_lt_of_le (by decide) len.2.1

/-- the `while` loop; `pushed` are the messages it has pushed -/
def readLoop (buf : Bytes) (pos nowPos : ℕ) (len : Len) (pushed : List Message) : List Message × Stop :=
  if _h : len.1 ≤ pos - nowPos then
    match uncompress cs (buf.drop nowPos) maxMessageLen with
    | none => (pushed, .bad)
    | some msg =>
      if headLen ≤ pos - (nowPos + len.1) then
        match testLen (word 4 0 (buf.drop (nowPos + len.1))) with
        | none => (pushed ++ [msg], .range)
        | some next => readLoop buf pos (nowPos + len.1) next (pushed ++ [msg])
      else (pushed ++ [msg], .rest (nowPos + len.1))
  else (pushed, .rest nowPos)
termination_by pos - nowPos
decreasing_by
  have hpos := len.pos
  omega

/-- the front of the buffer after the loop -/
def moveFront (buf : Buffer (2 * maxMessageLen)) (pos nowPos : ℕ) : Buffer (2 * maxMessageLen) :=
  if 0 < nowPos ∧ nowPos < pos then buf.memmove nowPos (pos - nowPos) else buf

/-- what follows the loop, or ends it -/
def afterLoop (s : Session) : Stop → Session
  | .range => s.closeAndBan
  | .bad => { s.addBanIp 120 .wrongCheckSum with closing := true }.onClose
  | .rest nowPos =>
    { s with
      recvBuffer := moveFront s.recvBuffer s.recivePos nowPos
      recivePos := s.recivePos - nowPos }.asyncReadSome

/-- `handle_read_some` without an error, once the bytes are in the buffer -/
def parseBuffer (s : Session) : Session :=
  if headLen ≤ s.recivePos then
    match testLen (word 4 0 s.recvBuffer.bytes) with
    | none => s.closeAndBan
    | some len =>
      let r := readLoop cs s.recvBuffer.bytes s.recivePos 0 len s.pushed
      afterLoop { s with pushed := r.1 } r.2
  else s.asyncReadSome

/-- `tcp_session::handle_read_some`; `bytes` is what has been read into `buffer_` -/
def handleReadSome (s : Session) (error : Bool) (bytes : Bytes) : Session :=
  if !s.isValid then s
  else if error then s.onClose
  else
    match s.recvBuffer.memcpy s.recivePos bytes with
    | none => { s with overrun := true }
    | some recvBuffer => parseBuffer cs { s with recvBuffer := recvBuffer, recivePos := s.recivePos + bytes.length }

/-- bytes arrive: the outstanding read completes -/
def readSome (s : Session) (bytes : Bytes) : Session :=
  if s.reading then handleReadSome cs { s with reading := false } false bytes else s

/-! ## Streams -/

/-- what a stream ends with: bytes of an unfinished frame, a length out of range, or a frame without a message -/
inductive End where
  | rest (tail : Bytes)
  | range
  | bad
deriving DecidableEq, Repr

/-- the messages of a stream, and its end -/
def scan (stream : Bytes) : List Message × End :=
  if stream.length < headLen then ([], .rest stream)
  else
    match testLen (word 4 0 stream) with
    | none => ([], .range)
    | some len =>
      if _h : stream.length < len.1 then ([], .rest stream)
      else
        match uncompress cs (stream.take len.1) maxMessageLen with
        | none => ([], .bad)
        | some msg => (msg :: (scan (stream.drop len.1)).1, (scan (stream.drop len.1)).2)
termination_by stream.length
decreasing_by
  all_goals
    have hpos := len.pos
    rw [List.length_drop]
    omega

/-- the length is not there yet, or the frame is not there yet -/
def Unfinished (tail : Bytes) : Prop :=
  tail.length < headLen ∨ InRange (word 4 0 tail) ∧ tail.length < word 4 0 tail

theorem testLen_eq_some {len : ℕ} (h : InRange len) : testLen len = some ⟨len, h⟩ := dif_pos h

theorem testLen_eq_none {len : ℕ} (h : ¬InRange len) : testLen len = none := dif_neg h

theorem scan_unfinished {tail : Bytes} (h : Unfinished tail) : scan cs tail = ([], .rest tail) := by
  rw [scan]
  split_ifs with hlen
  · rfl
  · obtain ⟨hrange, hshort⟩ := h.resolve_left hlen
    rw [testLen_eq_some hrange]
    exact dif_pos hshort

theorem scan_range {stream : Bytes} (hlen : headLen ≤ stream.length) (h : ¬InRange (word 4 0 stream)) :
    scan cs stream = ([], .range) := by
  rw [scan, if_neg hlen.not_gt, testLen_eq_none h]

section

variable {stream : Bytes} (h : InRange (word 4 0 stream)) (hlen : word 4 0 stream ≤ stream.length)
include h hlen

theorem scan_bad (hmsg : uncompress cs (stream.take (word 4 0 stream)) maxMessageLen = none) :
    scan cs stream = ([], .bad) := by
  have hhead : ¬stream.length < headLen := not_lt.2 (h.1.trans hlen)
  rw [scan, if_neg hhead, testLen_eq_some h]
  dsimp only
  rw [dif_neg hlen.not_gt, hmsg]

/-- a whole frame in front -/
theorem scan_frame {msg : Message} (hmsg : uncompress cs (stream.take (word 4 0 stream)) maxMessageLen = some msg) :
    scan cs stream =
      (msg :: (scan cs (stream.drop (word 4 0 stream))).1, (scan cs (stream.drop (word 4 0 stream))).2) := by
  have hhead : ¬stream.length < headLen := not_lt.2 (h.1.trans hlen)
  rw [scan, if_neg hhead, testLen_eq_some h]
  dsimp only
  rw [dif_neg hlen.not_gt, hmsg]

end

/-- what stands in front of a stream -/
theorem front_cases (stream : Bytes) : Unfinished stream ∨ headLen ≤ stream.length ∧ ¬InRange (word 4 0 stream) ∨
    InRange (word 4 0 stream) ∧ word 4 0 stream ≤ stream.length := by
  by_cases hhead : stream.length < headLen
  · exact Or.inl (Or.inl hhead)
  · by_cases hrange : InRange (word 4 0 stream)
    · by_cases hlen : stream.length < word 4 0 stream
      · exact Or.inl (Or.inr ⟨hrange, hlen⟩)
      · exact Or.inr (Or.inr ⟨hrange, not_lt.1 hlen⟩)
    · exact Or.inr (Or.inl ⟨not_lt.1 hhead, hrange⟩)

/-- more bytes behind a stream that has been scanned -/
def resume (r : List Message × End) (b : Bytes) : List Message × End :=
  match r.2 with
  | .rest tail => (r.1 ++ (scan cs (tail ++ b)).1, (scan cs (tail ++ b)).2)
  | .range => r
  | .bad => r

theorem resume_cons (msg : Message) (r : List Message × End) (b : Bytes) :
    resume cs (msg :: r.1, r.2) b = (msg :: (resume cs r b).1, (resume cs r b).2) := by
  obtain ⟨msgs, e⟩ := r
  cases e <;> rfl

/-- **A stream may be cut anywhere.** -/
theorem scan_append (a b : Bytes) : scan cs (a ++ b) = resume cs (scan cs a) b := by
  induction hn : a.length using Nat.strong_induction_on generalizing a with
  | _ n ih =>
    rcases front_cases a with hun | ⟨hhead, hrange⟩ | ⟨hrange, hlen⟩
    · rw [scan_unfinished cs hun]
      rfl
    · have hword : word 4 0 (a ++ b) = word 4 0 a := word_append_left (by rw [headLen] at hhead; omega) b
      have hhead' : headLen ≤ (a ++ b).length := by rw [List.length_append]; omega
      rw [scan_range cs hhead hrange, scan_range cs hhead' (hword ▸ hrange)]
      rfl
    · have hhead : headLen ≤ a.length := hrange.1.trans hlen
      have hword : word 4 0 (a ++ b) = word 4 0 a := word_append_left (by rw [headLen] at hhead; omega) b
      have hrange' : InRange (word 4 0 (a ++ b)) := hword ▸ hrange
      have hlen' : word 4 0 (a ++ b) ≤ (a ++ b).length := by rw [hword, List.length_append]; omega
      have htake : (a ++ b).take (word 4 0 (a ++ b)) = a.take (word 4 0 a) := by
        rw [hword, List.take_append_of_le_length hlen]
      have hdrop : (a ++ b).drop (word 4 0 (a ++ b)) = a.drop (word 4 0 a) ++ b := by
        rw [hword, List.drop_append_of_le_length hlen]
      cases hmsg : uncompress cs (a.take (word 4 0 a)) maxMessageLen with
      | none =>
        rw [scan_bad cs hrange hlen hmsg, scan_bad cs hrange' hlen' (htake ▸ hmsg)]
        rfl
      | some msg =>
        have hshort : (a.drop (word 4 0 a)).length < n := by
          have hpos : headLen ≤ word 4 0 a := hrange.1
          rw [headLen] at hpos
          rw [List.length_drop]
          omega
        rw [scan_frame cs hrange hlen hmsg, scan_frame cs hrange' hlen' (htake ▸ hmsg), hdrop, ih _ hshort _ rfl,
          resume_cons]

/-- the bytes that a stream leaves are those of an unfinished frame -/
theorem unfinished_of_scan {stream tail : Bytes} (h : (scan cs stream).2 = .rest tail) : Unfinished tail := by
  induction hn : stream.length using Nat.strong_induction_on generalizing stream with
  | _ n ih =>
    rcases front_cases stream with hun | ⟨hhead, hrange⟩ | ⟨hrange, hlen⟩
    · rw [scan_unfinished cs hun] at h
      cases h
      exact hun
    · rw [scan_range cs hhead hrange] at h
      cases h
    · cases hmsg : uncompress cs (stream.take (word 4 0 stream)) maxMessageLen with
      | none =>
        rw [scan_bad cs hrange hlen hmsg] at h
        cases h
      | some msg =>
        rw [scan_frame cs hrange hlen hmsg] at h
        have hpos : headLen ≤ word 4 0 stream := hrange.1
        rw [headLen] at hpos
        exact ih _ (by rw [List.length_drop]; omega) h rfl

theorem Unfinished.length_lt {tail : Bytes} (h : Unfinished tail) : tail.length < maxMessageLen := by
  rcases h with h | ⟨hrange, hlen⟩
  · exact h.trans (by decide)
  · exact hlen.trans_le hrange.2

/-! ## The handler -/

def Stop.toEnd (buf : Bytes) (pos : ℕ) : Stop → End
  | .rest nowPos => .rest ((buf.drop nowPos).take (pos - nowPos))
  | .range => .range
  | .bad => .bad

/-- the loop scans what is in the buffer -/
theorem readLoop_scan {buf : Bytes} {pos : ℕ} (hpos : pos ≤ buf.length) (nowPos : ℕ) (len : Len)
    (hlen : word 4 0 (buf.drop nowPos) = len.1) (hhead : headLen ≤ pos - nowPos) (pushed : List Message) :
    (readLoop cs buf pos nowPos len pushed).1 = pushed ++ (scan cs ((buf.drop nowPos).take (pos - nowPos))).1 ∧
      (readLoop cs buf pos nowPos len pushed).2.toEnd buf pos =
      (scan cs ((buf.drop nowPos).take (pos - nowPos))).2 := by
  induction hn : pos - nowPos using Nat.strong_induction_on generalizing nowPos len pushed with
  | _ n ih =>
    subst hn
    have hlength : ((buf.drop nowPos).take (pos - nowPos)).length = pos - nowPos := by
      rw [List.length_take, List.length_drop, min_eq_left (by omega)]
    have hword : word 4 0 ((buf.drop nowPos).take (pos - nowPos)) = len.1 := by
      rw [word_take (by rw [headLen] at hhead; omega), hlen]
    have hrange : InRange (word 4 0 ((buf.drop nowPos).take (pos - nowPos))) := hword ▸ len.2
    rw [readLoop]
    by_cases hwhole : len.1 ≤ pos - nowPos
    · rw [dif_pos hwhole]
      have hlenPos : 0 < len.1 := len.pos
      have hle : word 4 0 ((buf.drop nowPos).take (pos - nowPos)) ≤ ((buf.drop nowPos).take (pos - nowPos)).length := by
        rw [hword, hlength]
        exact hwhole
      have hframe : uncompress cs (((buf.drop nowPos).take (pos - nowPos)).take
          (word 4 0 ((buf.drop nowPos).take (pos - nowPos)))) maxMessageLen =
          uncompress cs (buf.drop nowPos) maxMessageLen := by
        rw [hword, List.take_take, min_eq_left hwhole, ← hlen]
        exact uncompress_take cs (hlen ▸ len.2) _
      have hrest : ((buf.drop nowPos).take (pos - nowPos)).drop (word 4 0 ((buf.drop nowPos).take (pos - nowPos))) =
          (buf.drop (nowPos + len.1)).take (pos - (nowPos + len.1)) := by
        rw [hword, List.drop_take, List.drop_drop, Nat.sub_sub]
      cases hmsg : uncompress cs (buf.drop nowPos) maxMessageLen with
      | none =>
        rw [scan_bad cs hrange hle (hframe.trans hmsg)]
        exact ⟨(List.append_nil _).symm, rfl⟩
      | some msg =>
        rw [scan_frame cs hrange hle (hframe.trans hmsg), hrest]
        dsimp only
        have hlength' : ((buf.drop (nowPos + len.1)).take (pos - (nowPos + len.1))).length =
          pos - (nowPos + len.1) := by
          rw [List.length_take, List.length_drop, min_eq_left (by omega)]
        by_cases hmore : headLen ≤ pos - (nowPos + len.1)
        · rw [if_pos hmore]
          have hword' : word 4 0 ((buf.drop (nowPos + len.1)).take (pos - (nowPos + len.1))) =
              word 4 0 (buf.drop (nowPos + len.1)) := word_take (by rw [headLen] at hmore; omega) _
          by_cases hnext : InRange (word 4 0 (buf.drop (nowPos + len.1)))
          · rw [testLen_eq_some hnext]
            dsimp only
            have hih := ih (pos - (nowPos + len.1)) (by omega) _ ⟨_, hnext⟩ rfl hmore (pushed ++ [msg]) rfl
            rw [List.append_assoc] at hih
            exact hih
          · rw [testLen_eq_none hnext, scan_range cs (hlength'.ge.trans' hmore) (hword'.symm ▸ hnext)]
            exact ⟨rfl, rfl⟩
        · rw [if_neg hmore, scan_unfinished cs (Or.inl (hlength'.trans_lt (not_le.1 hmore)))]
          exact ⟨rfl, rfl⟩
    · rw [dif_neg hwhole, scan_unfinished cs (Or.inr ⟨hrange, by rw [hword, hlength]; exact not_le.1 hwhole⟩)]
      exact ⟨(List.append_nil _).symm, rfl⟩

/-- the session waits for more, and its buffer starts with `tail` -/
structure Session.Waits (s : Session) (tail : Bytes) : Prop where
  reading : s.reading = true
  pos : s.recivePos = tail.length
  front : s.recvBuffer.bytes.take tail.length = tail
  bans : s.bans = []
  closing : s.closing = false

/-- the session reads no more -/
structure Session.Rejected (s : Session) (ban : ℕ × BanReason) : Prop where
  reading : s.reading = false
  closing : s.closing = true
  bans : s.bans = if s.father then [ban] else []

def Session.Ended (s : Session) : End → Prop
  | .rest tail => s.Waits tail
  | .range => s.Rejected (5, .hackPacket)
  | .bad => s.Rejected (120, .wrongCheckSum)

/-- the session has read `stream` -/
structure Follows (s : Session) (stream : Bytes) : Prop where
  isValid : s.isValid = true
  overrun : s.overrun = false
  pushed : s.pushed = (scan cs stream).1
  ended : s.Ended (scan cs stream).2

/-- a ban, and the posted `handle_close` -/
theorem rejected_of_ban {s : Session} (hreading : s.reading = false) (hbans : s.bans = []) (seconds : ℕ)
    (reason : BanReason) : { s.addBanIp seconds reason with closing := true }.Rejected (seconds, reason) := by
  rw [Session.addBanIp]
  split_ifs with hfather
  · exact ⟨hreading, rfl, by simp [hbans, hfather]⟩
  · exact ⟨hreading, rfl, by simp [hbans, hfather]⟩

/-- a ban leaves the rest of the session alone -/
theorem addBanIp_same (s : Session) (seconds : ℕ) (reason : BanReason) :
    (s.addBanIp seconds reason).isValid = s.isValid ∧ (s.addBanIp seconds reason).overrun = s.overrun ∧
      (s.addBanIp seconds reason).pushed = s.pushed := by
  rw [Session.addBanIp]
  split_ifs <;> exact ⟨rfl, rfl, rfl⟩

/-- what is left goes to the front -/
theorem moveFront_take (buf : Buffer (2 * maxMessageLen)) {pos nowPos : ℕ} (hpos : pos ≤ buf.bytes.length) :
    (moveFront buf pos nowPos).bytes.take (pos - nowPos) = (buf.bytes.drop nowPos).take (pos - nowPos) := by
  have hlength : ((buf.bytes.drop nowPos).take (pos - nowPos)).length = pos - nowPos := by
    rw [List.length_take, List.length_drop]
    omega
  rw [moveFront]
  split_ifs with hmove
  · have htake := buf.take_memmove nowPos (pos - nowPos)
    rwa [hlength] at htake
  · rcases not_and_or.1 hmove with hzero | hall
    · rw [Nat.eq_zero_of_not_pos hzero, List.drop_zero]
    · rw [Nat.sub_eq_zero_of_le (not_lt.1 hall), List.take_zero, List.take_zero]

theorem closeAndBan_rejected {s : Session} (hreading : s.reading = false) (hbans : s.bans = []) :
    s.closeAndBan.Rejected (5, .hackPacket) := rejected_of_ban hreading hbans 5 .hackPacket

theorem afterLoop_ended {s : Session} (hreading : s.reading = false) (hbans : s.bans = [])
    (hclosing : s.closing = false) (hle : s.recivePos ≤ s.recvBuffer.bytes.length) (stop : Stop) :
    (afterLoop s stop).Ended (stop.toEnd s.recvBuffer.bytes s.recivePos) := by
  cases stop with
  | rest nowPos =>
    have hlength : ((s.recvBuffer.bytes.drop nowPos).take (s.recivePos - nowPos)).length = s.recivePos - nowPos := by
      rw [List.length_take, List.length_drop]
      omega
    refine ⟨rfl, hlength.symm, ?_, hbans, hclosing⟩
    rw [hlength]
    exact moveFront_take s.recvBuffer hle
  | range => exact closeAndBan_rejected hreading hbans
  | bad =>
    have hrejected := rejected_of_ban hreading hbans 120 .wrongCheckSum
    exact ⟨hrejected.reading, hrejected.closing, hrejected.bans⟩

theorem afterLoop_same (s : Session) (stop : Stop) :
    (afterLoop s stop).isValid = s.isValid ∧ (afterLoop s stop).overrun = s.overrun ∧
      (afterLoop s stop).pushed = s.pushed := by
  cases stop with
  | rest nowPos => exact ⟨rfl, rfl, rfl⟩
  | range => exact addBanIp_same s _ _
  | bad => exact addBanIp_same s _ _

/-- the handler scans what is in the buffer -/
theorem parseBuffer_follows {s : Session} (hvalid : s.isValid = true) (hoverrun : s.overrun = false)
    (hreading : s.reading = false) (hbans : s.bans = []) (hclosing : s.closing = false) (stream : Bytes)
    (hpos : s.recivePos = stream.length) (hfront : s.recvBuffer.bytes.take stream.length = stream) :
    (parseBuffer cs s).isValid = true ∧ (parseBuffer cs s).overrun = false ∧
      (parseBuffer cs s).pushed = s.pushed ++ (scan cs stream).1 ∧ (parseBuffer cs s).Ended (scan cs stream).2 := by
  have hle : s.recivePos ≤ s.recvBuffer.bytes.length := by
    have hlen := congrArg List.length hfront
    rw [List.length_take] at hlen
    omega
  rw [parseBuffer]
  by_cases hhead : headLen ≤ s.recivePos
  · have hword : word 4 0 s.recvBuffer.bytes = word 4 0 stream := by
      rw [← word_take (m := stream.length) (by rw [headLen, hpos] at hhead; omega) s.recvBuffer.bytes, hfront]
    rw [if_pos hhead]
    by_cases hrange : InRange (word 4 0 s.recvBuffer.bytes)
    · rw [testLen_eq_some hrange]
      dsimp only
      obtain ⟨hpushed, hend⟩ := readLoop_scan cs hle 0 ⟨_, hrange⟩ rfl hhead s.pushed
      rw [List.drop_zero, Nat.sub_zero, hpos, hfront, ← hpos] at hpushed hend
      have hsame :=
        afterLoop_same { s with pushed := (readLoop cs s.recvBuffer.bytes s.recivePos 0 ⟨_, hrange⟩ s.pushed).1 }
        (readLoop cs s.recvBuffer.bytes s.recivePos 0 ⟨_, hrange⟩ s.pushed).2
      refine ⟨hsame.1.trans hvalid, hsame.2.1.trans hoverrun, hsame.2.2.trans hpushed, ?_⟩
      rw [← hend]
      have hended := afterLoop_ended (s := { s with pushed := (readLoop cs s.recvBuffer.bytes s.recivePos 0 ⟨_, hrange⟩
        s.pushed).1 }) hreading hbans hclosing hle
      exact hended _
    · rw [testLen_eq_none hrange, scan_range cs (hpos ▸ hhead) (hword ▸ hrange)]
      obtain ⟨hvalid', hoverrun', hpushed'⟩ := addBanIp_same s 5 .hackPacket
      exact ⟨hvalid'.trans hvalid, hoverrun'.trans hoverrun, hpushed'.trans (List.append_nil _).symm,
        closeAndBan_rejected hreading hbans⟩
  · rw [if_neg hhead, scan_unfinished cs (Or.inl (hpos ▸ not_le.1 hhead))]
    exact ⟨hvalid, hoverrun, (List.append_nil _).symm, rfl, hpos, hfront, hbans, hclosing⟩

theorem handleReadSome_eq {s : Session} (hvalid : s.isValid = true) {bytes : Bytes} {buf : Buffer (2 * maxMessageLen)}
    (hbuf : s.recvBuffer.memcpy s.recivePos bytes = some buf) :
    handleReadSome cs { s with reading := false } false bytes =
      parseBuffer cs
        { s with reading := false, recvBuffer := buf, recivePos := s.recivePos + bytes.length } := by
  simp [handleReadSome, hvalid, hbuf]

/-! ## Runs -/

variable {cs} in
theorem follows_readSome {s : Session} {stream c : Bytes} (h : Follows cs s stream) (hc : c.length ≤ maxMessageLen) :
    Follows cs (readSome cs s c) (stream ++ c) := by
  have hended := h.ended
  have hscan := scan_append cs stream c
  rw [readSome]
  cases hend : (scan cs stream).2 with
  | rest tail =>
    rw [hend] at hended
    obtain ⟨hreading, hpos, hfront, hbans, hclosing⟩ : s.Waits tail := hended
    have hshort : tail.length < maxMessageLen := (unfinished_of_scan cs hend).length_lt
    obtain ⟨buf, hbuf, htake⟩ := s.recvBuffer.memcpy_eq_some s.recivePos c (by rw [hpos]; omega)
    rw [hpos, hfront, ← List.length_append] at htake
    rw [if_pos hreading, handleReadSome_eq cs h.isValid hbuf]
    obtain ⟨hvalid, hoverrun, hpushed, hended'⟩ := parseBuffer_follows cs
      (s := { s with reading := false, recvBuffer := buf, recivePos := s.recivePos + c.length }) h.isValid h.overrun rfl
      hbans hclosing (tail ++ c) (by rw [List.length_append, ← hpos]) htake
    rw [resume, hend] at hscan
    dsimp only at hscan
    refine ⟨hvalid, hoverrun, ?_, ?_⟩
    · rw [hscan, hpushed, h.pushed]
    · rw [hscan]
      exact hended'
  | range =>
    rw [hend] at hended
    rw [resume, hend] at hscan
    have hstopped : ¬s.reading = true := by rw [hended.reading]; exact Bool.false_ne_true
    rw [if_neg hstopped]
    exact ⟨h.isValid, h.overrun, by rw [hscan]; exact h.pushed, by rw [hscan, hend]; exact hended⟩
  | bad =>
    rw [hend] at hended
    rw [resume, hend] at hscan
    have hstopped : ¬s.reading = true := by rw [hended.reading]; exact Bool.false_ne_true
    rw [if_neg hstopped]
    exact ⟨h.isValid, h.overrun, by rw [hscan]; exact h.pushed, by rw [hscan, hend]; exact hended⟩

/-- a connected session that begins to read; its buffer holds what it held before -/
def start (father : Bool) (buf : Buffer (2 * maxMessageLen)) : Session :=
  Session.beginReadMessage { father := father, recvBuffer := buf }

theorem follows_start (father : Bool) (buf : Buffer (2 * maxMessageLen)) : Follows cs (start father buf) [] := by
  have hscan : scan cs [] = ([], .rest []) := scan_unfinished cs (Or.inl (by decide))
  refine ⟨rfl, rfl, by rw [hscan]; rfl, ?_⟩
  rw [hscan]
  exact ⟨rfl, rfl, rfl, rfl, rfl⟩

/-- **Any chunks are the stream they make.** -/
theorem follows_run (father : Bool) (buf : Buffer (2 * maxMessageLen)) (chunks : List Bytes)
    (hchunks : ∀ c ∈ chunks, c.length ≤ maxMessageLen) :
    Follows cs (run (readSome cs) (start father buf) chunks) chunks.flatten := by
  induction chunks using List.reverseRecOn with
  | nil => exact follows_start cs father buf
  | append_singleton chunks c ih =>
    rw [run_snoc, List.flatten_append, List.flatten_singleton]
    refine follows_readSome (ih fun d hd => hchunks d (List.mem_append_left _ hd)) ?_
    exact hchunks c (List.mem_append_right _ (List.mem_singleton_self c))

/-! ## Valid frames -/

theorem scan_frames {frames : List Bytes} (hframes : ∀ f ∈ frames, Valid cs f) (rest : Bytes) :
    scan cs (frames.flatten ++ rest) = (frames.map (message cs) ++ (scan cs rest).1, (scan cs rest).2) := by
  induction frames with
  | nil => rfl
  | cons f frames ih =>
    have hf : Valid cs f := hframes f List.mem_cons_self
    have hhead : headLen ≤ f.length := hf.range.1
    have hword : word 4 0 (f ++ (frames.flatten ++ rest)) = f.length :=
      (word_append_left (by rw [headLen] at hhead; omega) _).trans hf.length
    have hle : f.length ≤ (f ++ (frames.flatten ++ rest)).length := by rw [List.length_append]; omega
    rw [List.flatten_cons, List.append_assoc]
    have hmsg : uncompress cs ((f ++ (frames.flatten ++ rest)).take (word 4 0 (f ++ (frames.flatten ++ rest))))
        maxMessageLen = some (message cs f) := by
      rw [hword, List.take_left]
      exact uncompress_valid cs hf
    rw [scan_frame cs (hword ▸ hf.range) (hword.trans_le hle) hmsg, hword, List.drop_left,
      ih fun g hg => hframes g (List.mem_cons_of_mem f hg)]
    rfl

/-- a prefix of a stream of frames: whole frames, and some bytes of the next -/
theorem prefix_frames {frames : List Bytes} {rest stream : Bytes} (h : stream <+: frames.flatten ++ rest) :
    ∃ k tail, k ≤ frames.length ∧ stream = (frames.take k).flatten ++ tail ∧
      (∀ f, frames[k]? = some f → tail <+: f ∧ tail.length < f.length) ∧ (k = frames.length → tail <+: rest) := by
  induction frames generalizing stream with
  | nil => exact ⟨0, stream, le_rfl, rfl, fun f hf => absurd hf (by simp), fun _ => h⟩
  | cons f frames ih =>
    rw [List.flatten_cons, List.append_assoc] at h
    rcases lt_or_ge stream.length f.length with hshort | hlong
    · refine ⟨0, stream, Nat.zero_le _, rfl, ?_, fun hk => nomatch hk⟩
      intro g hg
      cases hg
      exact ⟨List.prefix_of_prefix_length_le h (List.prefix_append _ _) hshort.le, hshort⟩
    · obtain ⟨more, rfl⟩ := List.prefix_of_prefix_length_le (List.prefix_append _ _) h hlong
      obtain ⟨k, tail, hk, rfl, hnext, hlast⟩ := ih ((List.prefix_append_right_inj f).1 h)
      refine ⟨k + 1, tail, Nat.succ_le_succ hk, ?_, hnext, fun hend => hlast (Nat.succ_injective hend)⟩
      rw [List.take_succ_cons, List.flatten_cons, List.append_assoc]

/-- some bytes of a stream show its length field, when there are ten of them -/
theorem word_of_front {tail stream : Bytes} (h : tail <+: stream) (hhead : headLen ≤ tail.length) :
    word 4 0 tail = word 4 0 stream := by
  obtain ⟨more, rfl⟩ := h
  exact (word_append_left (by rw [headLen] at hhead; omega) more).symm

theorem unfinished_of_front {f tail : Bytes} (hf : Valid cs f) (h : tail <+: f) (hlen : tail.length < f.length) :
    Unfinished tail := by
  rcases lt_or_ge tail.length headLen with hshort | hhead
  · exact Or.inl hshort
  · have hword : word 4 0 tail = f.length := (word_of_front h hhead).trans hf.length
    exact Or.inr (hword ▸ ⟨hf.range, hlen⟩)

/-- after `n` bytes the stream is not one of valid frames any more, and the session is banned -/
inductive StopsAfter : Bytes → ℕ → ℕ × BanReason → Prop
  | nothing (ban : ℕ × BanReason) : StopsAfter [] 1 ban
  | range {rest : Bytes} (hhead : headLen ≤ rest.length) (hrange : ¬InRange (word 4 0 rest)) :
    StopsAfter rest headLen (5, .hackPacket)
  | frame {rest : Bytes} (hrange : InRange (word 4 0 rest)) (hlen : word 4 0 rest ≤ rest.length)
    (hbad : ¬Valid cs (rest.take (word 4 0 rest))) : StopsAfter rest (word 4 0 rest) (120, .wrongCheckSum)

section

variable {cs} {rest tail : Bytes} {n : ℕ} {ban : ℕ × BanReason}

theorem StopsAfter.unfinished (hrest : StopsAfter cs rest n ban) (h : tail <+: rest) (hlen : tail.length < n) :
    Unfinished tail := by
  cases hrest with
  | nothing => exact Or.inl (hlen.trans (by decide))
  | range hhead hrange => exact Or.inl hlen
  | frame hrange hle hbad =>
    rcases lt_or_ge tail.length headLen with hshort | hhead
    · exact Or.inl hshort
    · have hword := word_of_front h hhead
      exact Or.inr (hword.symm ▸ ⟨hrange, hlen⟩)

/-- the stream is rejected there -/
theorem StopsAfter.rejected (hrest : StopsAfter cs rest n ban) (h : tail <+: rest) (hlen : n ≤ tail.length)
    {s : Session} (hs : s.Ended (scan cs tail).2) : (scan cs tail).1 = [] ∧ s.Rejected ban := by
  cases hrest with
  | nothing => exact absurd (hlen.trans h.length_le) (by decide)
  | range hhead hrange =>
    have hword := word_of_front h hlen
    rw [scan_range cs hlen (hword.symm ▸ hrange)] at hs ⊢
    exact ⟨rfl, hs⟩
  | frame hrange hle hbad =>
    have hword := word_of_front h (hrange.1.trans hlen)
    have hframe : tail.take (word 4 0 tail) = rest.take (word 4 0 rest) := by
      obtain ⟨more, rfl⟩ := h
      rw [hword, List.take_append_of_le_length hlen]
    have hlength : (rest.take (word 4 0 rest)).length = word 4 0 rest := by
      rw [List.length_take, min_eq_left hle]
    have hfield : word 4 0 (rest.take (word 4 0 rest)) = (rest.take (word 4 0 rest)).length := by
      have hhead : headLen ≤ word 4 0 rest := hrange.1
      rw [hlength, word_take (by rw [headLen] at hhead; omega)]
    have hnone : uncompress cs (tail.take (word 4 0 tail)) maxMessageLen = none := by
      rw [hframe, ← Option.not_isSome_iff_eq_none,
        uncompress_isSome_iff cs (hlength.symm ▸ hrange) hfield]
      exact hbad
    rw [scan_bad cs (hword.symm ▸ hrange) (hword.trans_le hlen) hnone] at hs ⊢
    exact ⟨rfl, hs⟩

end

/-- The first `k` frames have been pushed, and the buffer starts with what there is of the next, which is not all of
it. -/
structure Delivered (frames : List Bytes) (received : Bytes) (s : Session) (k : ℕ) (tail : Bytes) : Prop where
  le : k ≤ frames.length
  received : received = (frames.take k).flatten ++ tail
  next : ∀ f, frames[k]? = some f → tail <+: f ∧ tail.length < f.length
  pushed : s.pushed = (frames.take k).map (message cs)
  waits : s.Waits tail

/-- **Framing.** `frames` are valid and arrive in any chunks; what follows them, if anything does, is no valid frame. -/
theorem stream_framing (father : Bool) (buf : Buffer (2 * maxMessageLen)) {frames : List Bytes}
    (hframes : ∀ f ∈ frames, Valid cs f) {rest : Bytes} {n : ℕ} {ban : ℕ × BanReason}
    (hrest : StopsAfter cs rest n ban) (chunks : List Bytes)
    (hchunks : ∀ c ∈ chunks, 1 ≤ c.length ∧ c.length ≤ maxMessageLen)
    (hstream : chunks.flatten = frames.flatten ++ rest) {pre : List Bytes} (hpre : pre <+: chunks) :
    (run (readSome cs) (start father buf) pre).overrun = false ∧
      (pre.flatten.length < frames.flatten.length + n →
        ∃ k tail, Delivered cs frames pre.flatten (run (readSome cs) (start father buf) pre) k tail) ∧
      (frames.flatten.length ≤ pre.flatten.length →
        (run (readSome cs) (start father buf) pre).pushed = frames.map (message cs)) ∧
      (frames.flatten.length + n ≤ pre.flatten.length →
        (run (readSome cs) (start father buf) pre).Rejected ban) := by
  have hfollows := follows_run cs father buf pre fun c hc => (hchunks c (hpre.subset hc)).2
  have hpart : pre.flatten <+: frames.flatten ++ rest := by
    obtain ⟨more, rfl⟩ := hpre
    rw [← hstream, List.flatten_append]
    exact List.prefix_append _ _
  obtain ⟨k, tail, hk, hreceived, hnext, hlast⟩ := prefix_frames hpart
  have htake : ∀ f ∈ frames.take k, Valid cs f := fun f hf => hframes f (List.mem_of_mem_take hf)
  have hscan := scan_frames cs htake tail
  rw [← hreceived] at hscan
  have hended := hfollows.ended
  have hpushed := hfollows.pushed
  rw [hscan] at hended hpushed
  have hlength : pre.flatten.length = (frames.take k).flatten.length + tail.length := by
    rw [hreceived, List.length_append]
  -- a tail that is no whole frame is kept in the buffer
  have delivered (hun : Unfinished tail) :
      Delivered cs frames pre.flatten (run (readSome cs) (start father buf) pre) k tail := by
    rw [scan_unfinished cs hun] at hended hpushed
    exact ⟨hk, hreceived, hnext, hpushed.trans (List.append_nil _), hended⟩
  refine ⟨hfollows.overrun, ?_⟩
  rcases hk.lt_or_eq with hlt | rfl
  · obtain ⟨htail, hshort⟩ := hnext frames[k] (List.getElem?_eq_getElem hlt)
    have hmore : (frames.take k).flatten.length + frames[k].length ≤ frames.flatten.length := by
      conv_rhs => rw [← List.take_append_drop k frames, List.drop_eq_getElem_cons hlt]
      rw [List.flatten_append, List.flatten_cons, List.length_append, List.length_append]
      omega
    have hun := unfinished_of_front cs (hframes _ (List.getElem_mem hlt)) htail hshort
    exact ⟨fun _ => ⟨k, tail, delivered hun⟩, fun hall => absurd hall (by omega), fun hall => absurd hall (by omega)⟩
  · rw [List.take_length] at hlength hpushed
    refine ⟨fun hlen => ⟨_, tail, delivered (hrest.unfinished (hlast rfl) (by omega))⟩, fun _ => ?_, fun hlen => ?_⟩
    · rcases lt_or_ge tail.length n with hlen | hlen
      · rw [hpushed, scan_unfinished cs (hrest.unfinished (hlast rfl) hlen)]
        exact List.append_nil _
      · rw [hpushed, (hrest.rejected (hlast rfl) hlen hended).1]
        exact List.append_nil _
    · exact (hrest.rejected (hlast rfl) (by omega) hended).2

/-- a frame in three chunks, and the header of a frame that would be too short -/
theorem stream_framing_three :
    (run (readSome none) (start true ⟨List.replicate (2 * maxMessageLen) 0, List.length_replicate⟩)
        [[12, 0], [0, 0, 0, 0, 7, 76, 105, 48, 65], [66, 5, 0, 0, 0, 0, 0, 0, 0, 0, 0]]).pushed = [⟨[65, 66], false⟩] ∧
      (run (readSome none) (start true ⟨List.replicate (2 * maxMessageLen) 0, List.length_replicate⟩)
        [[12, 0], [0, 0, 0, 0, 7, 76, 105, 48, 65], [66, 5, 0, 0, 0, 0, 0, 0, 0, 0, 0]]).Rejected (5, .hackPacket) := by
  have hframe : Valid none [12, 0, 0, 0, 0, 0, 7, 76, 105, 48, 65, 66] :=
    ⟨by decide, by decide, by decide +kernel, rfl⟩
  have hframes : ∀ f ∈ [[12, 0, 0, 0, 0, 0, 7, 76, 105, 48, 65, 66]], Valid none f := by
    intro f hf
    rw [List.mem_singleton.1 hf]
    exact hframe
  have hrest : StopsAfter none [5, 0, 0, 0, 0, 0, 0, 0, 0, 0] headLen (5, .hackPacket) :=
    .range (by decide) (by decide)
  obtain ⟨-, -, hpushed, hrejected⟩ := stream_framing none true ⟨List.replicate (2 * maxMessageLen) 0,
    List.length_replicate⟩ hframes hrest [[12, 0], [0, 0, 0, 0, 7, 76, 105, 48, 65],
    [66, 5, 0, 0, 0, 0, 0, 0, 0, 0, 0]] (by decide) rfl (List.prefix_refl _)
  exact ⟨hpushed (by decide), hrejected (by decide)⟩

end DreamHeroes.Wire

/-
The envelope of a protobuf message (`common/protoc_common.h`): a flag, the length of the type's name, the name, the
body; with `base64` all of it is encoded.

- `pushProtocMessage`, `parseProtocmessage`: both directions, through the buffers of the threads. `length` is the
  `_buffer_length` a thread has before the call. Bytes that do not fit into a buffer have no result (`overrun`).
- `RecvBuffer.read` throws at the end of the bytes, and starts again at the front when it has come to the end exactly.
- `parsePacket_handled_iff`: which texts are refused or given to the handler.
- `parse_total_iff`: the same of what arrives, decoded or not.
- `envelope_iff`: what has been pushed is parsed to the same message exactly when the buffers hold it.
- `fits_of_lt`: they do, as long as the sender's buffer stays below 14316558 bytes. From there on `maxlen * 150` wraps.

`buff`, the object and the method are not `NULL`. What protobuf does is `Protobuf`.
-/
import Mathlib.Tactic
import DreamHeroes.Common.Base64
import DreamHeroes.Net.ThreadBuffer

namespace DreamHeroes.Envelope

open DreamHeroes.Lib DreamHeroes.Base64 DreamHeroes.ThreadBuffer

/-- the generated types: `parser` is the pool and the factory, then `ParseFromArray` -/
structure Protobuf (M : Type*) where
  typeName : M → Bytes
  serialize : M → Bytes
  parser : (name : Bytes) → Option ((body : Bytes) → Option M)

variable {M : Type*} (proto : Protobuf M)

/-! ## Receiving -/

inductive Parsed (M : Type*) where
  | refused
  | called (message : M) (flag : UInt32)
  | buffException
  /-- the name, and then the body, are taken from behind the received bytes -/
  | beyond
  | overrun

/-- false is returned, or the handler has been called once -/
def Parsed.Handled : Parsed M → Prop
  | .refused => True
  | .called _ _ => True
  | _ => False

/-- what `thread_recv_buffer` holds -/
def received (temp1 : Temp) (buff : Bytes) (base64 : Bool) : Bytes := if base64 then base64Decode temp1 buff else buff

/-- the bytes that its constructor writes, all of them; `Base64Decode` clears what it is going to write -/
def writtenLen (buff : Bytes) (base64 : Bool) : ℕ := if base64 then buff.length * 3 / 4 else buff.length

/-- the buffer is long enough for them -/
def RecvFits (length : UInt32) (buff : Bytes) (base64 : Bool) : Prop :=
  writtenLen buff base64 ≤ (bufferLength length (UInt32.ofNat buff.length + 1)).toNat

instance decidableRecvFits (length : UInt32) (buff : Bytes) (base64 : Bool) : Decidable (RecvFits length buff base64) :=
  inferInstanceAs (Decidable (_ ≤ _))

/-- `thread_recv_buffer`, without the memory behind the bytes -/
structure RecvBuffer where
  buff : Bytes
  pos : ℕ := 0

def RecvBuffer.read (packet : RecvBuffer) (len : ℕ) : Option (Bytes × RecvBuffer) :=
  if packet.buff.length < packet.pos + len then none
  else
    let pos := packet.pos + len
    some ((packet.buff.drop packet.pos).take len, { packet with pos := if pos = packet.buff.length then 0 else pos })

/-- from the test of `name_len` on -/
def parseNamed (flag : UInt32) (nameLen : ℕ) (packet : RecvBuffer) : Parsed M :=
  if packet.buff.length < nameLen ∨ nameLen = 0 then .refused
  else if packet.buff.length < packet.pos + nameLen then .beyond
  else
    match proto.parser ((packet.buff.drop packet.pos).take nameLen) with
    | none => .refused
    | some parse =>
      match parse (packet.buff.drop (packet.pos + nameLen)) with
      | none => .refused
      | some message => .called message flag

/-- what is in the buffer -/
def parsePacket (packet : RecvBuffer) : Parsed M :=
  match packet.read 4 with
  | none => .buffException
  | some (flag, packet) =>
    match packet.read 4 with
    | none => .buffException
    | some (nameLen, packet) => parseNamed proto (UInt32.ofNat (leNat flag)) (leNat nameLen) packet

/-- `ProtocBufferCommon::parseProtocmessage` -/
def parseProtocmessage (temp1 : Temp) (length : UInt32) (buff : Bytes) (base64 : Bool) : Parsed M :=
  if buff.length = 0 then .refused
  else if RecvFits length buff base64 then parsePacket proto { buff := received temp1 buff base64 }
  else .overrun

/-- four bytes or eight, which are read again from the front; or a name that is refused, or is there -/
def WellCut (buff : Bytes) : Prop :=
  buff.length = 4 ∨ buff.length = 8 ∨
    8 < buff.length ∧ (word 4 4 buff = 0 ∨ buff.length < word 4 4 buff ∨ 8 + word 4 4 buff ≤ buff.length)

theorem parseNamed_handled_iff (flag : UInt32) (nameLen : ℕ) (packet : RecvBuffer) :
    (parseNamed proto flag nameLen packet).Handled ↔
      nameLen = 0 ∨ packet.buff.length < nameLen ∨ packet.pos + nameLen ≤ packet.buff.length := by
  rw [parseNamed]
  by_cases hrefused : packet.buff.length < nameLen ∨ nameLen = 0
  · rw [if_pos hrefused]
    exact iff_of_true trivial (hrefused.elim (fun h => Or.inr (Or.inl h)) Or.inl)
  · rw [if_neg hrefused]
    by_cases hbeyond : packet.buff.length < packet.pos + nameLen
    · rw [if_pos hbeyond]
      refine iff_of_false id ?_
      omega
    · rw [if_neg hbeyond]
      refine iff_of_true ?_ (Or.inr (Or.inr (not_lt.1 hbeyond)))
      cases proto.parser ((packet.buff.drop packet.pos).take nameLen) with
      | none => trivial
      | some parse =>
        dsimp only
        cases parse (packet.buff.drop (packet.pos + nameLen)) with
        | none => trivial
        | some message => trivial

theorem read_none {packet : RecvBuffer} {len : ℕ} (h : packet.buff.length < packet.pos + len) :
    packet.read len = none := if_pos h

theorem read_some {packet : RecvBuffer} {len : ℕ} (h : packet.pos + len ≤ packet.buff.length) :
    packet.read len = some ((packet.buff.drop packet.pos).take len,
      { packet with pos := if packet.pos + len = packet.buff.length then 0 else packet.pos + len }) := if_neg h.not_gt

/-- **What is in the buffer is handled** when it is cut well. -/
theorem parsePacket_handled_iff (buff : Bytes) : (parsePacket proto { buff := buff }).Handled ↔ WellCut buff := by
  rw [parsePacket, WellCut]
  by_cases hflag : buff.length < 4
  · rw [read_none (by dsimp only; omega)]
    exact iff_of_false id (by omega)
  · rw [read_some (by dsimp only; omega)]
    dsimp only
    rw [Nat.zero_add]
    by_cases hfour : 4 = buff.length
    · -- the name's length is read from the flag
      rw [if_pos hfour, read_some (by dsimp only; omega)]
      dsimp only
      rw [Nat.zero_add, if_pos hfour, parseNamed_handled_iff]
      dsimp only
      omega
    · rw [if_neg hfour]
      by_cases hname : buff.length < 8
      · rw [read_none (by dsimp only; omega)]
        exact iff_of_false id (by omega)
      · rw [read_some (by dsimp only; omega)]
        dsimp only
        rw [parseNamed_handled_iff]
        dsimp only
        by_cases height : 4 + 4 = buff.length
        · rw [if_pos height]
          omega
        · rw [if_neg height, word]
          omega

/-- **Every text is refused or handled** exactly when it fits into the buffer, and is cut well there. -/
theorem parse_total_iff (temp1 : Temp) (length : UInt32) (buff : Bytes) (base64 : Bool) :
    (parseProtocmessage proto temp1 length buff base64).Handled ↔
      buff.length = 0 ∨ RecvFits length buff base64 ∧ WellCut (received temp1 buff base64) := by
  rw [parseProtocmessage]
  by_cases hempty : buff.length = 0
  · rw [if_pos hempty]
    exact iff_of_true trivial (Or.inl hempty)
  · rw [if_neg hempty]
    by_cases hfits : RecvFits length buff base64
    · rw [if_pos hfits, parsePacket_handled_iff, or_iff_right hempty, and_iff_right hfits]
    · rw [if_neg hfits, or_iff_right hempty]
      exact iff_of_false id fun h => hfits h.1

/-- one type, with a message of two bytes -/
def shortMessage : Protobuf Unit where
  typeName _ := [65]
  serialize _ := [1, 2]
  parser name := if name = [65] then some fun body => if body = [1, 2] then some () else none else none

/-- three bytes; and a name that is longer than what follows its length -/
theorem hostile_texts :
    parseProtocmessage shortMessage ⟨0, 0, 0, 0⟩ 0 [1, 2, 3] false = .buffException ∧
      parseProtocmessage shortMessage ⟨0, 0, 0, 0⟩ 0 [7, 0, 0, 0, 6, 0, 0, 0, 65, 66, 67, 68] false = .beyond ∧
      ¬(parseProtocmessage shortMessage ⟨0, 0, 0, 0⟩ 0 [1, 2, 3] false).Handled :=
  ⟨rfl, rfl, id⟩

/-! ## Sending -/

inductive Pushed where
  | sent (data : Bytes)
  | refused
  | buffException
  | assertFailed
  | overrun
deriving DecidableEq, Repr

/-- true is returned, as far as that can be said of an encoded text that runs over its buffer -/
def Pushed.Returned : Pushed → Prop
  | .sent _ => True
  | .overrun => True
  | _ => False

/-- `thread_send_buffer::write` -/
def write (maxLength : UInt32) (buff item : Bytes) : Option Bytes :=
  if maxLength.toNat ≤ buff.length + item.length then none else some (buff ++ item)

/-- `_max_length` of the `thread_send_buffer`; the flag is not counted -/
def sendLength (length : UInt32) (m : M) : UInt32 :=
  bufferLength length (4 + UInt32.ofNat (proto.typeName m).length + UInt32.ofNat (proto.serialize m).length)

/-- `getFinallyBuff`, and `strlen` of it -/
def finallyBuff (encodeLength maxLength : UInt32) (buff : Bytes) (base64 : Bool) : Pushed :=
  if base64 then
    let code := base64Encode buff
    if code.length + 1 ≤ (bufferLength encodeLength (maxLength * 2)).toNat then
      .sent ((code ++ [0]).takeWhile (· ≠ 0))
    else .overrun
  else .sent buff

/-- the three fields in front of the body -/
def writeHead (maxLength : UInt32) (flag : UInt32) (name : Bytes) : Option Bytes :=
  (write maxLength [] (leBytes 4 flag.toNat)).bind fun buff =>
    (write maxLength buff (leBytes 4 name.length)).bind fun buff => write maxLength buff name

/-- `ProtocBufferCommon::pushProtocMessage` -/
def pushProtocMessage (length encodeLength : UInt32) (m : M) (flag : UInt32) (base64 : Bool) : Pushed :=
  let body := proto.serialize m
  let maxLength := sendLength proto length m
  match writeHead maxLength flag (proto.typeName m) with
  | none => .buffException
  | some buff =>
    if maxLength.toNat - buff.length < body.length then .refused
    else if maxLength.toNat ≤ buff.length + body.length then .assertFailed
    else finallyBuff encodeLength maxLength (buff ++ body) base64

/-- the bytes of the envelope -/
def envelope (m : M) (flag : UInt32) : Bytes :=
  leBytes 4 flag.toNat ++ (leBytes 4 (proto.typeName m).length ++ (proto.typeName m ++ proto.serialize m))

/-- the bytes that go over the wire -/
def wireLen (total : ℕ) (base64 : Bool) : ℕ := if base64 then 4 * ((total + 2) / 3) else total

/-- the bytes that the receiver writes -/
def clearedLen (total : ℕ) (base64 : Bool) : ℕ :=
  if base64 then 4 * ((total + 2) / 3) * 3 / 4 else total

/-- **The buffers hold the message**: the one it is encoded in, if it is, and the receiver's. -/
def Fits (length encodeLength recvLength : UInt32) (m : M) (base64 : Bool) : Prop :=
  let total := 8 + (proto.typeName m).length + (proto.serialize m).length
  (base64 = true → wireLen total true + 1 ≤ (bufferLength encodeLength (sendLength proto length m * 2)).toNat) ∧
    clearedLen total base64 ≤ (bufferLength recvLength (UInt32.ofNat (wireLen total base64) + 1)).toNat

/-- What the protobuf library promises: a type has a name, and its parser reads what it has serialized. -/
structure Protobuf.Inverse : Prop where
  name : ∀ m, proto.typeName m ≠ []
  parser : ∀ m, ∃ parse, proto.parser (proto.typeName m) = some parse ∧ parse (proto.serialize m) = some m

theorem length_envelope (m : M) (flag : UInt32) :
    (envelope proto m flag).length = 8 + (proto.typeName m).length + (proto.serialize m).length := by
  simp only [envelope, List.length_append, length_leBytes]
  omega

theorem write_eq_some_iff {maxLength : UInt32} {buff item buff' : Bytes} :
    write maxLength buff item = some buff' ↔ buff ++ item = buff' ∧ buff.length + item.length < maxLength.toNat := by
  rw [write]
  split_ifs with h
  · exact iff_of_false (fun hsome => nomatch hsome) fun hlt => h.not_gt hlt.2
  · rw [Option.some.injEq, and_iff_left (not_le.1 h)]

/-- a push that returns true has room for the whole envelope -/
theorem push_of_returned {length encodeLength flag : UInt32} {m : M} {base64 : Bool}
    (h : (pushProtocMessage proto length encodeLength m flag base64).Returned) :
    (envelope proto m flag).length < (sendLength proto length m).toNat ∧
      pushProtocMessage proto length encodeLength m flag base64 =
        finallyBuff encodeLength (sendLength proto length m) (envelope proto m flag) base64 := by
  rw [pushProtocMessage] at h ⊢
  cases hhead : writeHead (sendLength proto length m) flag (proto.typeName m) with
  | none =>
    rw [hhead] at h
    exact h.elim
  | some buff =>
    rw [hhead] at h
    dsimp only at h ⊢
    obtain ⟨buff1, h1, hhead⟩ := Option.bind_eq_some_iff.1 hhead
    obtain ⟨buff2, h2, h3⟩ := Option.bind_eq_some_iff.1 hhead
    obtain ⟨rfl, -⟩ := write_eq_some_iff.1 h1
    obtain ⟨rfl, -⟩ := write_eq_some_iff.1 h2
    obtain ⟨rfl, -⟩ := write_eq_some_iff.1 h3
    have henvelope : [] ++ leBytes 4 flag.toNat ++ leBytes 4 (proto.typeName m).length ++ proto.typeName m ++
        proto.serialize m = envelope proto m flag := by
      simp only [envelope, List.nil_append, List.append_assoc]
    split_ifs at h with hrefused hassert
    · exact h.elim
    · exact h.elim
    · rw [if_neg hrefused, if_neg hassert, henvelope]
      rw [← List.length_append, henvelope] at hassert
      exact ⟨not_le.1 hassert, rfl⟩

/-- with room for the whole envelope the push gets to its end -/
theorem push_of_room {length flag : UInt32} {m : M}
    (hroom : (envelope proto m flag).length < (sendLength proto length m).toNat)
    (encodeLength : UInt32) (base64 : Bool) : pushProtocMessage proto length encodeLength m flag base64 =
      finallyBuff encodeLength (sendLength proto length m) (envelope proto m flag) base64 := by
  have hlength := length_envelope proto m flag
  have hhead : writeHead (sendLength proto length m) flag (proto.typeName m) =
      some (leBytes 4 flag.toNat ++ leBytes 4 (proto.typeName m).length ++ proto.typeName m) := by
    refine Option.bind_eq_some_iff.2 ⟨_, write_eq_some_iff.2 ⟨rfl, ?_⟩, ?_⟩
    · rw [length_leBytes, List.length_nil]
      omega
    · refine Option.bind_eq_some_iff.2 ⟨_, write_eq_some_iff.2 ⟨rfl, ?_⟩, ?_⟩
      · simp only [List.length_append, length_leBytes, List.length_nil]
        omega
      · refine write_eq_some_iff.2 ⟨rfl, ?_⟩
        simp only [List.length_append, length_leBytes, List.length_nil]
        omega
  have henvelope : leBytes 4 flag.toNat ++ leBytes 4 (proto.typeName m).length ++ proto.typeName m ++
      proto.serialize m = envelope proto m flag := by
    simp only [envelope, List.append_assoc]
  rw [pushProtocMessage, hhead]
  dsimp only
  rw [← List.length_append, henvelope, if_neg _, if_neg hroom.not_ge]
  simp only [List.length_append, length_leBytes]
  omega

/-- what is sent, when it can be encoded -/
theorem finallyBuff_eq_sent_iff (encodeLength maxLength : UInt32) (buff : Bytes) (base64 : Bool) (data : Bytes) :
    finallyBuff encodeLength maxLength buff base64 = .sent data ↔
      (base64 = true → wireLen buff.length true + 1 ≤ (bufferLength encodeLength (maxLength * 2)).toNat) ∧
        data = if base64 then base64Encode buff else buff := by
  cases base64 with
  | false =>
    rw [finallyBuff, if_neg Bool.false_ne_true, Pushed.sent.injEq]
    simp [eq_comm]
  | true =>
    -- the encoded text has no zero byte
    have hstr : (base64Encode buff ++ [0]).takeWhile (· ≠ 0) = base64Encode buff := by
      rw [List.takeWhile_append_of_pos]
      · simp
      · intro c hc
        have hne : c ≠ 0 := ne_of_mem_of_not_mem hc (zero_notMem_encode buff)
        simpa using hne
    rw [finallyBuff, if_pos rfl, if_pos rfl]
    dsimp only
    rw [hstr, length_base64Encode]
    split_ifs with hroom
    · rw [Pushed.sent.injEq, eq_comm]
      exact (and_iff_right fun _ => hroom).symm
    · exact iff_of_false (fun h => nomatch h) fun h => hroom (h.1 rfl)

variable {proto} in
/-- the receiver reads the fields where they were written -/
theorem parsePacket_envelope (hproto : proto.Inverse) {m : M} (hname : (proto.typeName m).length < 2 ^ 32)
    (flag : UInt32) : parsePacket proto { buff := envelope proto m flag } = .called m flag := by
  have hpos : 0 < (proto.typeName m).length := List.length_pos_of_ne_nil (hproto.name m)
  have hlength := length_envelope proto m flag
  obtain ⟨parse, hparser, hparse⟩ := hproto.parser m
  have hflag : UInt32.ofNat (leNat (((envelope proto m flag).drop 0).take 4)) = flag := by
    have hword : word 4 0 (envelope proto m flag) = flag.toNat := word_append (a := []) rfl flag.toNat_lt _
    rw [word] at hword
    rw [hword, UInt32.ofNat_toNat]
  have hnameLen : leNat (((envelope proto m flag).drop 4).take 4) = (proto.typeName m).length :=
    word_append (length_leBytes 4 _) hname _
  have hrest : (envelope proto m flag).drop 8 = proto.typeName m ++ proto.serialize m := by
    rw [envelope, ← List.append_assoc]
    refine List.drop_left' ?_
    rw [List.length_append, length_leBytes, length_leBytes]
  have hbody : (envelope proto m flag).drop (8 + (proto.typeName m).length) = proto.serialize m := by
    rw [← List.drop_drop, hrest, List.drop_left]
  rw [parsePacket, read_some (by dsimp only; omega)]
  dsimp only
  rw [if_neg (by omega), read_some (by dsimp only; omega)]
  dsimp only
  rw [if_neg (by omega), hflag, hnameLen, parseNamed, if_neg (by dsimp only; omega), if_neg (by dsimp only; omega)]
  dsimp only
  rw [hrest, List.take_left, hparser]
  dsimp only
  rw [hbody, hparse]

variable {proto} in
/-- **The envelope arrives exactly when the buffers hold it.** -/
theorem envelope_iff (hproto : proto.Inverse) (temp1 : Temp) {length encodeLength : UInt32}
    (recvLength : UInt32) {m : M}
    {flag : UInt32} {base64 : Bool} (hpush : (pushProtocMessage proto length encodeLength m flag base64).Returned) :
    (∃ data, pushProtocMessage proto length encodeLength m flag base64 = .sent data ∧
      parseProtocmessage proto temp1 recvLength data base64 = .called m flag) ↔
        Fits proto length encodeLength recvLength m base64 := by
  obtain ⟨hroom, hpush⟩ := push_of_returned proto hpush
  have hlength := length_envelope proto m flag
  have hlt : (sendLength proto length m).toNat < 2 ^ 32 := (sendLength proto length m).toNat_lt
  have hparsed := parsePacket_envelope hproto (m := m) (by omega) flag
  have hreceived :
    received temp1 (if base64 then base64Encode (envelope proto m flag) else envelope proto m flag) base64 =
      envelope proto m flag := by
    cases base64 with
    | false => rfl
    | true => exact base64Decode_encode temp1 _
  have hwire : (if base64 then base64Encode (envelope proto m flag) else envelope proto m flag).length =
      wireLen (envelope proto m flag).length base64 := by
    cases base64 with
    | false => rfl
    | true => exact length_base64Encode _
  have hwritten : writtenLen (if base64 then base64Encode (envelope proto m flag) else envelope proto m flag) base64 =
      clearedLen (envelope proto m flag).length base64 := by
    cases base64 with
    | false => rfl
    | true =>
      rw [writtenLen, hwire]
      rfl
  have hne : (if base64 then base64Encode (envelope proto m flag) else envelope proto m flag).length ≠ 0 := by
    rw [hwire]
    cases base64 with
    | false => exact fun h => absurd (h.symm.trans hlength) (by omega)
    | true =>
      rw [wireLen, if_pos rfl]
      omega
  have hfits :
    RecvFits recvLength (if base64 then base64Encode (envelope proto m flag) else envelope proto m flag) base64 ↔
      clearedLen (envelope proto m flag).length base64 ≤
        (bufferLength recvLength (UInt32.ofNat (wireLen (envelope proto m flag).length base64) + 1)).toNat := by
    rw [RecvFits, hwritten, hwire]
  rw [Fits, ← hlength, ← hfits, hpush]
  constructor
  · rintro ⟨data, hsent, hcalled⟩
    obtain ⟨hencode, rfl⟩ := (finallyBuff_eq_sent_iff _ _ _ _ _).1 hsent
    refine ⟨hencode, ?_⟩
    by_contra hover
    rw [parseProtocmessage, if_neg hne, if_neg hover] at hcalled
    exact nomatch hcalled
  · rintro ⟨hencode, hrecv⟩
    refine ⟨_, (finallyBuff_eq_sent_iff _ _ _ _ _).2 ⟨hencode, rfl⟩, ?_⟩
    rw [parseProtocmessage, if_neg hne, if_pos hrecv, hreceived, hparsed]

theorem envelope_short : ∃ data, pushProtocMessage shortMessage 0 0 () 7 true = .sent data ∧
    parseProtocmessage shortMessage ⟨0, 0, 0, 0⟩ 0 data true = .called () 7 := by
  have hproto : shortMessage.Inverse := ⟨fun _ => List.cons_ne_nil _ _, fun _ => ⟨_, rfl, rfl⟩⟩
  refine (envelope_iff hproto ⟨0, 0, 0, 0⟩ 0 (m := ()) ?_).2 ⟨fun _ => ?_, ?_⟩
  · rw [push_of_room shortMessage (by decide)]
    trivial
  · decide
  · decide

/-- a message of 28633110 bytes -/
def longMessage : Protobuf Unit where
  typeName _ := [65]
  serialize _ := List.replicate 28633110 0
  parser name := if name = [65] then some fun _ => some () else none

/-- It is sent, but the buffer that the receiver gets for it has seven bytes. -/
theorem envelope_too_long :
    pushProtocMessage longMessage 0 0 () 7 false = .sent (envelope longMessage () 7) ∧
      parseProtocmessage longMessage ⟨0, 0, 0, 0⟩ 0 (envelope longMessage () 7) false = .overrun := by
  have hbody : (longMessage.serialize ()).length = 28633110 := List.length_replicate
  have hlength : (envelope longMessage () 7).length = 28633119 := by
    rw [length_envelope, hbody]
    rfl
  have hsend : sendLength longMessage 0 () = 42949672 := by
    rw [sendLength, hbody]
    decide
  have hover : ¬RecvFits 0 (envelope longMessage () 7) false := by
    rw [RecvFits, writtenLen, hlength]
    decide
  refine ⟨?_, ?_⟩
  · rw [push_of_room longMessage (by rw [hlength, hsend]; decide)]
    rfl
  · rw [parseProtocmessage, hlength, if_neg (by decide), if_neg hover]

/-! ## Sizes -/

/-- the length asked for, as long as `maxlen * 150` does not wrap -/
theorem le_bufferLength (length : UInt32) {maxlen : UInt32} (h : maxlen.toNat < 28633116) :
    maxlen.toNat ≤ (bufferLength length maxlen).toNat := by
  rw [bufferLength]
  split_ifs with hless hdefault
  · exact (UInt32.lt_iff_toNat_lt.1 hdefault).le
  · rw [UInt32.toNat_div, UInt32.toNat_mul]
    have h150 : (150 : UInt32).toNat = 150 := rfl
    have h100 : (100 : UInt32).toNat = 100 := rfl
    rw [h150, h100, Nat.mod_eq_of_lt (by omega)]
    omega
  · exact not_lt.1 fun hlt => hless (UInt32.lt_iff_toNat_lt.2 hlt)

theorem le_bufferLength_succ (length : UInt32) {n : ℕ} (h : n + 1 < 28633116) :
    n + 1 ≤ (bufferLength length (UInt32.ofNat n + 1)).toNat := by
  have hn : n < UInt32.size := (Nat.lt_of_succ_lt h).trans (by decide)
  have hone : (1 : UInt32).toNat = 1 := rfl
  have hsucc : (UInt32.ofNat n + 1).toNat = n + 1 := by
    rw [UInt32.toNat_add, UInt32.toNat_ofNat_of_lt' hn, hone, Nat.mod_eq_of_lt (by omega)]
  exact hsucc.ge.trans (le_bufferLength length (by omega))

/-- **The buffers hold every message** whose send buffer is shorter than 14316558 bytes. -/
theorem fits_of_lt {length encodeLength flag : UInt32} {m : M} {base64 : Bool}
    (hpush : (pushProtocMessage proto length encodeLength m flag base64).Returned) (recvLength : UInt32)
    (hshort : (sendLength proto length m).toNat < 14316558) : Fits proto length encodeLength recvLength m base64 := by
  obtain ⟨hroom, -⟩ := push_of_returned proto hpush
  rw [length_envelope] at hroom
  have htwo : (2 : UInt32).toNat = 2 := rfl
  have hdouble : (sendLength proto length m * 2).toNat = (sendLength proto length m).toNat * 2 := by
    rw [UInt32.toNat_mul, htwo, Nat.mod_eq_of_lt (by omega)]
  have hencode := (le_bufferLength encodeLength (by omega) :
    (sendLength proto length m * 2).toNat ≤ _)
  rw [Fits]
  refine ⟨fun _ => ?_, ?_⟩
  · rw [wireLen, if_pos rfl]
    omega
  · cases base64 with
    | false =>
      have hrecv := le_bufferLength_succ recvLength
        (n := 8 + (proto.typeName m).length + (proto.serialize m).length) (by omega)
      exact (Nat.le_succ _).trans hrecv
    | true =>
      have hrecv := le_bufferLength_succ recvLength
        (n := 4 * ((8 + (proto.typeName m).length + (proto.serialize m).length + 2) / 3)) (by omega)
      rw [clearedLen, wireLen, if_pos rfl, if_pos rfl]
      omega

end DreamHeroes.Envelope

/-
What `tcp_session::send_message` makes of a payload, and what the receiver makes of that. The limits stand in different
places: `send_message` takes up to 64999 bytes, the header adds ten, and 65000 is all that a batch and the receiver
take. A body of one byte gets no header.

- `sendMessage`: the three ways to a frame. `compressSendTask` carries the length in an `unsigned short`.
- `Carries`: the frame goes into a batch, passes the test of its length, and is decoded to the payload.
- `carries_makeMessage_iff`: the bodies that arrive have 2 to 64990 bytes.
- `frame_codec_iff`: the same of a payload, compressed or not.
-/
import Mathlib.Tactic
import DreamHeroes.Net.Message

namespace DreamHeroes.Wire

open DreamHeroes.Lib DreamHeroes.Crypt

variable (cs : Option CompressStrategy)

/-- what `send_message` reads of the session -/
structure Sender where
  isValid : Bool := true
  isconnected : Bool := true
  /-- `m_father` is not `NULL` -/
  father : Bool := false
  iscompress : Bool := false

/-- the copy of the data in `compress_send_task` -/
def compressSendTask (data : Bytes) : Bytes := data.take (data.length % 2 ^ 16)

/-- `tcp_session::send_message`: the message that goes to `_send_message` -/
def sendMessage (s : Sender) (data : Bytes) (base64 : Bool) : Option Message :=
  if s.isValid = false ∨ s.isconnected = false ∨ data.length = 0 ∨ maxMessageLen - 1 < data.length then none
  else if s.father then
    if s.iscompress then some (compress cs (compressSendTask data) maxMessageLen base64)
    else some (makeMessage data false base64)
  else some (compress cs data maxMessageLen base64)

/-- `uncompress` gives back what has been compressed, when there is room for it -/
def CompressStrategy.Inverts (c : CompressStrategy) : Prop :=
  ∀ n m src dest, c.compress n src = some dest → src.length ≤ m → c.uncompress m dest = some src

/-- the message reaches the receiver as the payload -/
structure Carries (msg : Message) (payload : Bytes) (base64 : Bool) : Prop where
  batch : msg.data.length ≤ maxMessageLen
  framed : word 4 0 msg.data = msg.data.length
  accepted : InRange (word 4 0 msg.data)
  decoded : uncompress cs msg.data maxMessageLen = some ⟨payload, base64⟩

/-- the header leaves room for it, and it is long enough to get one -/
def BodyFits (len : ℕ) : Prop := 2 ≤ len ∧ len ≤ maxMessageLen - headLen

/-- the strategy is asked, and makes the payload shorter -/
def Shortened (s : Sender) (payload buff : Bytes) : Prop :=
  ¬(s.father = true ∧ s.iscompress = false) ∧ compressLen < payload.length ∧
    ∃ c, cs = some c ∧ c.compress maxMessageLen payload = some buff ∧ buff.length < payload.length

/-- the payload fits, or what it is shortened to does -/
def Fits (s : Sender) (payload : Bytes) : Prop :=
  (∀ buff, Shortened cs s payload buff → BodyFits buff.length) ∧
    ((∀ buff, ¬Shortened cs s payload buff) → BodyFits payload.length)

/-! ## One frame -/

/-- the mask of the header -/
def maskOf (isCompress base64 : Bool) : ℕ :=
  (if isCompress then compressMaskType else 0) ||| (if base64 then base64MaskType else 0)

theorem maskOf_base64 (isCompress base64 : Bool) :
    decide (maskOf isCompress base64 &&& base64MaskType ≠ 0) = base64 := by
  revert isCompress base64
  decide

theorem maskOf_compress (isCompress base64 : Bool) :
    maskOf isCompress base64 &&& compressMaskType ≠ 0 ↔ isCompress = true := by
  revert isCompress base64
  decide

theorem maskOf_lt (isCompress base64 : Bool) : maskOf isCompress base64 < 256 ^ 2 := by
  revert isCompress base64
  decide

section

variable {data : Bytes} (hlong : 1 < data.length) (isCompress base64 : Bool)
include hlong

theorem makeMessage_long : makeMessage data isCompress base64 =
    ⟨leBytes 4 (data.length + headLen) ++ (leBytes 2 (maskOf isCompress base64) ++
      (leBytes 4 (crc32 0 data).toNat ++ data)), base64⟩ := if_pos hlong

theorem makeMessage_drop : (makeMessage data isCompress base64).data.drop headLen = data := by
  have hhead : (leBytes 4 (data.length + headLen) ++ (leBytes 2 (maskOf isCompress base64) ++
      leBytes 4 (crc32 0 data).toNat)).length = headLen := by
    simp only [List.length_append, length_leBytes]
    rfl
  rw [makeMessage_long hlong, ← hhead]
  simp only [← List.append_assoc]
  exact List.drop_left

theorem makeMessage_mask :
    word 2 headMaskBegin (makeMessage data isCompress base64).data = maskOf isCompress base64 := by
  rw [makeMessage_long hlong]
  exact word_append (length_leBytes 4 _) (maskOf_lt _ _) _

theorem makeMessage_checksum :
    UInt32.ofNat (word 4 headBasicBegin (makeMessage data isCompress base64).data) = crc32 0 data := by
  have hhead : (leBytes 4 (data.length + headLen) ++ leBytes 2 (maskOf isCompress base64)).length = headBasicBegin := by
    rw [List.length_append, length_leBytes, length_leBytes]
    rfl
  rw [makeMessage_long hlong]
  dsimp only
  rw [← List.append_assoc, word_append hhead (crc32 0 data).toNat_lt]
  exact UInt32.ofNat_toNat

theorem makeMessage_word (hshort : data.length < 2 ^ 32 - headLen) :
    word 4 0 (makeMessage data isCompress base64).data = data.length + headLen := by
  have hlt : data.length + headLen < 256 ^ 4 := by
    rw [headLen] at hshort ⊢
    omega
  rw [makeMessage_long hlong]
  exact word_append (a := []) rfl hlt _

end

theorem makeMessage_length (data : Bytes) (isCompress base64 : Bool) :
    (makeMessage data isCompress base64).data.length = data.length + headLen := by
  by_cases hlong : 1 < data.length
  · rw [makeMessage_long hlong]
    simp only [List.length_append, length_leBytes, headLen]
    omega
  · rw [makeMessage, if_neg hlong]
    dsimp only
    rw [List.length_append, List.length_replicate, Nat.add_comm]

/-- what the receiver does with the body -/
def Opens (isCompress : Bool) (data payload : Bytes) : Prop :=
  if isCompress then ∃ c, cs = some c ∧ c.uncompress maxMessageLen data = some payload else data = payload

variable {cs} in
theorem decode_makeMessage {data payload : Bytes} (hlong : 1 < data.length) {isCompress : Bool}
    (hopens : Opens cs isCompress data payload) (base64 : Bool) :
    decode cs (makeMessage data isCompress base64).data = some payload := by
  have hmask : word 2 headMaskBegin (makeMessage data isCompress base64).data &&& compressMaskType ≠ 0 ↔
      isCompress = true := by
    rw [makeMessage_mask hlong]
    exact maskOf_compress isCompress base64
  cases isCompress with
  | true =>
    obtain ⟨c, rfl, hc⟩ : ∃ c, cs = some c ∧ c.uncompress maxMessageLen data = some payload := hopens
    rw [decode, if_pos (hmask.2 rfl), makeMessage_drop hlong]
    exact hc
  | false =>
    have hdata : data = payload := hopens
    cases cs with
    | none => rw [decode, makeMessage_drop hlong, hdata]
    | some c =>
      rw [decode, if_neg fun h => Bool.false_ne_true (hmask.1 h), makeMessage_drop hlong, hdata]

variable {cs} in
/-- **The bodies that arrive.** -/
theorem carries_makeMessage_iff {data payload : Bytes} {isCompress : Bool} (hshort : data.length < maxMessageLen)
    (hopens : Opens cs isCompress data payload) (base64 : Bool) :
    Carries cs (makeMessage data isCompress base64) payload base64 ↔ BodyFits data.length := by
  constructor
  · intro h
    refine ⟨?_, ?_⟩
    · by_contra hone
      -- the header is all zeros
      have hzero : word 4 0 (makeMessage data isCompress base64).data = 0 := by
        rw [makeMessage, if_neg (by omega)]
        exact (word_append_left (a := List.replicate headLen 0) (by decide) data).trans (by decide)
      exact absurd (hzero ▸ h.accepted.1) (by decide)
    · have hbatch := h.batch
      rw [makeMessage_length] at hbatch
      omega
  · rintro ⟨htwo, hfits⟩
    have hlong : 1 < data.length := htwo
    have hword := makeMessage_word hlong isCompress base64 (hshort.trans (by decide))
    have hlength := makeMessage_length data isCompress base64
    rw [maxMessageLen, headLen] at hfits
    have hrange : InRange (makeMessage data isCompress base64).data.length := by
      rw [hlength, InRange, headLen, maxMessageLen]
      omega
    refine ⟨hrange.2, hword.trans hlength.symm, hword.trans hlength.symm ▸ hrange, ?_⟩
    rw [uncompress_eq cs hrange (hword.trans hlength.symm), makeMessage_drop hlong, makeMessage_checksum hlong,
      if_pos rfl, decode_makeMessage hlong hopens, base64Of, makeMessage_mask hlong, maskOf_base64]
    rfl

/-! ## Payloads -/

/-- there is no strategy -/
theorem not_shortened {s : Sender} {payload : Bytes} (buff : Bytes) : ¬Shortened none s payload buff := by
  rintro ⟨-, -, c, hc, -⟩
  exact nomatch hc

variable {cs} in
/-- what `message_interface::compress` makes of a payload -/
theorem compress_cases {s : Sender} (hway : ¬(s.father = true ∧ s.iscompress = false)) (payload : Bytes)
    (base64 : Bool) :
    (∃ buff, Shortened cs s payload buff ∧ compress cs payload maxMessageLen base64 = makeMessage buff true base64) ∨
      (∀ buff, ¬Shortened cs s payload buff) ∧
        compress cs payload maxMessageLen base64 = makeMessage payload false base64 := by
  cases cs with
  | none => exact Or.inr ⟨not_shortened, rfl⟩
  | some c =>
    rw [compress]
    by_cases hlong : compressLen < payload.length
    · rw [if_pos hlong]
      cases hbuff : c.compress maxMessageLen payload with
      | none =>
        refine Or.inr ⟨?_, rfl⟩
        rintro buff ⟨-, -, c', hc, hsome, -⟩
        cases hc
        exact nomatch hbuff.symm.trans hsome
      | some buff =>
        dsimp only
        split_ifs with hless
        · exact Or.inl ⟨buff, ⟨hway, hlong, c, rfl, hbuff, hless⟩, rfl⟩
        · refine Or.inr ⟨?_, rfl⟩
          rintro buff' ⟨-, -, c', hc, hsome, hless'⟩
          cases hc
          cases hbuff.symm.trans hsome
          exact hless hless'
    · rw [if_neg hlong]
      exact Or.inr ⟨fun buff h => hlong h.2.1, rfl⟩

variable {cs} in
/-- what `send_message` makes of a payload it takes -/
theorem sendMessage_cases {s : Sender} {payload : Bytes} {base64 : Bool} {msg : Message}
    (hsend : sendMessage cs s payload base64 = some msg) : payload.length < maxMessageLen ∧
      ((∃ buff, Shortened cs s payload buff ∧ msg = makeMessage buff true base64) ∨
        (∀ buff, ¬Shortened cs s payload buff) ∧ msg = makeMessage payload false base64) := by
  rw [sendMessage] at hsend
  by_cases hguard : s.isValid = false ∨ s.isconnected = false ∨ payload.length = 0 ∨ maxMessageLen - 1 < payload.length
  · rw [if_pos hguard] at hsend
    cases hsend
  · rw [if_neg hguard] at hsend
    have hshort : payload.length < maxMessageLen := by
      have hle : ¬maxMessageLen - 1 < payload.length := fun h => hguard (Or.inr (Or.inr (Or.inr h)))
      rw [maxMessageLen] at hle ⊢
      omega
    refine ⟨hshort, ?_⟩
    -- the length of the payload fits into an `unsigned short`
    have htask : compressSendTask payload = payload := by
      rw [compressSendTask, Nat.mod_eq_of_lt (hshort.trans (by decide)), List.take_length]
    cases hfather : s.father with
    | false =>
      rw [hfather] at hsend
      cases hsend
      exact compress_cases (by rw [hfather]; exact fun h => Bool.false_ne_true h.1) payload base64
    | true =>
      cases hcompress : s.iscompress with
      | false =>
        rw [hfather, hcompress] at hsend
        cases hsend
        exact Or.inr ⟨fun buff h => h.1 ⟨hfather, hcompress⟩, rfl⟩
      | true =>
        rw [hfather, hcompress, htask] at hsend
        cases hsend
        exact compress_cases (by rw [hcompress]; exact fun h => Bool.noConfusion h.2) payload base64

variable {cs} in
/-- **A payload arrives exactly when it fits.** -/
theorem frame_codec_iff (hcs : ∀ c, cs = some c → c.Inverts) {s : Sender} {payload : Bytes} {base64 : Bool}
    {msg : Message} (hsend : sendMessage cs s payload base64 = some msg) :
    Carries cs msg payload base64 ↔ Fits cs s payload := by
  obtain ⟨hshort, ⟨buff, hbuff, rfl⟩ | ⟨hnone, rfl⟩⟩ := sendMessage_cases hsend
  · obtain ⟨-, -, c, hc, hcompress, hless⟩ := id hbuff
    have hopens : Opens cs true buff payload := ⟨c, hc, hcs c hc _ _ _ _ hcompress hshort.le⟩
    rw [carries_makeMessage_iff (hless.trans hshort) hopens]
    refine ⟨fun hfits => ⟨?_, fun hnone => absurd hbuff (hnone buff)⟩, fun hfits => hfits.1 buff hbuff⟩
    rintro buff' ⟨-, -, c', hc', hcompress', -⟩
    cases hc.symm.trans hc'
    cases hcompress.symm.trans hcompress'
    exact hfits
  · have hopens : Opens cs false payload payload := rfl
    rw [carries_makeMessage_iff hshort hopens]
    exact ⟨fun hfits => ⟨fun buff hbuff => absurd hbuff (hnone buff), fun _ => hfits⟩, fun hfits => hfits.2 hnone⟩

def zeros : Bytes := List.replicate 600 0

theorem length_zeros : zeros.length = 600 := List.length_replicate

/-- a strategy that leaves out 600 zeros in front -/
def zeroRun : CompressStrategy where
  compress _ src := if src.take 600 = zeros then some (src.drop 600) else none
  uncompress _ src := some (zeros ++ src)

theorem zeroRun_inverts : zeroRun.Inverts := by
  intro n m src dest hcompress _
  rw [zeroRun] at hcompress ⊢
  dsimp only at hcompress ⊢
  split_ifs at hcompress with hzeros
  cases hcompress
  rw [← hzeros, List.take_append_drop]

theorem zeroRun_compress (n : ℕ) (src : Bytes) : zeroRun.compress n (zeros ++ src) = some src := by
  rw [zeroRun]
  dsimp only
  rw [if_pos (List.take_left' length_zeros), List.drop_left' length_zeros]

/-- 602 bytes of which two are left -/
theorem frame_codec_zeros : Carries (some zeroRun) (makeMessage [65, 66] true true) (zeros ++ [65, 66]) true := by
  have hcs : ∀ c, some zeroRun = some c → c.Inverts := by
    rintro c ⟨⟩
    exact zeroRun_inverts
  have hlength : (zeros ++ [65, 66]).length = 602 := by rw [List.length_append, length_zeros]; rfl
  have hlong : compressLen < (zeros ++ [65, 66]).length := by rw [hlength]; decide
  have hshort : [65, 66].length < (zeros ++ [65, 66]).length := by rw [hlength]; decide
  have hcompress : compress (some zeroRun) (zeros ++ [65, 66]) maxMessageLen true = makeMessage [65, 66] true true := by
    rw [compress, if_pos hlong, zeroRun_compress]
    exact if_pos hshort
  refine (frame_codec_iff (s := {}) hcs ?_).2 ?_
  · rw [sendMessage, hlength, if_neg (by decide), hcompress]
    rfl
  · refine ⟨?_, fun hnone => absurd ⟨by decide, hlong, zeroRun, rfl, zeroRun_compress _ _, hshort⟩ (hnone [65, 66])⟩
    rintro buff ⟨-, -, c, ⟨⟩, hsome, -⟩
    cases (zeroRun_compress _ _).symm.trans hsome
    exact ⟨by decide, by decide⟩

/-- one byte gets no header; 64991 bytes make a frame that is too long -/
theorem short_and_long_frame :
    (∃ msg, sendMessage none {} [65] false = some msg ∧ ¬Carries none msg [65] false) ∧
      ∃ msg, sendMessage none {} (List.replicate 64991 65) false = some msg ∧
        ¬Carries none msg (List.replicate 64991 65) false := by
  refine ⟨⟨makeMessage [65] false false, rfl, fun h => ?_⟩,
    ⟨makeMessage (List.replicate 64991 65) false false, ?_, fun h => ?_⟩⟩
  · exact absurd h.accepted.1 (by decide)
  · rw [sendMessage, List.length_replicate, if_neg (by decide)]
    rfl
  · have hbatch := h.batch
    rw [makeMessage_length, List.length_replicate] at hbatch
    exact absurd hbatch (by decide)

end DreamHeroes.Wire

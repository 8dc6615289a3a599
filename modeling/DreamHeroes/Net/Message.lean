/-
Messages and their frames (`common/message_interface.cpp`). A frame has a header of ten bytes: its length in four, a
mask in two, the checksum of what follows in four.

- `uncompress`, `compress`, `makeMessage` under the source's names. `CompressStrategy` is the interface the servers are
  given, if they are given one; the first argument is the room at the destination.
- `Valid f`: a frame with the right length and checksum, whose body the receiver can decode. `message f` is what it
  holds; `uncompress_valid` is the receiver on a buffer that starts with it.
- `uncompress_take`: no byte behind the frame is read.

The length is read from the buffer the message stands in. The message carries `from` for the dispatch only, and is left
without it.
-/
import Mathlib.Tactic
import DreamHeroes.Common.Crypt
import DreamHeroes.Lib.Bytes

namespace DreamHeroes.Wire

open DreamHeroes.Lib DreamHeroes.Crypt

abbrev Bytes := List UInt8

def headMaskBegin : ℕ := 4
def headBasicBegin : ℕ := 6
def headLen : ℕ := 10
def compressLen : ℕ := 512
def maxMessageLen : ℕ := 65000

def base64MaskType : ℕ := 1 <<< 2
def compressMaskType : ℕ := 1 <<< 15

/-- `message_t`; its `len` is the length of `data` -/
structure Message where
  data : Bytes
  base64 : Bool
deriving DecidableEq, Repr

/-- `compress_strategy`: what is written to the destination, or that it failed -/
structure CompressStrategy where
  compress : (destlen : ℕ) → (src : Bytes) → Option Bytes
  uncompress : (destlen : ℕ) → (src : Bytes) → Option Bytes

variable (cs : Option CompressStrategy)

/-! ## The source -/

/-- a difference of `unsigned int` -/
def u32Sub (a b : ℕ) : ℕ := (a + 2 ^ 32 - b) % 2 ^ 32

/-- `message_interface::uncompress`; `data` is the memory from the pointer on -/
def uncompress (data : Bytes) (size : ℕ) : Option Message :=
  let datalen := word 4 0 data
  if datalen ≤ headMaskBegin then none
  else
    let type := word 2 headMaskBegin data
    let checksum := word 4 headBasicBegin data
    let body := (data.drop headLen).take (u32Sub datalen headLen)
    if UInt32.ofNat checksum = crc32 0 body then
      let base64 := decide (type &&& base64MaskType ≠ 0)
      match cs with
      | some cs =>
        if type &&& compressMaskType ≠ 0 then (cs.uncompress size body).map fun dest => ⟨dest, base64⟩
        else some ⟨body, base64⟩
      | none => some ⟨body, base64⟩
    else none

/-- `message_interface::makeMessage`: a body of one byte or none gets no header -/
def makeMessage (data : Bytes) (isCompress base64 : Bool) : Message :=
  let lenMax := data.length + headLen
  let mask := (if isCompress then compressMaskType else 0) ||| (if base64 then base64MaskType else 0)
  if 1 < data.length then
    ⟨leBytes 4 lenMax ++ (leBytes 2 mask ++ (leBytes 4 (crc32 0 data).toNat ++ data)), base64⟩
  else ⟨List.replicate headLen 0 ++ data, base64⟩

/-- `message_interface::compress` -/
def compress (data : Bytes) (size : ℕ) (base64 : Bool) : Message :=
  match cs with
  | some cs =>
    if compressLen < data.length then
      match cs.compress size data with
      | some buff => if buff.length < data.length then makeMessage buff true base64 else makeMessage data false base64
      | none => makeMessage data false base64
    else makeMessage data false base64
  | none => makeMessage data false base64

/-- the test of a received length in `handle_read_some` -/
def InRange (len : ℕ) : Prop := headLen ≤ len ∧ len ≤ maxMessageLen

instance decidableInRange (len : ℕ) : Decidable (InRange len) := inferInstanceAs (Decidable (_ ∧ _))

/-! ## Frames -/

def base64Of (f : Bytes) : Bool := decide (word 2 headMaskBegin f &&& base64MaskType ≠ 0)

/-- what the receiver makes of the body -/
def decode (f : Bytes) : Option Bytes :=
  match cs with
  | some cs =>
    if word 2 headMaskBegin f &&& compressMaskType ≠ 0 then cs.uncompress maxMessageLen (f.drop headLen)
    else some (f.drop headLen)
  | none => some (f.drop headLen)

structure Valid (f : Bytes) : Prop where
  range : InRange f.length
  length : word 4 0 f = f.length
  checksum : UInt32.ofNat (word 4 headBasicBegin f) = crc32 0 (f.drop headLen)
  decodes : (decode cs f).isSome

/-- the message of a frame -/
def message (f : Bytes) : Message := ⟨(decode cs f).getD [], base64Of f⟩

theorem u32Sub_eq {a b : ℕ} (ha : a < 2 ^ 32) (h : b ≤ a) : u32Sub a b = a - b := by
  rw [u32Sub]
  omega

/-- **No byte behind the frame is read.** -/
theorem uncompress_take {data : Bytes} (h : InRange (word 4 0 data)) (size : ℕ) :
    uncompress cs (data.take (word 4 0 data)) size = uncompress cs data size := by
  obtain ⟨hlow, hhigh⟩ := h
  rw [headLen] at hlow
  rw [maxMessageLen] at hhigh
  have hlen : word 4 0 (data.take (word 4 0 data)) = word 4 0 data := word_take (by omega) data
  have htype : word 2 headMaskBegin (data.take (word 4 0 data)) = word 2 headMaskBegin data :=
    word_take (by rw [headMaskBegin]; omega) data
  have hsum : word 4 headBasicBegin (data.take (word 4 0 data)) = word 4 headBasicBegin data :=
    word_take (by rw [headBasicBegin]; omega) data
  have hsub : u32Sub (word 4 0 data) headLen = word 4 0 data - headLen :=
    u32Sub_eq (by omega) (by rw [headLen]; omega)
  have hbody : ((data.take (word 4 0 data)).drop headLen).take (word 4 0 data - headLen) =
      (data.drop headLen).take (word 4 0 data - headLen) := by rw [List.drop_take, List.take_take, min_self]
  simp only [uncompress, hlen, htype, hsum, hsub, hbody]

theorem uncompress_eq {f : Bytes} (hrange : InRange f.length) (hlen : word 4 0 f = f.length) :
    uncompress cs f maxMessageLen =
      if UInt32.ofNat (word 4 headBasicBegin f) = crc32 0 (f.drop headLen) then
        (decode cs f).map fun dest => ⟨dest, base64Of f⟩
      else none := by
  obtain ⟨hlow, hhigh⟩ := hrange
  have hmask : ¬f.length ≤ headMaskBegin := by rw [headMaskBegin]; rw [headLen] at hlow; omega
  have hbody : (f.drop headLen).take (u32Sub f.length headLen) = f.drop headLen := by
    rw [u32Sub_eq (by rw [maxMessageLen] at hhigh; omega) hlow, List.take_of_length_le (by rw [List.length_drop])]
  simp only [uncompress, hlen, hbody, if_neg hmask]
  refine if_congr Iff.rfl ?_ rfl
  cases cs with
  | none => rfl
  | some c =>
    simp only [decode]
    split_ifs <;> rfl

/-- the receiver accepts the valid frames, and no others -/
theorem uncompress_isSome_iff {f : Bytes} (hrange : InRange f.length) (hlen : word 4 0 f = f.length) :
    (uncompress cs f maxMessageLen).isSome ↔ Valid cs f := by
  rw [uncompress_eq cs hrange hlen]
  constructor
  · intro h
    split_ifs at h with hsum
    · exact ⟨hrange, hlen, hsum, by rwa [Option.isSome_map] at h⟩
    · exact absurd h Bool.false_ne_true
  · intro h
    rw [if_pos h.checksum, Option.isSome_map]
    exact h.decodes

theorem uncompress_valid {f : Bytes} (h : Valid cs f) : uncompress cs f maxMessageLen = some (message cs f) := by
  rw [uncompress_eq cs h.range h.length, if_pos h.checksum]
  obtain ⟨dest, hdest⟩ := Option.isSome_iff_exists.1 h.decodes
  rw [message, hdest]
  rfl

end DreamHeroes.Wire

/-
The checksum of a frame, as `common/crypt.cpp` computes it: the bytes are signed, the accumulator is an `unsigned long`
of 64 bits, and of the two loops one goes by eight bytes and casts nothing while the other goes by one and casts the
accumulator to `int`.

- `crc32`, `sslCrc32`, `sslChecksum` under the source's names; `none` is the null pointer.
- `crc32_eq`: while the accumulator is below `2 ^ 32`, the casts and the signs of the bytes make no difference, so that
  both loops are the fold of `Crypt.do1`.
- `bitwiseCrc32`: the reflected CRC-32, a bit at a time. `toBitVec_crc32`: it is the checksum by the table.
- `sslCrc32_bitwise`: the checksum is the CRC-32, and a payload with one byte changed does not pass for the other.
-/
import Mathlib.Tactic
import Mathlib.Data.List.GetD
import DreamHeroes.Lib.Crc
import DreamHeroes.Net.Message

namespace DreamHeroes.Checksum

open DreamHeroes.Lib

/-! ## The source -/

/-- an entry of `Crypto::crc_table`, an `unsigned long` -/
def crcTable (i : ℕ) : UInt64 := (Crypt.crcTable.getD i 0).toUInt64

/-- a `char` among `unsigned long`s -/
def extend (byte : Int8) : UInt64 := byte.toInt64.toUInt64

/-- `DO1` -/
def do1 (crc : UInt64) (byte : Int8) : UInt64 := crcTable ((crc ^^^ extend byte) &&& 0xff).toNat ^^^ (crc >>> 8)

/-- `DO8` -/
def do8 (crc : UInt64) (b0 b1 b2 b3 b4 b5 b6 b7 : Int8) : UInt64 :=
  do1 (do1 (do1 (do1 (do1 (do1 (do1 (do1 crc b0) b1) b2) b3) b4) b5) b6) b7

/-- a turn of the second loop; the index is an `int` -/
def doTail (crc : UInt64) (byte : Int8) : UInt64 :=
  crcTable ((crc.toUInt32.toInt32 ^^^ byte.toInt32) &&& 0xff).toInt.toNat ^^^ (crc >>> 8)

/-- both loops -/
def loops : UInt64 → List Int8 → UInt64
  | crc, b0 :: b1 :: b2 :: b3 :: b4 :: b5 :: b6 :: b7 :: data => loops (do8 crc b0 b1 b2 b3 b4 b5 b6 b7) data
  | crc, data => data.foldl doTail crc

/-- `ssl::crc32` -/
def crc32 (crc : UInt64) : Option (List Int8) → UInt32
  | none => 0
  | some data => (loops (crc ^^^ 0xffffffff) data ^^^ 0xffffffff).toUInt32

def sslCrc32 (data : Option (List Int8)) : UInt32 := crc32 0 data

def sslChecksum (data : Option (List Int8)) (key : UInt32) : Bool := key == sslCrc32 data

/-! ## Thirty-two bits -/

/-- the byte that the index into the table is, whatever stands above it -/
theorem xor_and_byte (a b : ℕ) : (a ^^^ b) &&& 255 = a % 2 ^ 8 ^^^ b % 2 ^ 8 := by
  rw [← Nat.xor_mod_two_pow]
  exact Nat.and_two_pow_sub_one_eq_mod _ 8

theorem signExtend_mod {w : ℕ} (hw : 8 ≤ w) (byte : BitVec 8) : (byte.signExtend w).toNat % 2 ^ 8 = byte.toNat := by
  have hlt := byte.isLt
  obtain ⟨k, hk⟩ : 2 ^ 8 ∣ 2 ^ w := pow_dvd_pow 2 hw
  rw [BitVec.toNat_signExtend, BitVec.toNat_setWidth_of_le hw]
  split_ifs <;> omega

theorem index_toNat (crc : UInt32) (byte : UInt8) :
    ((crc ^^^ byte.toUInt32) &&& 0xff).toNat = crc.toNat % 2 ^ 8 ^^^ byte.toNat := by
  rw [UInt32.toNat_and, UInt32.toNat_xor, UInt8.toNat_toUInt32]
  exact (xor_and_byte _ _).trans (congrArg _ (Nat.mod_eq_of_lt byte.toNat_lt))

theorem do1_eq (crc : UInt32) (byte : Int8) : do1 crc.toUInt64 byte = (Crypt.do1 crc byte.toUInt8).toUInt64 := by
  have hindex : ((crc.toUInt64 ^^^ extend byte) &&& 0xff).toNat = ((crc ^^^ byte.toUInt8.toUInt32) &&& 0xff).toNat := by
    rw [index_toNat, UInt64.toNat_and, UInt64.toNat_xor, UInt32.toNat_toUInt64]
    exact (xor_and_byte _ _).trans (congrArg _ (signExtend_mod (by decide) byte.toBitVec))
  rw [do1, Crypt.do1, hindex, crcTable, UInt32.toUInt64_xor, UInt32.toUInt64_shiftRight]
  rfl

theorem doTail_eq (crc : UInt32) (byte : Int8) : doTail crc.toUInt64 byte = (Crypt.do1 crc byte.toUInt8).toUInt64 := by
  have hnat : ((crc.toBitVec ^^^ byte.toBitVec.signExtend 32) &&& 255#32).toNat =
      ((crc ^^^ byte.toUInt8.toUInt32) &&& 0xff).toNat := by
    rw [index_toNat, BitVec.toNat_and, BitVec.toNat_xor]
    exact (xor_and_byte _ _).trans (congrArg _ (signExtend_mod (by decide) byte.toBitVec))
  have hindex : ((crc.toUInt64.toUInt32.toInt32 ^^^ byte.toInt32) &&& 0xff).toInt.toNat =
      ((crc ^^^ byte.toUInt8.toUInt32) &&& 0xff).toNat := by
    rw [UInt32.toUInt32_toUInt64, ← hnat]
    change ((crc.toBitVec ^^^ byte.toBitVec.signExtend 32) &&& 255#32).toInt.toNat = _
    have hle : ((crc.toBitVec ^^^ byte.toBitVec.signExtend 32) &&& 255#32).toNat ≤ 255 := by
      rw [BitVec.toNat_and]
      exact Nat.and_le_right
    rw [BitVec.toInt_eq_toNat_of_lt (by omega), Int.toNat_natCast]
  rw [doTail, Crypt.do1, hindex, crcTable, UInt32.toUInt64_xor, UInt32.toUInt64_shiftRight]
  rfl

theorem loops_eq (crc : UInt32) (data : List Int8) :
    loops crc.toUInt64 data = ((data.map Int8.toUInt8).foldl Crypt.do1 crc).toUInt64 := by
  have htail (crc : UInt32) (data : List Int8) :
      data.foldl doTail crc.toUInt64 = ((data.map Int8.toUInt8).foldl Crypt.do1 crc).toUInt64 := by
    induction data generalizing crc with
    | nil => rfl
    | cons byte data ih => rw [List.foldl_cons, doTail_eq, ih, List.map_cons, List.foldl_cons]
  generalize hacc : crc.toUInt64 = acc
  induction acc, data using loops.induct generalizing crc with
  | case1 acc b0 b1 b2 b3 b4 b5 b6 b7 data ih =>
    subst hacc
    have hdo8 : do8 crc.toUInt64 b0 b1 b2 b3 b4 b5 b6 b7 =
        (([b0, b1, b2, b3, b4, b5, b6, b7].map Int8.toUInt8).foldl Crypt.do1 crc).toUInt64 := by
      simp only [do8, do1_eq, List.map_cons, List.map_nil, List.foldl_cons, List.foldl_nil]
    rw [loops, ih _ hdo8.symm, ← List.foldl_append, ← List.map_append]
    rfl
  | case2 acc data hshort =>
    subst hacc
    rw [loops.eq_2 crc.toUInt64 data hshort, htail]

theorem crc32_eq (crc : UInt32) (data : List Int8) :
    crc32 crc.toUInt64 (some data) = Crypt.crc32 crc (data.map Int8.toUInt8) := by
  have hmask : (0xffffffff : UInt64) = (0xffffffff : UInt32).toUInt64 := rfl
  have hstart : crc.toUInt64 ^^^ 0xffffffff = (crc ^^^ 0xffffffff).toUInt64 := by rw [hmask, UInt32.toUInt64_xor]
  have hend (acc : UInt32) : (acc.toUInt64 ^^^ 0xffffffff).toUInt32 = acc ^^^ 0xffffffff := by
    rw [UInt64.toUInt32_xor, UInt32.toUInt32_toUInt64]
    rfl
  rw [crc32, hstart, loops_eq, hend, Crypt.crc32]

/-! ## A bit at a time -/

/-- the polynomial, with its lowest power in the top bit -/
abbrev polynomial : BitVec 32 := 0xedb88320#32

/-- the reflected CRC-32 -/
def bitwiseCrc32 (data : List UInt8) : BitVec 32 :=
  (data.flatMap fun byte => Crc.bits byte.toBitVec).foldl (Crc.step polynomial) 0xffffffff#32 ^^^ 0xffffffff#32

theorem shiftByte_toBitVec (crc : UInt32) :
    (Crypt.shiftByte crc).toBitVec = (Crc.shift polynomial)^[8] crc.toBitVec := by
  have hbit (crc : UInt32) :
    (if crc &&& 1 = 1 then (0xedb88320 : UInt32) ^^^ (crc >>> 1) else crc >>> 1 : UInt32).toBitVec =
      Crc.shift polynomial crc.toBitVec := by
    have hlow : crc &&& 1 = 1 ↔ crc.toBitVec.getLsbD 0 = true := by
      rw [← UInt32.toBitVec_inj, UInt32.toBitVec_and, BitVec.getLsbD, Nat.testBit_zero, decide_eq_true_iff,
        ← BitVec.toNat_inj, BitVec.toNat_and]
      change crc.toBitVec.toNat &&& 1 = 1 ↔ _
      rw [Nat.and_one_is_mod]
    rw [Crc.shift]
    by_cases h : crc &&& 1 = 1
    · rw [if_pos h, if_pos (hlow.1 h), UInt32.toBitVec_xor, BitVec.xor_comm]
      rfl
    · rw [if_neg h, if_neg fun hbit => h (hlow.2 hbit)]
      rfl
  rw [Crypt.shiftByte, List.foldl_const, List.length_range]
  exact Function.Semiconj.iterate_right (f := UInt32.toBitVec) hbit 8 crc

/-- what the table is good for -/
theorem do1_toBitVec (crc : UInt32) (byte : UInt8) :
    (Crypt.do1 crc byte).toBitVec = (Crc.bits byte.toBitVec).foldl (Crc.step polynomial) crc.toBitVec := by
  have hlt : ((crc ^^^ byte.toUInt32) &&& 0xff).toNat < 256 := by
    rw [UInt32.toNat_and]
    exact Nat.and_lt_two_pow _ (by decide : (0xff : UInt32).toNat < 2 ^ 8)
  have hentry : Crypt.crcTable.getD ((crc ^^^ byte.toUInt32) &&& 0xff).toNat 0 =
      Crypt.shiftByte ((crc ^^^ byte.toUInt32) &&& 0xff) := by
    rw [Crypt.crcTable_eq, List.getD_eq_getElem _ _ (by simpa using hlt), List.getElem_map, List.getElem_range,
      UInt32.ofNat_toNat]
  have hmove : (crc.toBitVec ^^^ byte.toBitVec.setWidth 32) >>> 8 = (crc >>> 8).toBitVec := by
    rw [BitVec.ushiftRight_xor_distrib, Crc.setWidth_ushiftRight, BitVec.xor_zero]
    rfl
  rw [Crypt.do1, hentry, UInt32.toBitVec_xor, shiftByte_toBitVec, Crc.foldl_step_bits polynomial (by decide),
    Crc.iterate_shift polynomial 8 (crc.toBitVec ^^^ _), hmove]
  rfl

theorem foldl_do1_toBitVec (crc : UInt32) (data : List UInt8) : (data.foldl Crypt.do1 crc).toBitVec =
    (data.flatMap fun byte => Crc.bits byte.toBitVec).foldl (Crc.step polynomial) crc.toBitVec := by
  induction data generalizing crc with
  | nil => rfl
  | cons byte data ih => rw [List.foldl_cons, ih, do1_toBitVec, List.flatMap_cons, List.foldl_append]

theorem toBitVec_crc32 (data : List UInt8) : (Crypt.crc32 0 data).toBitVec = bitwiseCrc32 data := by
  rw [Crypt.crc32, UInt32.toBitVec_xor, foldl_do1_toBitVec]
  rfl

example : bitwiseCrc32 [49, 50, 51, 52, 53, 54, 55, 56, 57] = 0xcbf43926#32 := by decide +kernel

/-! ## One byte changed -/

theorem bitwiseCrc32_set {data : List UInt8} {i : ℕ} (hi : i < data.length) {b : UInt8} (hb : b ≠ data[i]) :
    bitwiseCrc32 (data.set i b) ≠ bitwiseCrc32 data := by
  intro heq
  have htop : polynomial.msb = true := by decide
  have hset : data.set i b = data.take i ++ b :: data.drop (i + 1) := by
    rw [List.set_eq_take_append_cons_drop, if_pos hi]
  have hdata : data = data.take i ++ data[i] :: data.drop (i + 1) := by simp
  rw [hset] at heq
  nth_rewrite 3 [hdata] at heq
  have hsum := (BitVec.xor_left_inj _).1 heq
  simp only [List.flatMap_append, List.flatMap_cons, List.foldl_append] at hsum
  have hbyte := Crc.foldl_step_injective polynomial htop _ hsum
  exact hb (UInt8.toBitVec_inj.1 (Crc.foldl_bits_injective polynomial htop (by decide) _ hbyte))

theorem crc32_set {data : List UInt8} {i : ℕ} (hi : i < data.length) {b : UInt8} (hb : b ≠ data[i]) :
    Crypt.crc32 0 (data.set i b) ≠ Crypt.crc32 0 data := by
  intro heq
  apply bitwiseCrc32_set hi hb
  rw [← toBitVec_crc32, ← toBitVec_crc32, heq]

/-- **The checksum** is the reflected CRC-32, and that of a payload is not that of one with another byte somewhere. -/
theorem sslCrc32_bitwise (data : List Int8) :
    (crc32 0 (some data)).toBitVec = bitwiseCrc32 (data.map Int8.toUInt8) ∧
      ∀ (i : ℕ) (hi : i < data.length) (b : Int8), b ≠ data[i] →
        sslChecksum (some (data.set i b)) (sslCrc32 (some data)) = false := by
  constructor
  · rw [← toBitVec_crc32]
    exact congrArg UInt32.toBitVec (crc32_eq 0 data)
  · intro i hi b hb
    have hi' : i < (data.map Int8.toUInt8).length := by simpa using hi
    have hbyte : b.toUInt8 ≠ (data.map Int8.toUInt8)[i] := by
      rw [List.getElem_map]
      exact fun heq => hb (congrArg Int8.ofUInt8 heq)
    have hne := crc32_set hi' hbyte
    rw [← List.map_set, ← crc32_eq, ← crc32_eq] at hne
    rw [sslChecksum, beq_eq_false_iff_ne]
    exact hne.symm

/-- nine bytes, the highest bit of one of them set -/
theorem sslCrc32_bitwise_nine :
    sslChecksum (some [49, 50, 51, 52, -53, 54, 55, 56, 57]) (sslCrc32 (some [49, 50, 51, 52, 53, 54, 55, 56, 57])) =
      false :=
  (sslCrc32_bitwise [49, 50, 51, 52, 53, 54, 55, 56, 57]).2 4 (by decide) (-53) (by decide)

/-! ## Frames -/

/-- a frame whose payload has one byte changed is not delivered -/
theorem uncompress_set (cs : Option Wire.CompressStrategy) {f : Wire.Bytes} (hf : Wire.Valid cs f) {i : ℕ}
    (hi : i < (f.drop Wire.headLen).length) {b : UInt8} (hb : b ≠ (f.drop Wire.headLen)[i]) :
    Wire.uncompress cs (f.set (Wire.headLen + i) b) Wire.maxMessageLen = none := by
  have hword (n k : ℕ) (h : k + n ≤ Wire.headLen) : word n k (f.set (Wire.headLen + i) b) = word n k f := by
    rw [← word_take h, List.take_set_of_le (by omega), word_take h]
  have hlen : (f.set (Wire.headLen + i) b).length = f.length := List.length_set
  have hbody : (f.set (Wire.headLen + i) b).drop Wire.headLen = (f.drop Wire.headLen).set i b := by
    rw [List.drop_set, if_neg (by omega), Nat.add_sub_cancel_left]
  rw [Wire.uncompress_eq cs (hlen ▸ hf.range) (by rw [hword 4 0 (by decide), hf.length, hlen]),
    hword 4 Wire.headBasicBegin (by decide), hf.checksum, hbody,
    if_neg (crc32_set hi hb).symm]

end DreamHeroes.Checksum

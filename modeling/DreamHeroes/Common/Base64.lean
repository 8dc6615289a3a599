/-
`Base64Encode` and `Base64Decode` of `common/utilities.cpp`.

- `base64Encode`: three bytes a turn, then the fragment.
- `decodeGroup`, `decodeLoop`, `base64Decode`: four characters a turn. `temp1` is an array on the stack that is not
  initialised: a character outside the alphabet leaves in it what was there, so `base64Decode` has it as an argument. A
  padding character is not written but is not counted either, wherever it stands; what it leaves out is the zero of the
  `memset`. What is decoded are the first `outlen` bytes.
- `base64Decode_encode`: the round trip, whatever the array holds.
- `zero_notMem_encode`: `strlen` of the encoded text is its length.
-/
import Mathlib.Tactic
import DreamHeroes.Lib.Bytes

namespace DreamHeroes.Base64

open DreamHeroes.Lib

abbrev Bytes := List UInt8

/-! ## The source -/

/-- `A` to `Z`, `a` to `z`, `0` to `9`, `+` and `/` -/
def base64digits : Bytes :=
  (List.range' 65 26 ++ List.range' 97 26 ++ List.range' 48 10 ++ [43, 47]).map UInt8.ofNat

/-- the padding character -/
abbrev pad : UInt8 := 61

def digit (i : UInt8) : UInt8 := base64digits.getD i.toNat 0

/-- the text, without the zero at its end -/
def base64Encode : Bytes → Bytes
  | a :: b :: c :: s =>
    digit (a >>> 2) :: digit (((a <<< 4) &&& (0x30 : UInt8)) ||| (b >>> 4)) ::
      digit (((b <<< 2) &&& (0x3c : UInt8)) ||| (c >>> 6)) :: digit (c &&& (0x3f : UInt8)) :: base64Encode s
  | [a, b] =>
    [digit (a >>> 2), digit (((a <<< 4) &&& (0x30 : UInt8)) ||| (b >>> 4)), digit ((b <<< 2) &&& (0x3c : UInt8)), pad]
  | [a] => [digit (a >>> 2), digit ((a <<< 4) &&& (0x30 : UInt8)), pad, pad]
  | [] => []

def base64Alphabet : Bytes := base64digits ++ [pad]

def lMoveBit (base moveNum : ℕ) : UInt8 :=
  if moveNum = 0 then 1 else if moveNum = 1 then 1 else UInt8.ofNat (base <<< (moveNum - 1))

/-- the search in the alphabet; `old` is what stands in `temp1` -/
def lookup (old c : UInt8) : UInt8 :=
  if c ∈ base64Alphabet then UInt8.ofNat (base64Alphabet.idxOf c) else old

/-- `temp1` -/
structure Temp where
  t0 : UInt8
  t1 : UInt8
  t2 : UInt8
  t3 : UInt8
deriving DecidableEq, Repr

/-- one of the three turns for a group: the new `temp1[4 - k]`, from it and the one before -/
def combine (k : ℕ) (before t : UInt8) : UInt8 :=
  t / lMoveBit 2 ((k - 1) * 2) + (before &&& (lMoveBit 2 (k * 2) - 1)) * lMoveBit 2 (8 - 2 * k)

/-- the array after a group, and the bytes for its three places -/
def decodeGroup (t : Temp) (c0 c1 c2 c3 : UInt8) : Temp × List (Option UInt8) :=
  let t0 := lookup t.t0 c0
  let t1 := lookup t.t1 c1
  let t2 := lookup t.t2 c2
  let t3 := lookup t.t3 c3
  let o3 := if t3 = 64 then none else some (combine 1 t2 t3)
  let o2 := if t2 = 64 then none else some (combine 2 t1 t2)
  let o1 := if t1 = 64 then none else some (combine 3 t0 t1)
  (⟨t0, o1.getD t1, o2.getD t2, o3.getD t3⟩, [o1, o2, o3])

/-- the buffer and `outlen` -/
def decodeLoop : Temp → Bytes → Bytes × ℕ
  | t, c0 :: c1 :: c2 :: c3 :: s =>
    let r := decodeGroup t c0 c1 c2 c3
    let rest := decodeLoop r.1 s
    (r.2.map (·.getD 0) ++ rest.1, r.2.reduceOption.length + rest.2)
  | _, _ => ([], 0)

/-- `Base64Decode` -/
def base64Decode (temp1 : Temp) (code : Bytes) : Bytes := (decodeLoop temp1 code).1.take (decodeLoop temp1 code).2

/-! ## Digits -/

theorem digit_spec : ∀ n < 64, base64Alphabet.idxOf (digit (UInt8.ofNat n)) = n ∧
    digit (UInt8.ofNat n) ∈ base64Alphabet ∧ digit (UInt8.ofNat n) ≠ 0 := by decide +kernel

theorem lookup_digit {i : UInt8} (hi : i < 64) (old : UInt8) : lookup old (digit i) = i := by
  obtain ⟨hindex, hmem, -⟩ := digit_spec i.toNat hi
  rw [UInt8.ofNat_toNat] at hindex hmem
  rw [lookup, if_pos hmem, hindex, UInt8.ofNat_toNat]

theorem digit_ne_zero {i : UInt8} (hi : i < 64) : digit i ≠ 0 := by
  obtain ⟨-, -, hne⟩ := digit_spec i.toNat hi
  rwa [UInt8.ofNat_toNat] at hne

theorem lookup_pad (old : UInt8) : lookup old pad = 64 := by
  have hmem : pad ∈ base64Alphabet := List.mem_append_right base64digits (List.mem_singleton_self pad)
  rw [lookup, if_pos hmem]
  rfl

/-! ## Groups -/

/-- a mask that lets `m` bits through, above `i` others -/
theorem mask_toNat (x : ℕ) {i m : ℕ} (h : i + m ≤ 8) :
    (x <<< i) % 2 ^ 8 &&& (2 ^ m - 1) <<< i = 2 ^ i * (x % 2 ^ m) := by
  have hpow : (2 : ℕ) ^ 8 = 2 ^ (8 - i) * 2 ^ i := by rw [← pow_add, Nat.sub_add_cancel (by omega)]
  have hdvd : (2 : ℕ) ^ m ∣ 2 ^ (8 - i) := pow_dvd_pow 2 (by omega)
  rw [Nat.shiftLeft_eq, hpow, Nat.mul_mod_mul_right, ← Nat.shiftLeft_eq, ← Nat.shiftLeft_and_distrib,
    Nat.and_two_pow_sub_one_eq_mod, Nat.mod_mod_of_dvd _ hdvd, Nat.shiftLeft_eq, mul_comm]

/-! The four digits of three bytes, as numbers. -/

theorem first_toNat (a : UInt8) : (a >>> 2).toNat = a.toNat / 4 := by
  rw [UInt8.toNat_shiftRight]
  exact Nat.shiftRight_eq_div_pow _ 2

theorem second_toNat (a b : UInt8) :
    (((a <<< 4) &&& (0x30 : UInt8)) ||| (b >>> 4)).toNat = 16 * (a.toNat % 4) + b.toNat / 16 := by
  have hmask : (a.toNat <<< 4) % 256 &&& 48 = 16 * (a.toNat % 4) := mask_toNat (i := 4) (m := 2) a.toNat (by decide)
  have hb : b.toNat / 16 < 2 ^ 4 := Nat.div_lt_of_lt_mul b.toNat_lt
  rw [UInt8.toNat_or, UInt8.toNat_and, UInt8.toNat_shiftLeft, UInt8.toNat_shiftRight]
  change (a.toNat <<< 4) % 256 &&& 48 ||| b.toNat >>> 4 = _
  rw [hmask, Nat.shiftRight_eq_div_pow]
  exact (Nat.two_pow_add_eq_or_of_lt hb _).symm

theorem third_toNat (b c : UInt8) :
    (((b <<< 2) &&& (0x3c : UInt8)) ||| (c >>> 6)).toNat = 4 * (b.toNat % 16) + c.toNat / 64 := by
  have hmask : (b.toNat <<< 2) % 256 &&& 60 = 4 * (b.toNat % 16) := mask_toNat (i := 2) (m := 4) b.toNat (by decide)
  have hc : c.toNat / 64 < 2 ^ 2 := Nat.div_lt_of_lt_mul c.toNat_lt
  rw [UInt8.toNat_or, UInt8.toNat_and, UInt8.toNat_shiftLeft, UInt8.toNat_shiftRight]
  change (b.toNat <<< 2) % 256 &&& 60 ||| c.toNat >>> 6 = _
  rw [hmask, Nat.shiftRight_eq_div_pow]
  exact (Nat.two_pow_add_eq_or_of_lt hc _).symm

theorem last_toNat (c : UInt8) : (c &&& (0x3f : UInt8)).toNat = c.toNat % 64 := by
  rw [UInt8.toNat_and]
  exact Nat.and_two_pow_sub_one_eq_mod _ 6

theorem first_lt (a : UInt8) : a >>> 2 < 64 := by
  have ha := a.toNat_lt
  rw [UInt8.lt_iff_toNat_lt, first_toNat]
  change a.toNat / 4 < 64
  omega

theorem second_lt (a b : UInt8) : ((a <<< 4) &&& (0x30 : UInt8)) ||| (b >>> 4) < 64 := by
  have hb := b.toNat_lt
  rw [UInt8.lt_iff_toNat_lt, second_toNat]
  change 16 * (a.toNat % 4) + b.toNat / 16 < 64
  omega

theorem third_lt (b c : UInt8) : ((b <<< 2) &&& (0x3c : UInt8)) ||| (c >>> 6) < 64 := by
  have hc := c.toNat_lt
  rw [UInt8.lt_iff_toNat_lt, third_toNat]
  change 4 * (b.toNat % 16) + c.toNat / 64 < 64
  omega

theorem last_lt (c : UInt8) : c &&& (0x3f : UInt8) < 64 := by
  rw [UInt8.lt_iff_toNat_lt, last_toNat]
  exact Nat.mod_lt _ (by decide)

theorem combine_toNat (x y : UInt8) : (combine 3 x y).toNat = (y.toNat / 16 + x.toNat % 64 * 4) % 256 ∧
    (combine 2 x y).toNat = (y.toNat / 4 + x.toNat % 16 * 16) % 256 ∧
    (combine 1 x y).toNat = (y.toNat / 1 + x.toNat % 4 * 64) % 256 := by
  have hturn : ∀ d mask m : UInt8, (y / d + (x &&& mask) * m).toNat =
      (y.toNat / d.toNat + (x.toNat &&& mask.toNat) * m.toNat) % 256 := fun d mask m => by
    rw [UInt8.toNat_add, UInt8.toNat_mul, UInt8.toNat_div, UInt8.toNat_and, Nat.add_mod_mod]
  rw [← Nat.and_two_pow_sub_one_eq_mod x.toNat 6, ← Nat.and_two_pow_sub_one_eq_mod x.toNat 4,
    ← Nat.and_two_pow_sub_one_eq_mod x.toNat 2]
  exact ⟨hturn 16 63 4, hturn 4 15 16, hturn 1 3 64⟩

/-! The three bytes of four digits. -/

theorem combine_first (a b : UInt8) : combine 3 (a >>> 2) (((a <<< 4) &&& (0x30 : UInt8)) ||| (b >>> 4)) = a := by
  have ha := a.toNat_lt
  have hb := b.toNat_lt
  apply UInt8.toNat_inj.1
  rw [(combine_toNat _ _).1, first_toNat, second_toNat]
  omega

theorem combine_second (a b c : UInt8) : combine 2 (((a <<< 4) &&& (0x30 : UInt8)) ||| (b >>> 4))
    (((b <<< 2) &&& (0x3c : UInt8)) ||| (c >>> 6)) = b := by
  have hb := b.toNat_lt
  have hc := c.toNat_lt
  apply UInt8.toNat_inj.1
  rw [(combine_toNat _ _).2.1, second_toNat, third_toNat]
  omega

theorem combine_third (b c : UInt8) :
    combine 1 (((b <<< 2) &&& (0x3c : UInt8)) ||| (c >>> 6)) (c &&& (0x3f : UInt8)) = c := by
  have hc := c.toNat_lt
  apply UInt8.toNat_inj.1
  rw [(combine_toNat _ _).2.2, third_toNat, last_toNat]
  omega

theorem ne_pad {i : UInt8} (hi : i < 64) : i ≠ 64 := by
  rintro rfl
  exact absurd hi (by decide)

/-- four digits -/
theorem decodeGroup_digits {i0 i1 i2 i3 : UInt8} (h0 : i0 < 64) (h1 : i1 < 64) (h2 : i2 < 64)
    (h3 : i3 < 64) (t : Temp) :
    (decodeGroup t (digit i0) (digit i1) (digit i2) (digit i3)).2 =
      [some (combine 3 i0 i1), some (combine 2 i1 i2), some (combine 1 i2 i3)] := by
  simp only [decodeGroup, lookup_digit h0, lookup_digit h1, lookup_digit h2, lookup_digit h3, if_neg (ne_pad h1),
    if_neg (ne_pad h2), if_neg (ne_pad h3)]

/-- three digits and the padding -/
theorem decodeGroup_pad {i0 i1 i2 : UInt8} (h0 : i0 < 64) (h1 : i1 < 64) (h2 : i2 < 64) (t : Temp) :
    (decodeGroup t (digit i0) (digit i1) (digit i2) pad).2 =
    [some (combine 3 i0 i1), some (combine 2 i1 i2), none] := by
  simp only [decodeGroup, lookup_digit h0, lookup_digit h1, lookup_digit h2, lookup_pad, if_neg (ne_pad h1),
    if_neg (ne_pad h2), if_true]

/-- two digits and the padding -/
theorem decodeGroup_pads {i0 i1 : UInt8} (h0 : i0 < 64) (h1 : i1 < 64) (t : Temp) :
    (decodeGroup t (digit i0) (digit i1) pad pad).2 = [some (combine 3 i0 i1), none, none] := by
  simp only [decodeGroup, lookup_digit h0, lookup_digit h1, lookup_pad, if_neg (ne_pad h1), if_true]

/-! ## Texts -/

theorem or_zero_byte (x : UInt8) : x ||| (0 : UInt8) >>> 4 = x ∧ x ||| (0 : UInt8) >>> 6 = x :=
  ⟨UInt8.or_zero, UInt8.or_zero⟩

/-- the buffer starts with what was encoded -/
theorem decodeLoop_encode (s : Bytes) (t : Temp) : ∃ z, decodeLoop t (base64Encode s) = (s ++ z, s.length) := by
  induction s using base64Encode.induct generalizing t with
  | case1 a b c s ih =>
    have hgroup := decodeGroup_digits (first_lt a) (second_lt a b) (third_lt b c) (last_lt c) t
    rw [combine_first, combine_second, combine_third] at hgroup
    obtain ⟨z, hz⟩ := ih (decodeGroup t (digit (a >>> 2)) (digit (((a <<< 4) &&& (0x30 : UInt8)) ||| (b >>> 4)))
      (digit (((b <<< 2) &&& (0x3c : UInt8)) ||| (c >>> 6))) (digit (c &&& (0x3f : UInt8)))).1
    refine ⟨z, ?_⟩
    rw [base64Encode, decodeLoop, hgroup, hz]
    rw [Nat.add_comm]
    rfl
  | case2 a b =>
    have h3 := third_lt b 0
    have hsecond := combine_second a b 0
    rw [(or_zero_byte _).2] at h3 hsecond
    refine ⟨[0], ?_⟩
    rw [base64Encode, decodeLoop, decodeGroup_pad (first_lt a) (second_lt a b) h3, combine_first, hsecond]
    rfl
  | case3 a =>
    have h2 := second_lt a 0
    have hfirst := combine_first a 0
    rw [(or_zero_byte _).1] at h2 hfirst
    refine ⟨[0, 0], ?_⟩
    rw [base64Encode, decodeLoop, decodeGroup_pads (first_lt a) h2, hfirst]
    rfl
  | case4 => exact ⟨[], rfl⟩

/-- **The round trip**, whatever `temp1` holds. -/
theorem base64Decode_encode (t : Temp) (s : Bytes) : base64Decode t (base64Encode s) = s := by
  obtain ⟨z, hz⟩ := decodeLoop_encode s t
  rw [base64Decode, hz]
  exact List.take_left

theorem zero_notMem_encode (s : Bytes) : (0 : UInt8) ∉ base64Encode s := by
  have hpad : (0 : UInt8) ≠ pad := by decide
  induction s using base64Encode.induct with
  | case1 a b c s ih =>
    rw [base64Encode]
    simp only [List.mem_cons, not_or]
    exact ⟨(digit_ne_zero (first_lt a)).symm, (digit_ne_zero (second_lt a b)).symm, (digit_ne_zero (third_lt b c)).symm,
      (digit_ne_zero (last_lt c)).symm, ih⟩
  | case2 a b =>
    have h3 := third_lt b 0
    rw [(or_zero_byte _).2] at h3
    rw [base64Encode]
    simp only [List.mem_cons, not_or]
    exact ⟨(digit_ne_zero (first_lt a)).symm, (digit_ne_zero (second_lt a b)).symm, (digit_ne_zero h3).symm, hpad,
      List.not_mem_nil⟩
  | case3 a =>
    have h2 := second_lt a 0
    rw [(or_zero_byte _).1] at h2
    rw [base64Encode]
    simp only [List.mem_cons, not_or]
    exact ⟨(digit_ne_zero (first_lt a)).symm, (digit_ne_zero h2).symm, hpad, hpad, List.not_mem_nil⟩
  | case4 => exact List.not_mem_nil

theorem length_base64Encode (s : Bytes) : (base64Encode s).length = 4 * ((s.length + 2) / 3) := by
  induction s using base64Encode.induct with
  | case1 a b c s ih =>
    rw [base64Encode]
    simp only [List.length_cons, ih]
    omega
  | case2 a b => simp [base64Encode]
  | case3 a => simp [base64Encode]
  | case4 => rfl

end DreamHeroes.Base64

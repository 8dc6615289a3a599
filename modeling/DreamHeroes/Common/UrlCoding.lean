/-
`urlencode` and `urldecode` of `common/utilities.cpp`. Both walk over memory up to the first zero.

- `urldecode`: the text, and the places of the bytes that were read. At a `%` the two next bytes are read, whatever
  they are; the length is only looked at before the next turn.
- `urldecode_urlencode`: a space is written as `+`, which is not read back. Every other byte is.
- `reads_le_iff`: what is read lies in the text or is the zero behind it, unless the last byte begins an escape.
-/
import Mathlib.Tactic
import Mathlib.Data.List.TakeWhile

namespace DreamHeroes.Url

abbrev Bytes := List UInt8

abbrev space : UInt8 := 32
abbrev percent : UInt8 := 37
abbrev plus : UInt8 := 43

/-! ## The source -/

def charToHex (x : UInt8) : UInt8 := if x > 9 then x + 55 else x + 48

def isAlphaNumberChar (c : UInt8) : Bool :=
  (97 ≤ c && c ≤ 122) || (65 ≤ c && c ≤ 90) || (48 ≤ c && c ≤ 57)

/-- `-_.!~*'()` -/
def marks : Bytes := [45, 95, 46, 33, 126, 42, 39, 40, 41]

/-- what is written for one byte -/
def encodeByte (ch : UInt8) : Bytes :=
  if ch = space then [plus]
  else if isAlphaNumberChar ch || marks.contains ch then [ch]
  else [percent, charToHex (ch >>> 4), charToHex (ch % 16)]

/-- the text, without the zero at its end -/
def urlencode (src : Bytes) : Bytes := (src.takeWhile (· ≠ 0)).flatMap encodeByte

/-- the arithmetic on a digit, a signed `char` -/
def hexDigit (p : UInt8) : UInt8 :=
  p - 48 - (if (65 : Int8) ≤ p.toInt8 then 7 else 0) - (if (97 : Int8) ≤ p.toInt8 then 32 else 0)

/-- `decd`, without the zero at its end, and the places in `cd` that were read -/
structure Decoded where
  decd : Bytes
  reads : List ℕ
deriving DecidableEq, Repr

/-- the loop from the place `i` on, where the text `s` is left; `behind` is the memory behind the zero -/
def decodeFrom (behind : Bytes) : ℕ → Bytes → Decoded
  | _, [] => ⟨[], []⟩
  | i, c :: s =>
    if c ≠ percent then
      let r := decodeFrom behind (i + 1) s
      ⟨c :: r.decd, i :: r.reads⟩
    else match s with
      | p0 :: p1 :: s =>
        let r := decodeFrom behind (i + 3) s
        ⟨(hexDigit p0 * 16 + hexDigit p1) :: r.decd, i :: (i + 1) :: (i + 2) :: r.reads⟩
      | [p0] => ⟨[hexDigit p0 * 16 + hexDigit 0], [i, i + 1, i + 2]⟩
      | [] => ⟨[hexDigit 0 * 16 + hexDigit (behind.headD 0)], [i, i + 1, i + 2]⟩

def urldecode (cd : Bytes) : Decoded :=
  decodeFrom ((cd.dropWhile (· ≠ 0)).drop 1) 0 (cd.takeWhile (· ≠ 0))

/-! ## The round trip -/

theorem takeWhile_text {s : Bytes} (hs : 0 ∉ s) (mem : Bytes) : (s ++ 0 :: mem).takeWhile (· ≠ 0) = s := by
  rw [List.takeWhile_append_of_pos]
  · simp
  · intro c hc
    simpa using fun heq : c = 0 => hs (heq ▸ hc)

theorem hexDigit_charToHex : ∀ n < 16, hexDigit (charToHex (UInt8.ofNat n)) = UInt8.ofNat n ∧
    charToHex (UInt8.ofNat n) ≠ 0 := by decide +kernel

/-- the two digits of a byte -/
theorem hexDigits_byte (ch : UInt8) :
    hexDigit (charToHex (ch >>> 4)) * 16 + hexDigit (charToHex (ch % 16)) = ch ∧
      charToHex (ch >>> 4) ≠ 0 ∧ charToHex (ch % 16) ≠ 0 := by
  have hlt := ch.toNat_lt
  have hhigh : (ch >>> 4).toNat = ch.toNat / 16 := by
    rw [UInt8.toNat_shiftRight]
    exact Nat.shiftRight_eq_div_pow _ 4
  have hlow : (ch % 16).toNat = ch.toNat % 16 := UInt8.toNat_mod _ _
  have h0 := hexDigit_charToHex (ch >>> 4).toNat (by omega)
  have h1 := hexDigit_charToHex (ch % 16).toNat (by omega)
  rw [UInt8.ofNat_toNat] at h0 h1
  refine ⟨?_, h0.2, h1.2⟩
  apply UInt8.toNat_inj.1
  rw [h0.1, h1.1, UInt8.toNat_add, UInt8.toNat_mul, hhigh, hlow]
  change (ch.toNat / 16 * 16 % 2 ^ 8 + ch.toNat % 16) % 2 ^ 8 = ch.toNat
  omega

/-- what comes back for a byte -/
def replaced (ch : UInt8) : UInt8 := if ch = space then plus else ch

theorem decodeFrom_plain (behind s : Bytes) (i : ℕ) {c : UInt8} (hc : c ≠ percent) :
    decodeFrom behind i (c :: s) =
      ⟨c :: (decodeFrom behind (i + 1) s).decd, i :: (decodeFrom behind (i + 1) s).reads⟩ := by
  conv_lhs => unfold decodeFrom
  exact if_pos hc

theorem decodeFrom_escape (behind s : Bytes) (i : ℕ) (p0 p1 : UInt8) :
    decodeFrom behind i (percent :: p0 :: p1 :: s) =
      ⟨(hexDigit p0 * 16 + hexDigit p1) :: (decodeFrom behind (i + 3) s).decd,
        i :: (i + 1) :: (i + 2) :: (decodeFrom behind (i + 3) s).reads⟩ := rfl

theorem decodeFrom_encodeByte (behind s : Bytes) (i : ℕ) (ch : UInt8) : ∃ k,
    (decodeFrom behind i (encodeByte ch ++ s)).decd = replaced ch :: (decodeFrom behind k s).decd := by
  rw [encodeByte, replaced]
  split_ifs with hspace hplain
  · exact ⟨i + 1, congrArg Decoded.decd (decodeFrom_plain behind s i (by decide))⟩
  · refine ⟨i + 1, congrArg Decoded.decd (decodeFrom_plain behind s i ?_)⟩
    intro hc
    rw [hc] at hplain
    exact absurd hplain (by decide)
  · refine ⟨i + 3, ?_⟩
    simp only [List.cons_append, List.nil_append, decodeFrom_escape, (hexDigits_byte ch).1]

theorem decodeFrom_flatMap (behind : Bytes) (i : ℕ) (s : Bytes) :
    (decodeFrom behind i (s.flatMap encodeByte)).decd = s.map replaced := by
  induction s generalizing i with
  | nil => rfl
  | cons ch s ih =>
    obtain ⟨k, hk⟩ := decodeFrom_encodeByte behind (s.flatMap encodeByte) i ch
    rw [List.flatMap_cons, hk, ih, List.map_cons]

theorem zero_notMem_encodeByte {ch : UInt8} (hch : ch ≠ 0) : 0 ∉ encodeByte ch := by
  obtain ⟨-, h0, h1⟩ := hexDigits_byte ch
  rw [encodeByte]
  split_ifs
  · decide
  · simpa using hch.symm
  · simpa using ⟨by decide, h0.symm, h1.symm⟩

theorem zero_notMem_urlencode (src : Bytes) : 0 ∉ urlencode src := by
  intro hmem
  obtain ⟨ch, hch, hzero⟩ := List.mem_flatMap.1 hmem
  have hne : ch ≠ 0 := by simpa using List.mem_takeWhile_imp hch
  exact zero_notMem_encodeByte hne hzero

/-- **What comes back** of a text: its spaces are lost. `src` and `dest` are the memory behind the texts. -/
theorem urldecode_urlencode {s : Bytes} (hs : 0 ∉ s) (src dest : Bytes) :
    (urldecode (urlencode (s ++ 0 :: src) ++ 0 :: dest)).decd = s.map replaced := by
  rw [urldecode, takeWhile_text (zero_notMem_urlencode _), urlencode, takeWhile_text hs, decodeFrom_flatMap]

theorem map_replaced_eq_iff (s : Bytes) : s.map replaced = s ↔ space ∉ s := by
  have hbyte (c : UInt8) : replaced c = c ↔ c ≠ space := by
    rw [replaced]
    split_ifs with hc
    · exact iff_of_false (fun h => absurd (h.trans hc) (by decide)) (fun h => h hc)
    · exact iff_of_true rfl hc
  have hmap : s.map replaced = s ↔ ∀ c ∈ s, replaced c = c := by
    conv_lhs => rw [← List.map_id s, List.map_map, List.map_inj_left]
    rfl
  rw [hmap]
  exact ⟨fun h hmem => (hbyte space).1 (h space hmem) rfl, fun h c hc => (hbyte c).2 fun heq => h (heq ▸ hc)⟩

/-! ## The places -/

/-- a byte that is copied, or a whole escape -/
inductive Block : Bytes → Prop
  | plain {c : UInt8} (hc : c ≠ percent) : Block [c]
  | escape (p0 p1 : UInt8) : Block [percent, p0, p1]

/-- the last byte begins an escape -/
def LastEscape (s : Bytes) : Prop := ∃ blocks : List Bytes, (∀ b ∈ blocks, Block b) ∧ s = blocks.flatten ++ [percent]

theorem lastEscape_iff (s : Bytes) :
    LastEscape s ↔ s = [percent] ∨ ∃ b rest, Block b ∧ LastEscape rest ∧ s = b ++ rest := by
  constructor
  · rintro ⟨blocks, hblocks, rfl⟩
    cases blocks with
    | nil => exact Or.inl rfl
    | cons b blocks =>
      refine Or.inr ⟨b, blocks.flatten ++ [percent], hblocks b List.mem_cons_self, ⟨blocks, fun b hb => ?_, rfl⟩, ?_⟩
      · exact hblocks b (List.mem_cons_of_mem _ hb)
      · rw [List.flatten_cons, List.append_assoc]
  · rintro (rfl | ⟨b, rest, hb, ⟨blocks, hblocks, rfl⟩, rfl⟩)
    · exact ⟨[], fun b hb => absurd hb List.not_mem_nil, rfl⟩
    · refine ⟨b :: blocks, fun b' hb' => ?_, by rw [List.flatten_cons, List.append_assoc]⟩
      rcases List.mem_cons.1 hb' with rfl | hb'
      · exact hb
      · exact hblocks b' hb'

theorem lastEscape_plain {c : UInt8} (hc : c ≠ percent) (s : Bytes) : LastEscape (c :: s) ↔ LastEscape s := by
  rw [lastEscape_iff]
  constructor
  · rintro (heq | ⟨b, rest, hb, hrest, heq⟩)
    · exact absurd (List.cons_eq_cons.1 heq).1 hc
    · cases hb with
      | plain hc' =>
        rw [(List.cons_eq_cons.1 heq).2]
        exact hrest
      | escape p0 p1 => exact absurd (List.cons_eq_cons.1 heq).1 hc
  · exact fun h => Or.inr ⟨[c], s, Block.plain hc, h, rfl⟩

theorem lastEscape_escape (p0 p1 : UInt8) (s : Bytes) : LastEscape (percent :: p0 :: p1 :: s) ↔ LastEscape s := by
  rw [lastEscape_iff]
  constructor
  · rintro (heq | ⟨b, rest, hb, hrest, heq⟩)
    · cases heq
    · cases hb with
      | plain hc => exact absurd (List.cons_eq_cons.1 heq).1.symm hc
      | escape q0 q1 =>
        injection heq with _ heq
        injection heq with _ heq
        injection heq with _ heq
        rw [heq]
        exact hrest
  · exact fun h => Or.inr ⟨[percent, p0, p1], s, Block.escape p0 p1, h, rfl⟩

theorem not_lastEscape_nil : ¬LastEscape [] := by
  rintro ⟨blocks, -, heq⟩
  exact List.append_ne_nil_of_right_ne_nil _ (List.cons_ne_nil _ _) heq.symm

theorem not_lastEscape_half (p0 : UInt8) : ¬LastEscape [percent, p0] := by
  rw [lastEscape_iff]
  rintro (heq | ⟨b, rest, hb, -, heq⟩)
  · cases heq
  · cases hb with
    | plain hc => exact hc (List.cons_eq_cons.1 heq).1.symm
    | escape q0 q1 => cases heq

theorem decodeFrom_reads (behind : Bytes) (i : ℕ) (s : Bytes) :
    (∀ k ∈ (decodeFrom behind i s).reads, k ≤ i + s.length) ↔ ¬LastEscape s := by
  induction i, s using decodeFrom.induct behind with
  | case1 i => exact iff_of_true (fun k hk => absurd hk List.not_mem_nil) not_lastEscape_nil
  | case2 i c s hc ih =>
    have hlen : i + 1 + s.length = i + (c :: s).length := by rw [List.length_cons, Nat.add_right_comm, Nat.add_assoc]
    rw [hlen] at ih
    rw [decodeFrom_plain behind s i hc, lastEscape_plain hc, ← ih, List.forall_mem_cons]
    exact and_iff_right (Nat.le_add_right i _)
  | case3 i c hc p0 p1 s ih =>
    obtain rfl := not_not.1 hc
    have hlen : i + 3 + s.length = i + (percent :: p0 :: p1 :: s).length := by simp only [List.length_cons]; omega
    rw [hlen] at ih
    rw [decodeFrom_escape, lastEscape_escape, ← ih, List.forall_mem_cons, List.forall_mem_cons, List.forall_mem_cons]
    refine Iff.trans (and_iff_right (Nat.le_add_right i _)) ?_
    exact Iff.trans (and_iff_right (by omega)) (and_iff_right (by omega))
  | case4 i c hc p0 =>
    obtain rfl := not_not.1 hc
    refine iff_of_true ?_ (not_lastEscape_half p0)
    rw [List.length_cons, List.length_singleton]
    change ∀ k ∈ [i, i + 1, i + 2], k ≤ i + 2
    simp
  | case5 i c hc =>
    obtain rfl := not_not.1 hc
    -- the second digit is the byte behind the zero
    have hlast : LastEscape [percent] := (lastEscape_iff _).2 (Or.inl rfl)
    refine iff_of_false (fun h => ?_) (fun h => h hlast)
    have hread := h (i + 2) (List.mem_cons_of_mem _ (List.mem_cons_of_mem _ List.mem_cons_self))
    rw [List.length_singleton] at hread
    omega

theorem reads_le_iff {s : Bytes} (hs : 0 ∉ s) (mem : Bytes) :
    (∀ k ∈ (urldecode (s ++ 0 :: mem)).reads, k ≤ s.length) ↔ ¬LastEscape s := by
  rw [urldecode, takeWhile_text hs, ← decodeFrom_reads _ 0 s, Nat.zero_add]

/-- **URL coding.** A text comes back when it has no space, and nothing behind its end is read unless its last byte
begins an escape. -/
theorem url_coding {s : Bytes} (hs : 0 ∉ s) (src dest : Bytes) :
    ((urldecode (urlencode (s ++ 0 :: src) ++ 0 :: dest)).decd = s ↔ space ∉ s) ∧
      ((∀ k ∈ (urldecode (s ++ 0 :: src)).reads, k ≤ s.length) ↔ ¬LastEscape s) := by
  rw [urldecode_urlencode hs, map_replaced_eq_iff]
  exact ⟨Iff.rfl, reads_le_iff hs src⟩

/-- bytes of every kind -/
theorem url_coding_bytes :
    (urldecode (urlencode [43, 37, 200, 97, 0] ++ [0])).decd = [43, 37, 200, 97] ∧
      ¬LastEscape [43, 37, 200, 97] :=
  ⟨(url_coding (s := [43, 37, 200, 97]) (by decide) [] []).1.2 (by decide),
    (url_coding (s := [43, 37, 200, 97]) (by decide) [] []).2.1 (by decide)⟩

/-- a space comes back as `+`, and for `%` the byte behind the zero is read -/
theorem url_coding_fails :
    (urldecode (urlencode [32, 0] ++ [0])).decd ≠ [32] ∧ ¬∀ k ∈ (urldecode [37, 0, 65]).reads, k ≤ 1 := by decide

end DreamHeroes.Url

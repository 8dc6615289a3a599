/-
Bytes in memory: numbers in a fixed number of bytes, the lowest first, and copies into a buffer.

- `leNat`, `leBytes`: the number that bytes are, and the bytes of a number. `leNat_leBytes` is the round trip.
- `word`: the number at a place of a text; `word_append` reads it where it was written.
- `Buffer n`: memory of `n` bytes. `memcpy` into it has no result when it runs over the end.
- `memcpy_eq_some`, `take_memmove`: what a buffer starts with after a copy.
-/
import Mathlib.Tactic
import Mathlib.Data.Nat.Digits.Defs

namespace DreamHeroes.Lib

/-! ## Numbers -/

/-- the number that bytes are -/
def leNat (s : List UInt8) : ℕ := Nat.ofDigits 256 (s.map UInt8.toNat)

/-- the lowest `n` bytes of a number -/
def leBytes : ℕ → ℕ → List UInt8
  | 0, _ => []
  | n + 1, v => UInt8.ofNat v :: leBytes n (v / 256)

@[simp] theorem leNat_nil : leNat [] = 0 := rfl

@[simp] theorem leNat_cons (b : UInt8) (s : List UInt8) : leNat (b :: s) = b.toNat + 256 * leNat s :=
  Nat.ofDigits_cons

@[simp] theorem length_leBytes (n v : ℕ) : (leBytes n v).length = n := by
  induction n generalizing v with
  | zero => rfl
  | succ n ih => rw [leBytes, List.length_cons, ih]

theorem leNat_leBytes (n v : ℕ) : leNat (leBytes n v) = v % 256 ^ n := by
  induction n generalizing v with
  | zero => rw [leBytes, leNat_nil, pow_zero, Nat.mod_one]
  | succ n ih =>
    rw [leBytes, leNat_cons, ih, pow_succ', Nat.mod_mul]
    rfl

/-- the number in the `n` bytes from the place `k` on -/
def word (n k : ℕ) (s : List UInt8) : ℕ := leNat ((s.drop k).take n)

/-- a number is read where it was written -/
theorem word_append {n k : ℕ} {a : List UInt8} (ha : a.length = k) {v : ℕ} (hv : v < 256 ^ n) (s : List UInt8) :
    word n k (a ++ (leBytes n v ++ s)) = v := by
  rw [word, List.drop_append_of_le_length ha.ge, List.drop_of_length_le ha.le, List.nil_append,
    List.take_append_of_le_length (length_leBytes n v).ge, List.take_of_length_le (length_leBytes n v).le,
    leNat_leBytes, Nat.mod_eq_of_lt hv]

/-- the bytes that are read, and no others -/
theorem word_take {n k m : ℕ} (h : k + n ≤ m) (s : List UInt8) : word n k (s.take m) = word n k s := by
  rw [word, word, List.drop_take, List.take_take, min_eq_left (by omega)]

theorem word_append_left {n k : ℕ} {a : List UInt8} (h : k + n ≤ a.length) (s : List UInt8) :
    word n k (a ++ s) = word n k a := by
  rw [← word_take h (a ++ s), List.take_left]

/-! ## Copies -/

/-- `n` bytes of memory -/
structure Buffer (n : ℕ) where
  bytes : List UInt8
  length_bytes : bytes.length = n

namespace Buffer

variable {n : ℕ}

/-- `memcpy` to the place `pos`; it has no result when it runs over the end -/
def memcpy (b : Buffer n) (pos : ℕ) (src : List UInt8) : Option (Buffer n) :=
  if h : pos + src.length ≤ n then
    some ⟨b.bytes.take pos ++ src ++ b.bytes.drop (pos + src.length), by
      simp only [List.length_append, List.length_take, List.length_drop, b.length_bytes]
      omega⟩
  else none

/-- `memmove` of `len` bytes from the place `start` to the front -/
def memmove (b : Buffer n) (start len : ℕ) : Buffer n :=
  ⟨(b.bytes.drop start).take len ++ b.bytes.drop ((b.bytes.drop start).take len).length, by
    simp only [List.length_append, List.length_take, List.length_drop, b.length_bytes]
    omega⟩

/-- a buffer that starts with `pos` bytes, and gets more behind them, starts with both -/
theorem memcpy_eq_some (b : Buffer n) (pos : ℕ) (src : List UInt8) (h : pos + src.length ≤ n) :
    ∃ b', b.memcpy pos src = some b' ∧ b'.bytes.take (pos + src.length) = b.bytes.take pos ++ src := by
  have hlen : (b.bytes.take pos ++ src).length = pos + src.length := by
    rw [List.length_append, List.length_take, b.length_bytes, min_eq_left (by omega)]
  exact ⟨_, dif_pos h, List.take_left' hlen⟩

theorem take_memmove (b : Buffer n) (start len : ℕ) :
    (b.memmove start len).bytes.take ((b.bytes.drop start).take len).length = (b.bytes.drop start).take len :=
  List.take_left

end Buffer

end DreamHeroes.Lib

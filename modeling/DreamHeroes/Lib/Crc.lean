/-
Cyclic redundancy checks with a reflected polynomial, over words of any width: the lowest bit of a register goes out
first.

- `step poly c bit`: the register after one more bit of the message. A message is folded over it.
- `shift poly c`: the step of a bit that is 0. It is linear (`shift_xor`), and one-to-one when the polynomial has its
  top bit (`shift_injective`), so that two registers that differ go on to differ (`foldl_step_injective`).
- `foldl_step_bits`: the bits of a word can be added to the register first and shifted out together.
- `iterate_shift`: of `n` shifts only those of the lowest `n` bits need the polynomial. A table of the words below
  `2 ^ n` does the rest.
-/
import Mathlib.Tactic

namespace DreamHeroes.Lib.Crc

variable {w : ℕ} (poly : BitVec w)

/-- the register after one more bit of the message -/
def step (c : BitVec w) (bit : Bool) : BitVec w := if c.getLsbD 0 ^^ bit then (c >>> 1) ^^^ poly else c >>> 1

def shift (c : BitVec w) : BitVec w := if c.getLsbD 0 then (c >>> 1) ^^^ poly else c >>> 1

/-- the bits of a word, the lowest first -/
def bits {k : ℕ} (v : BitVec k) : List Bool := (List.range k).map v.getLsbD

/-! ## Linearity -/

theorem shift_eq (c : BitVec w) : shift poly c = (c >>> 1) ^^^ (if c.getLsbD 0 then poly else 0#w) := by
  rw [shift]
  split_ifs
  · rfl
  · exact BitVec.xor_zero.symm

theorem step_eq_shift (c : BitVec w) (bit : Bool) : step poly c bit = shift poly c ^^^ (if bit then poly else 0#w) := by
  rw [step, shift]
  cases bit with
  | false => simp
  | true =>
    cases c.getLsbD 0 with
    | false => simp
    | true =>
      show c >>> 1 = (c >>> 1 ^^^ poly) ^^^ poly
      rw [BitVec.xor_assoc, BitVec.xor_self, BitVec.xor_zero]

theorem shift_xor (a b : BitVec w) : shift poly (a ^^^ b) = shift poly a ^^^ shift poly b := by
  have hpoly : (if a.getLsbD 0 ^^ b.getLsbD 0 then poly else 0#w) =
      (if a.getLsbD 0 then poly else 0#w) ^^^ (if b.getLsbD 0 then poly else 0#w) := by
    cases a.getLsbD 0 <;> cases b.getLsbD 0 <;> simp
  simp only [shift_eq, BitVec.getLsbD_xor, BitVec.ushiftRight_xor_distrib, hpoly]
  ac_rfl

theorem iterate_shift_xor (n : ℕ) (a b : BitVec w) :
    (shift poly)^[n] (a ^^^ b) = (shift poly)^[n] a ^^^ (shift poly)^[n] b := by
  induction n generalizing a b with
  | zero => rfl
  | succ n ih => simp only [Function.iterate_succ_apply, shift_xor, ih]

/-! ## Words at a time -/

/-- a bit that is added to the register is a bit of the message -/
theorem shift_xor_word (c v : BitVec w) : shift poly (c ^^^ v) = step poly c (v.getLsbD 0) ^^^ (v >>> 1) := by
  rw [shift_xor, step_eq_shift, shift_eq poly v]
  ac_rfl

theorem foldl_step_lowBits (n : ℕ) (c v : BitVec w) (hv : v >>> n = 0#w) :
    ((List.range n).map v.getLsbD).foldl (step poly) c = (shift poly)^[n] (c ^^^ v) := by
  induction n generalizing c v with
  | zero =>
    have hzero : v = 0#w := by simpa using hv
    simp [hzero]
  | succ n ih =>
    have hrest : (v >>> 1) >>> n = 0#w := by rw [← BitVec.shiftRight_add, Nat.add_comm, hv]
    have hbits : (List.range n).map (v >>> 1).getLsbD = (List.range n).map (v.getLsbD ∘ Nat.succ) := by
      apply List.map_congr_left
      intro i _
      rw [BitVec.getLsbD_ushiftRight, Function.comp_apply, Nat.succ_eq_add_one, Nat.add_comm]
    calc ((List.range (n + 1)).map v.getLsbD).foldl (step poly) c
      _ = ((List.range n).map (v >>> 1).getLsbD).foldl (step poly) (step poly c (v.getLsbD 0)) := by
          rw [List.range_succ_eq_map, List.map_cons, List.foldl_cons, List.map_map, hbits]
      _ = (shift poly)^[n] (step poly c (v.getLsbD 0) ^^^ (v >>> 1)) := ih _ _ hrest
      _ = (shift poly)^[n + 1] (c ^^^ v) := by rw [Function.iterate_succ_apply, shift_xor_word]

/-- a word has no bits but its own -/
theorem setWidth_ushiftRight {k : ℕ} (v : BitVec k) : v.setWidth w >>> k = 0#w := by
  ext i hi
  simp

/-- the bits of a word are added to the register, and shifted out together -/
theorem foldl_step_bits {k : ℕ} (hk : k ≤ w) (c : BitVec w) (v : BitVec k) :
    (bits v).foldl (step poly) c = (shift poly)^[k] (c ^^^ v.setWidth w) := by
  rw [← foldl_step_lowBits poly k c _ (setWidth_ushiftRight v), bits]
  congr 1
  apply List.map_congr_left
  intro i hi
  have hlt : i < w := (List.mem_range.1 hi).trans_le hk
  rw [BitVec.getLsbD_setWidth, decide_eq_true hlt, Bool.true_and]

/-- a register whose lowest bits are 0 only moves down -/
theorem iterate_shift_high (n : ℕ) (y : BitVec w) (hy : ∀ i < n, y.getLsbD i = false) :
    (shift poly)^[n] y = y >>> n := by
  induction n generalizing y with
  | zero => simp
  | succ n ih =>
    have hshift : shift poly y = y >>> 1 := by rw [shift, hy 0 (Nat.succ_pos n)]; rfl
    have hrest : ∀ i < n, (y >>> 1).getLsbD i = false := by
      intro i hi
      rw [BitVec.getLsbD_ushiftRight]
      exact hy (1 + i) (by omega)
    rw [Function.iterate_succ_apply, hshift, ih _ hrest, ← BitVec.shiftRight_add, Nat.add_comm]

theorem getLsbD_mask (n i : ℕ) : (BitVec.ofNat w (2 ^ n - 1)).getLsbD i = (decide (i < w) && decide (i < n)) := by
  rw [BitVec.getLsbD_ofNat, Nat.testBit_two_pow_sub_one]

/-- the lowest bits take the polynomial, the others move down -/
theorem iterate_shift (n : ℕ) (x : BitVec w) :
    (shift poly)^[n] x = (shift poly)^[n] (x &&& BitVec.ofNat w (2 ^ n - 1)) ^^^ (x >>> n) := by
  set mask := BitVec.ofNat w (2 ^ n - 1) with hmask
  have hsplit : x = (x &&& mask) ^^^ (x &&& ~~~mask) := by
    ext i hi
    simp only [BitVec.getElem_xor, BitVec.getElem_and, BitVec.getElem_not]
    cases x[i] <;> cases mask[i] <;> rfl
  have hlow : ∀ i < n, (x &&& ~~~mask).getLsbD i = false := by
    intro i hi
    rw [BitVec.getLsbD_and, BitVec.getLsbD_not, hmask, getLsbD_mask]
    simp [hi]
  have hhigh : (x &&& ~~~mask) >>> n = x >>> n := by
    apply BitVec.eq_of_getLsbD_eq
    intro i _
    rw [BitVec.getLsbD_ushiftRight, BitVec.getLsbD_ushiftRight, BitVec.getLsbD_and, BitVec.getLsbD_not, hmask,
      getLsbD_mask]
    by_cases hi : n + i < w
    · simp [hi]
    · simp [BitVec.getLsbD_of_ge x (n + i) (by omega)]
  calc (shift poly)^[n] x
    _ = (shift poly)^[n] ((x &&& mask) ^^^ (x &&& ~~~mask)) := congrArg _ hsplit
    _ = (shift poly)^[n] (x &&& mask) ^^^ (x >>> n) := by
        rw [iterate_shift_xor, iterate_shift_high poly n _ hlow, hhigh]

/-! ## Differences stay -/

theorem shift_injective (hpoly : poly.msb = true) : Function.Injective (shift poly) := by
  -- the top bit after a shift tells whether the polynomial was taken
  have htop (c : BitVec w) : (shift poly c).msb = c.getLsbD 0 := by
    rw [shift_eq, BitVec.msb_xor, BitVec.msb_ushiftRight]
    cases c.getLsbD 0 <;> simp [hpoly]
  intro a b hab
  have hbit : a.getLsbD 0 = b.getLsbD 0 := by rw [← htop a, hab, htop b]
  have hrest : a >>> 1 = b >>> 1 := by
    rw [shift_eq, shift_eq, hbit] at hab
    exact (BitVec.xor_left_inj _).1 hab
  apply BitVec.eq_of_getLsbD_eq
  intro i _
  cases i with
  | zero => exact hbit
  | succ i =>
    have hi := congrArg (fun x => BitVec.getLsbD x i) hrest
    rwa [BitVec.getLsbD_ushiftRight, BitVec.getLsbD_ushiftRight, Nat.add_comm] at hi

/-- two registers that differ go on to differ, over any message -/
theorem foldl_step_injective (hpoly : poly.msb = true) (message : List Bool) :
    Function.Injective fun c => message.foldl (step poly) c := by
  induction message with
  | nil => exact fun _ _ hab => hab
  | cons bit message ih =>
    intro a b hab
    have hstep : step poly a bit = step poly b bit := ih hab
    rw [step_eq_shift, step_eq_shift] at hstep
    exact shift_injective poly hpoly ((BitVec.xor_left_inj _).1 hstep)

/-- two words that differ leave registers that differ -/
theorem foldl_bits_injective (hpoly : poly.msb = true) {k : ℕ} (hk : k ≤ w) (c : BitVec w) :
    Function.Injective fun v : BitVec k => (bits v).foldl (step poly) c := by
  intro u v huv
  have hshift : (shift poly)^[k] (c ^^^ u.setWidth w) = (shift poly)^[k] (c ^^^ v.setWidth w) := by
    rw [← foldl_step_bits poly hk, ← foldl_step_bits poly hk]
    exact huv
  have hword : u.setWidth w = v.setWidth w :=
    (BitVec.xor_right_inj _).1 ((shift_injective poly hpoly).iterate k hshift)
  have hnat := congrArg BitVec.toNat hword
  rw [BitVec.toNat_setWidth_of_le hk, BitVec.toNat_setWidth_of_le hk] at hnat
  exact BitVec.eq_of_toNat_eq hnat

end DreamHeroes.Lib.Crc

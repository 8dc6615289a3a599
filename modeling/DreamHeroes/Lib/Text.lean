/-
Lists of integers as text: decimal numbers, joined by separator characters.

- `pieces d s`: the non-empty substrings of `s` between the occurrences of `d`.
- `pieces_intercalate`: the pieces of a joined text are what was joined, when each part is a non-empty text without the
  separator. This also holds for the empty list, whose text is empty.
- `atoi`: the integer at the start of a text, as the C function reads it.
- `atoi_toString`: the round trip of a decimal number.
- `cStr`: what a C function reads of a text. `NoZero`: the texts it reads as they are.
- `Part d s`: a text that can be a part of one joined with `d`. A number is one (`part_toString`), and so is a joined
  text of parts when it is joined with another separator (`part_intercalate`).
- `width n`: the digits and the sign of a number, which is the size of its text (`size_toString`). `size_intercalate`:
  the size of a joined text.
-/
import Mathlib.Tactic
import Mathlib.Data.List.TakeWhile

namespace DreamHeroes.Lib

/-- the part of a text before its first zero byte -/
def cStr (s : String) : String := String.ofList (s.toList.takeWhile (· ≠ '\x00'))

/-- a text that a C function reads as it is -/
def NoZero (s : String) : Prop := '\x00' ∉ s.toList

instance decidableNoZero (s : String) : Decidable (NoZero s) := inferInstanceAs (Decidable ('\x00' ∉ s.toList))

theorem cStr_noZero (s : String) : NoZero (cStr s) := by
  rw [NoZero, cStr, String.toList_ofList]
  intro hmem
  simpa using List.mem_takeWhile_imp hmem

theorem NoZero.cStr {s : String} (h : NoZero s) : Lib.cStr s = s := by
  have hall : s.toList.takeWhile (· ≠ '\x00') = s.toList := by
    rw [List.takeWhile_eq_self_iff]
    intro c hc
    simpa using fun heq : c = '\x00' => h (heq ▸ hc)
  rw [Lib.cStr, hall, String.ofList_toList]

theorem NoZero.ofList {l : List Char} (h : '\x00' ∉ l) : NoZero (String.ofList l) := by
  rwa [NoZero, String.toList_ofList]

theorem NoZero.append {s t : String} (hs : NoZero s) (ht : NoZero t) : NoZero (s ++ t) := by
  rw [NoZero, String.toList_append, List.mem_append, not_or]
  exact ⟨hs, ht⟩

/-- the part that has no zero byte is read -/
theorem NoZero.cStr_append {s : String} (hs : NoZero s) (t : String) : Lib.cStr (s ++ t) = s ++ Lib.cStr t := by
  have hall : ∀ c ∈ s.toList, decide (c ≠ '\x00') = true := by
    intro c hc
    simpa using fun heq : c = '\x00' => hs (heq ▸ hc)
  rw [Lib.cStr, String.toList_append, List.takeWhile_append_of_pos hall, String.ofList_append, String.ofList_toList,
    Lib.cStr]

/-! ## Pieces -/

def pieces (d : Char) (s : String) : List String :=
  ((s.toList.splitOn d).filter fun l => !l.isEmpty).map String.ofList

/-- a text that can be a part of a joined one -/
structure Part (d : Char) (s : String) : Prop where
  nonempty : s.toList ≠ []
  free : d ∉ s.toList

theorem pieces_intercalate {sep : String} {d : Char} (hsep : sep.toList = [d]) {l : List String}
    (hl : ∀ s ∈ l, Part d s) : pieces d (sep.intercalate l) = l := by
  rw [pieces, String.toList_intercalate, hsep]
  cases l with
  | nil => rfl
  | cons s l =>
    have hfree : ∀ cs ∈ (s :: l).map String.toList, d ∉ cs := by
      intro cs hcs
      obtain ⟨t, ht, rfl⟩ := List.mem_map.1 hcs
      exact (hl t ht).free
    have hall : ∀ cs ∈ (s :: l).map String.toList, (!cs.isEmpty) = true := by
      intro cs hcs
      obtain ⟨t, ht, rfl⟩ := List.mem_map.1 hcs
      simpa using (hl t ht).nonempty
    rw [List.splitOn_intercalate d hfree (by simp), List.filter_eq_self.2 hall, List.map_map]
    simp

/-- a text joined with another separator -/
theorem part_intercalate {sep : String} {d e : Char} (hsep : sep.toList = [e]) (hne : d ≠ e) {l : List String}
    (hl : ∀ s ∈ l, Part d s) (hnil : l ≠ []) : Part d (sep.intercalate l) := by
  induction l with
  | nil => exact absurd rfl hnil
  | cons s l ih =>
    have hs := hl s List.mem_cons_self
    cases l with
    | nil =>
      rw [String.intercalate_singleton]
      exact hs
    | cons t l =>
      have hrest := ih (fun u hu => hl u (List.mem_cons_of_mem s hu)) (List.cons_ne_nil t l)
      rw [String.intercalate_cons_cons]
      constructor
      · simp [hs.nonempty]
      · simp only [String.toList_append, List.mem_append, hsep, List.mem_singleton, not_or]
        exact ⟨⟨hs.free, hne⟩, hrest.free⟩

/-! ## Numbers -/

/-- the value of the digits at the start -/
def digitsValue (l : List Char) : ℕ := Nat.ofDigitChars 10 (l.takeWhile Char.isDigit) 0

/-- white space, a sign, digits; what follows is not read -/
def atoi (s : String) : ℤ :=
  match s.toList.dropWhile Char.isWhitespace with
  | '-' :: l => -digitsValue l
  | '+' :: l => digitsValue l
  | l => digitsValue l

theorem isDigit_toDigits {n : ℕ} {c : Char} (hc : c ∈ Nat.toDigits 10 n) : c.isDigit = true :=
  Nat.isDigit_of_mem_toDigits (by decide) (by decide) hc

theorem digitsValue_toDigits (n : ℕ) : digitsValue (Nat.toDigits 10 n) = n := by
  have hall : (Nat.toDigits 10 n).takeWhile Char.isDigit = Nat.toDigits 10 n :=
    List.takeWhile_eq_self_iff.2 fun c hc => isDigit_toDigits hc
  rw [digitsValue, hall, Nat.ofDigitChars_ten_toDigits]

/-- the text of a number -/
theorem toList_toString (n : ℤ) :
    (toString n).toList = if 0 ≤ n then Nat.toDigits 10 n.toNat else '-' :: Nat.toDigits 10 (-n).toNat := by
  rw [Int.toString_eq_repr, Int.repr_eq_if]
  split_ifs
  · rw [Nat.toList_repr]
  · rw [String.toList_append, Nat.toList_repr]
    rfl

/-- the characters of a number -/
theorem mem_toString {n : ℤ} {c : Char} (hc : c ∈ (toString n).toList) : c.isDigit = true ∨ c = '-' := by
  rw [toList_toString] at hc
  split_ifs at hc
  · exact Or.inl (isDigit_toDigits hc)
  · rcases List.mem_cons.1 hc with rfl | hc
    · exact Or.inr rfl
    · exact Or.inl (isDigit_toDigits hc)

theorem toString_ne_nil (n : ℤ) : (toString n).toList ≠ [] := by
  rw [toList_toString]
  split_ifs
  · exact Nat.toDigits_ne_nil
  · exact List.cons_ne_nil _ _

/-- a number is a part of any text whose separator is neither a digit nor the sign -/
theorem part_toString {d : Char} (hd : d.isDigit = false) (hsign : d ≠ '-') (n : ℤ) : Part d (toString n) where
  nonempty := toString_ne_nil n
  free := by
    intro hmem
    rcases mem_toString hmem with hdigit | heq
    · rw [hd] at hdigit
      cases hdigit
    · exact hsign heq

theorem not_isWhitespace {c : Char} (h : c.isDigit = true) : c.isWhitespace = false := by
  by_contra hspace
  rw [Bool.not_eq_false, Char.isWhitespace] at hspace
  simp only [Bool.or_eq_true, decide_eq_true_eq] at hspace
  rcases hspace with ((rfl | rfl) | rfl) | rfl <;> cases h

theorem atoi_toString (n : ℤ) : atoi (toString n) = n := by
  rw [atoi, toList_toString]
  split_ifs with hn
  · obtain ⟨c, l, hcl⟩ := List.exists_cons_of_ne_nil (Nat.toDigits_ne_nil (b := 10) (n := n.toNat))
    have hc : c.isDigit = true := isDigit_toDigits (hcl ▸ List.mem_cons_self)
    have hminus : c ≠ '-' := by rintro rfl; cases hc
    have hplus : c ≠ '+' := by rintro rfl; cases hc
    have hdrop : (Nat.toDigits 10 n.toNat).dropWhile Char.isWhitespace = Nat.toDigits 10 n.toNat := by
      rw [hcl, List.dropWhile_cons, not_isWhitespace hc]
      rfl
    have hvalue := digitsValue_toDigits n.toNat
    rw [hdrop]
    rw [hcl] at hvalue ⊢
    split
    · simp_all
    · simp_all
    · omega
  · have hvalue := digitsValue_toDigits (-n).toNat
    have hdrop : ('-' :: Nat.toDigits 10 (-n).toNat).dropWhile Char.isWhitespace =
        '-' :: Nat.toDigits 10 (-n).toNat := rfl
    rw [hdrop]
    simp only [hvalue]
    omega

/-! ## Sizes -/

/-- the number of the characters of a decimal number -/
def width (n : ℤ) : ℕ := Nat.log 10 n.natAbs + 1 + if n < 0 then 1 else 0

theorem length_toDigits (n : ℕ) : (Nat.toDigits 10 n).length = Nat.log 10 n + 1 := by
  have hle {k : ℕ} (hk : 0 < k) : (Nat.toDigits 10 n).length ≤ k ↔ Nat.log 10 n + 1 ≤ k := by
    rw [Nat.length_toDigits_le_iff (by decide) hk, Nat.add_one_le_iff]
    exact ⟨Nat.log_lt_of_lt_pow' hk.ne', Nat.lt_pow_of_log_lt (by decide)⟩
  apply le_antisymm
  · exact (hle (Nat.succ_pos _)).2 le_rfl
  · exact (hle Nat.length_toDigits_pos).1 le_rfl

theorem length_toString (n : ℤ) : (toString n).toList.length = width n := by
  rw [toList_toString, width]
  split_ifs with hn hneg
  · omega
  · have habs : n.toNat = n.natAbs := by omega
    rw [length_toDigits, habs, add_zero]
  · have habs : (-n).toNat = n.natAbs := by omega
    rw [List.length_cons, length_toDigits, habs]
  · omega

theorem width_le {n : ℤ} {k : ℕ} (hn : n.natAbs < 10 ^ k) : width n ≤ k + 1 := by
  rw [width]
  rcases Nat.eq_zero_or_pos k with rfl | hk
  · have hzero : n = 0 := by simpa using hn
    simp [hzero]
  · have hlog := Nat.log_lt_of_lt_pow' hk.ne' hn
    split_ifs <;> omega

/-- a character that is one byte -/
theorem size_of_ascii {s : String} (h : ∀ c ∈ s.toList, c.utf8Size = 1) : s.utf8ByteSize = s.toList.length := by
  have hchars (l : List Char) (hl : ∀ c ∈ l, c.utf8Size = 1) : (String.ofList l).utf8ByteSize = l.length := by
    induction l with
    | nil => rfl
    | cons c l ih =>
      rw [← List.singleton_append, String.ofList_append, String.utf8ByteSize_append, ← String.singleton_eq_ofList,
        String.utf8ByteSize_singleton, hl c List.mem_cons_self, ih fun c hc => hl c (List.mem_cons_of_mem _ hc),
        List.length_append, List.length_singleton]
  have hs := hchars s.toList h
  rwa [String.ofList_toList] at hs

theorem size_toString (n : ℤ) : (toString n).utf8ByteSize = width n := by
  rw [size_of_ascii, length_toString]
  intro c hc
  rw [Char.utf8Size_eq_one_iff]
  rcases mem_toString hc with hdigit | rfl
  · have hle : c.toNat ≤ 57 := (Char.isDigit_iff_toNat.1 hdigit).2
    exact UInt32.le_iff_toNat_le.2 (hle.trans (by decide))
  · decide

theorem size_intercalate (sep : String) (l : List String) :
    (sep.intercalate l).utf8ByteSize = (l.map String.utf8ByteSize).sum + sep.utf8ByteSize * (l.length - 1) := by
  induction l with
  | nil => simp
  | cons s l ih =>
    cases l with
    | nil => simp
    | cons t l =>
      rw [String.intercalate_cons_cons, String.utf8ByteSize_append, String.utf8ByteSize_append, ih]
      simp
      ring

theorem size_join (l : List String) : (String.join l).utf8ByteSize = (l.map String.utf8ByteSize).sum := by
  induction l with
  | nil => rfl
  | cons s l ih => rw [String.join_cons, String.utf8ByteSize_append, ih, List.map_cons, List.sum_cons]

end DreamHeroes.Lib

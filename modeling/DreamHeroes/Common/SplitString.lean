/-
`SplitStringA` of `common/utilities.cpp`, over characters of any type. The first loop collects the places of the
delimiter, the second one cuts.

- `toInt`, `toSize`: what `int` and `std::size_t` make of each other; `npos` becomes `-1`.
- `find`, `substr`: the members of `std::string`.
- `splitStringA`: its first argument bounds the turns of the first loop, and there is no result when they are too few.
- `find_offset`, `cut_eq`: the one loop finds where the pieces start, the other takes them.
- `splitStringA_cuts`: the non-empty pieces between the occurrences of the delimiter, and a joined list comes back.
- `splitStringA_pieces`: `Lib.pieces` is `SplitStringA` with a delimiter of one character.
-/
import Mathlib.Tactic
import Mathlib.Data.List.GetD
import DreamHeroes.Lib.Cuts
import DreamHeroes.Lib.Text

namespace DreamHeroes.SplitString

open DreamHeroes.Lib

variable {α : Type*} [DecidableEq α]

/-! ## The source -/

def npos : ℕ := 2 ^ 64 - 1

/-- a `std::size_t` as an `int` -/
def toInt (n : ℕ) : ℤ := (BitVec.ofNat 32 n).toInt

/-- an `int` as a `std::size_t` -/
def toSize (z : ℤ) : ℕ := (z % 2 ^ 64).toNat

def findFrom (d : List α) (k : ℕ) (s : List α) : ℕ :=
  if d <+: s then k
  else match s with
    | [] => npos
    | _ :: s => findFrom d (k + 1) s

/-- `std::string::find` -/
def find (s d : List α) (pos : ℕ) : ℕ := if pos ≤ s.length then findFrom d pos (s.drop pos) else npos

/-- `std::string::substr` -/
def substr (s : List α) (pos n : ℕ) : List α := (s.drop pos).take n

/-- `std::vector::clear` -/
def clear (_ : List (List α)) : List (List α) := []

variable (strIn strDelimiter : List α) (delimiterLength strInLength : ℤ)

/-- the first loop: `positions` -/
def collect : ℕ → (iPos newPos : ℤ) → (positions : List ℤ) → Option (List ℤ)
  | 0, _, _, _ => none
  | fuel + 1, iPos, newPos, positions =>
    if iPos ≤ newPos then
      collect fuel newPos (toInt (find strIn strDelimiter (toSize (newPos + delimiterLength)))) (positions ++ [newPos])
    else some positions

omit [DecidableEq α] in
/-- a turn of the second loop: `s` -/
def cut (positions : List ℤ) (i : ℕ) : List α :=
  if i = 0 then substr strIn i (toSize (positions.getD i 0))
  else
    let offset := positions.getD (i - 1) 0 + delimiterLength
    if offset < strInLength then
      if i = positions.length then substr strIn (toSize offset) npos
      else substr strIn (toSize offset) (toSize (positions.getD i 0 - positions.getD (i - 1) 0 - delimiterLength))
    else []

/-- `SplitStringA`: what it returns, and `ret` -/
def splitStringA (fuel : ℕ) (ret : List (List α)) : Option (ℤ × List (List α)) :=
  let ret := clear ret
  let delimiterLength := toInt strDelimiter.length
  let strInLength := toInt strIn.length
  if delimiterLength = 0 ∨ strInLength = 0 then some (0, ret)
  else
    let newPos := toInt (find strIn strDelimiter 0)
    if newPos < 0 then some (1, ret ++ [strIn])
    else (collect strIn strDelimiter delimiterLength fuel 0 newPos []).map fun positions =>
      (positions.length, (List.range (positions.length + 1)).foldl (fun ret i =>
        let s := cut strIn delimiterLength strInLength positions i
        if 0 < s.length then ret ++ [s] else ret) ret)

/-! ## Conversions -/

theorem toInt_of_lt {n : ℕ} (h : n < 2 ^ 31) : toInt n = n := by
  rw [toInt, BitVec.toInt_eq_toNat_bmod, BitVec.toNat_ofNat, Int.bmod]
  omega

theorem toInt_npos : toInt npos = -1 := by decide

/-- only a multiple of `2 ^ 32` becomes 0 -/
theorem toInt_eq_zero_iff (n : ℕ) : toInt n = 0 ↔ n % 2 ^ 32 = 0 := by
  rw [toInt, BitVec.toInt_eq_toNat_bmod, BitVec.toNat_ofNat, Int.bmod]
  omega

theorem toSize_natCast {n : ℕ} (h : n < 2 ^ 64) : toSize n = n := by
  rw [toSize]
  omega

/-! ## The first loop -/

theorem findFrom_none {d s : List α} (h : ¬d <:+: s) (k : ℕ) : findFrom d k s = npos := by
  induction s generalizing k with
  | nil => rw [findFrom, if_neg fun hd => h hd.isInfix]
  | cons c s ih =>
    rw [findFrom, if_neg fun hd => h hd.isInfix, ih fun hs => h (hs.trans (List.suffix_cons c s).isInfix)]

theorem findFrom_first {d s : List α} {m : ℕ} (hfirst : ∀ i < m, ¬d <+: s.drop i) (hm : d <+: s.drop m) (k : ℕ) :
    findFrom d k s = k + m := by
  induction m generalizing k s with
  | zero =>
    rw [List.drop_zero] at hm
    rw [findFrom.eq_def, if_pos hm, add_zero]
  | succ m ih =>
    have h0 := hfirst 0 (Nat.succ_pos m)
    rw [List.drop_zero] at h0
    cases s with
    | nil => exact absurd hm h0
    | cons c s =>
      rw [findFrom, if_neg h0, ih (fun i hi => hfirst (i + 1) (by omega)) hm, Nat.add_right_comm, Nat.add_assoc]

/-- from the start of a piece on, the delimiter is found where the piece ends -/
theorem find_offset {s d : List α} {ps : List (List α)} (h : Cuts d s ps) {i : ℕ} (hi : i < ps.length) :
    find s d (offset d.length ps i) =
      if i + 1 < ps.length then offset d.length ps i + ps[i].length else npos := by
  obtain ⟨hle, hdrop⟩ := h.drop hi
  rw [find, if_pos hle]
  generalize hs : s.drop (offset d.length ps i) = t at hdrop
  have hpieces : ps.drop i = ps[i] :: ps.drop (i + 1) := List.drop_eq_getElem_cons hi
  rw [hpieces] at hdrop
  generalize hrest : ps.drop (i + 1) = rest at hdrop
  have hlen : rest.length = ps.length - (i + 1) := by rw [← hrest, List.length_drop]
  generalize ps[i] = p at hdrop
  cases hdrop with
  | last hnone =>
    rw [List.length_nil] at hlen
    rw [if_neg (by omega), findFrom_none hnone]
  | cut hfirst hcuts =>
    have hpos := List.length_pos_of_ne_nil hcuts.ne_nil
    rw [if_pos (by omega)]
    refine findFrom_first hfirst ?_ _
    rw [List.append_assoc, List.drop_left]
    exact List.prefix_append _ _

/-- where the piece `i` ends -/
def pieceEnd (n : ℕ) (ps : List (List α)) (i : ℕ) : ℕ := offset n ps i + (ps.getD i []).length

section Pieces

variable {s d : List α} {ps : List (List α)} (hcuts : Cuts d s ps) (hs : s.length < 2 ^ 31) (hd : d ≠ [])

include hcuts

omit [DecidableEq α] in
theorem pieceEnd_add {i : ℕ} (hi : i + 1 < ps.length) :
    pieceEnd d.length ps i + d.length = offset d.length ps (i + 1) ∧ offset d.length ps (i + 1) ≤ s.length := by
  refine ⟨?_, (hcuts.drop hi).1⟩
  rw [pieceEnd, offset_succ _ (by omega), List.getD_eq_getElem _ _ (by omega)]

theorem toInt_find_last {i : ℕ} (hi : i + 1 = ps.length) : toInt (find s d (offset d.length ps i)) = -1 := by
  rw [find_offset hcuts (by omega), if_neg (by omega), toInt_npos]

include hs

theorem toInt_find {i : ℕ} (hi : i + 1 < ps.length) :
    toInt (find s d (offset d.length ps i)) = pieceEnd d.length ps i := by
  have hend := pieceEnd_add hcuts hi
  have hfind : find s d (offset d.length ps i) = pieceEnd d.length ps i := by
    rw [find_offset hcuts (by omega), if_pos hi, pieceEnd, List.getD_eq_getElem _ _ (by omega)]
  rw [hfind, toInt_of_lt (by omega)]

/-- the first loop, when the places of the first `i` delimiters are known -/
theorem collect_eq {fuel i : ℕ} (hi : i < ps.length) (hfuel : ps.length < i + 1 + fuel) {iPos : ℤ} (h0 : 0 ≤ iPos)
    (hpos : iPos ≤ offset d.length ps i) :
    collect s d d.length fuel iPos (toInt (find s d (offset d.length ps i)))
        ((List.range i).map fun i => (pieceEnd d.length ps i : ℤ)) =
      some ((List.range (ps.length - 1)).map fun i => (pieceEnd d.length ps i : ℤ)) := by
  induction fuel generalizing i iPos with
  | zero => omega
  | succ fuel ih =>
    by_cases hlast : i + 1 = ps.length
    · rw [toInt_find_last hcuts hlast, collect, if_neg (by omega), ← hlast, Nat.add_sub_cancel]
    · have hnext : i + 1 < ps.length := by omega
      obtain ⟨hend, hle⟩ := pieceEnd_add hcuts hnext
      have hstart : offset d.length ps i ≤ pieceEnd d.length ps i := Nat.le_add_right _ _
      have hsize : toSize ((pieceEnd d.length ps i : ℤ) + d.length) = offset d.length ps (i + 1) := by
        rw [← Nat.cast_add, hend, toSize_natCast (by omega)]
      rw [toInt_find hcuts hs hnext, collect, if_pos (by omega), hsize]
      have hrange : (List.range i).map (fun i => (pieceEnd d.length ps i : ℤ)) ++ [(pieceEnd d.length ps i : ℤ)] =
          (List.range (i + 1)).map fun i => (pieceEnd d.length ps i : ℤ) := by
        rw [List.range_succ, List.map_append, List.map_singleton]
      rw [hrange]
      exact ih hnext (by omega) (by omega) (by omega)

/-! ## The second loop -/

omit hs
omit [DecidableEq α] in
theorem take_piece {i : ℕ} (hi : i < ps.length) : (s.drop (offset d.length ps i)).take ps[i].length = ps[i] := by
  have hrest := (hcuts.drop hi).2.eq_intercalate
  have hpieces : ps.drop i = ps[i] :: ps.drop (i + 1) := List.drop_eq_getElem_cons hi
  rw [hrest, hpieces]
  cases ps.drop (i + 1) with
  | nil => rw [List.intercalate_singleton, List.take_length]
  | cons q qs => rw [List.intercalate_cons_cons, List.append_assoc, List.take_left]

omit [DecidableEq α] in
theorem drop_last {i : ℕ} (hi : i + 1 = ps.length) :
    s.drop (offset d.length ps i) = ps.getD i [] := by
  have hrest := (hcuts.drop (by omega : i < ps.length)).2.eq_intercalate
  have hpieces : ps.drop i = ps[i] :: ps.drop (i + 1) := List.drop_eq_getElem_cons (by omega)
  rw [hrest, hpieces, List.drop_of_length_le hi.ge, List.intercalate_singleton, List.getD_eq_getElem]

include hs

omit [DecidableEq α] in
/-- a turn of the second loop takes one piece -/
theorem cut_eq {i : ℕ} (hi : i < ps.length) (hmany : 1 < ps.length) :
    cut s d.length s.length ((List.range (ps.length - 1)).map fun i => (pieceEnd d.length ps i : ℤ)) i = ps[i] := by
  set positions := (List.range (ps.length - 1)).map fun i => (pieceEnd d.length ps i : ℤ) with hpositions
  have hlen : positions.length = ps.length - 1 := by rw [hpositions, List.length_map, List.length_range]
  have hget (j : ℕ) (hj : j + 1 < ps.length) : positions.getD j 0 = pieceEnd d.length ps j := by
    rw [List.getD_eq_getElem _ _ (by omega)]
    simp [hpositions]
  have htake := take_piece hcuts hi
  have hend : pieceEnd d.length ps i = offset d.length ps i + ps[i].length := by
    rw [pieceEnd, List.getD_eq_getElem _ _ hi]
  cases i with
  | zero =>
    have hle := (pieceEnd_add hcuts hmany).2
    have hadd := (pieceEnd_add hcuts hmany).1
    rw [offset_zero] at hend htake
    rw [cut, if_pos rfl, hget 0 hmany, toSize_natCast (by omega), hend, zero_add, substr]
    exact htake
  | succ i =>
    obtain ⟨hadd, hle⟩ := pieceEnd_add hcuts hi
    have hoffset : positions.getD i 0 + d.length = (offset d.length ps (i + 1) : ℤ) := by
      rw [hget i hi, ← Nat.cast_add, hadd]
    rw [cut, if_neg (Nat.succ_ne_zero i), Nat.add_sub_cancel, hoffset]
    dsimp only
    split_ifs with hlt hlast
    · have hnpos : s.length ≤ npos := by rw [npos]; omega
      rw [substr, toSize_natCast (by omega), drop_last hcuts (by omega), List.getD_eq_getElem _ _ hi]
      apply List.take_of_length_le
      rw [← htake, List.length_take, List.length_drop]
      omega
    · have hsize : toSize (positions.getD (i + 1) 0 - positions.getD i 0 - d.length) = ps[i + 1].length := by
        have hnext := (pieceEnd_add hcuts (by omega : i + 1 + 1 < ps.length))
        rw [hget (i + 1) (by omega), hget i hi, toSize]
        omega
      rw [substr, toSize_natCast (by omega), hsize]
      exact htake
    · rw [← htake, List.drop_of_length_le (by omega), List.take_nil]

end Pieces

/-! ## The function -/

/-- the pieces that are not empty -/
def nonempty (ps : List (List α)) : List (List α) := ps.filter fun p => !p.isEmpty

omit [DecidableEq α] in
theorem foldl_push (f : ℕ → List α) (l : List ℕ) (ret : List (List α)) :
    l.foldl (fun ret i => if 0 < (f i).length then ret ++ [f i] else ret) ret = ret ++ nonempty (l.map f) := by
  induction l generalizing ret with
  | nil => rw [List.foldl_nil, List.map_nil, nonempty, List.filter_nil, List.append_nil]
  | cons i l ih =>
    rw [List.foldl_cons, ih, List.map_cons, nonempty, nonempty]
    cases f i with
    | nil => rfl
    | cons c p => simp

omit [DecidableEq α] in
/-- the early return is not taken -/
theorem not_skipped {s d : List α} (hs : s.length < 2 ^ 31) (hd : d.length % 2 ^ 32 ≠ 0) (hne : s ≠ []) :
    ¬(toInt d.length = 0 ∨ toInt s.length = 0) := by
  have hspos := List.length_pos_of_ne_nil hne
  rintro (h | h)
  · exact hd ((toInt_eq_zero_iff _).1 h)
  · rw [toInt_of_lt hs] at h
    omega

/-- no delimiter is found -/
theorem splitStringA_one {s d : List α} (hs : s.length < 2 ^ 31) (hd : d.length % 2 ^ 32 ≠ 0)
    (hne : s ≠ []) {p : List α} (hcuts : Cuts d s [p]) (fuel : ℕ) (ret : List (List α)) :
    (splitStringA s d fuel ret).map Prod.snd = some (nonempty [p]) := by
  have hnone : toInt (find s d 0) = -1 := by
    rw [← toInt_find_last (i := 0) hcuts rfl, offset_zero]
  have hp : s = p := by rw [hcuts.eq_intercalate, List.intercalate_singleton]
  have hkeep : nonempty [s] = [s] := by
    rw [nonempty, List.filter_eq_self]
    intro q hq
    rw [List.mem_singleton.1 hq]
    simpa using hne
  unfold splitStringA
  simp only [if_neg (not_skipped hs hd hne), hnone, clear]
  rw [if_pos (by decide), ← hp, hkeep]
  rfl

/-- the two loops -/
theorem splitStringA_many {s d : List α} (hs : s.length < 2 ^ 31) (hd : d.length % 2 ^ 32 ≠ 0) (hne : s ≠ [])
    {ps : List (List α)} (hcuts : Cuts d s ps) (hmany : 1 < ps.length) {fuel : ℕ} (hfuel : s.length < fuel)
    (ret : List (List α)) : (splitStringA s d fuel ret).map Prod.snd = some (nonempty ps) := by
  have hdpos : 0 < d.length := by
    by_contra hzero
    rw [Nat.eq_zero_of_not_pos hzero] at hd
    exact hd rfl
  have hend := pieceEnd_add hcuts hmany
  have hslen : toInt s.length = s.length := toInt_of_lt hs
  have hdlen : toInt d.length = d.length := toInt_of_lt (by omega)
  have hskip := not_skipped hs hd hne
  have hturns : ps.length - 1 ≤ offset d.length ps (ps.length - 1) := le_offset hdpos (by omega)
  have hle := (hcuts.drop (by omega : ps.length - 1 < ps.length)).1
  have hfound : ¬toInt (find s d 0) < 0 := by
    have hfirst := toInt_find hcuts hs hmany
    rw [offset_zero] at hfirst
    omega
  rw [hdlen, hslen] at hskip
  have hcollect := collect_eq hcuts hs (by omega) (by omega : ps.length < 0 + 1 + fuel) le_rfl (by simp)
  rw [List.range_zero, List.map_nil, offset_zero] at hcollect
  have hpieces : (List.range ps.length).map
      (cut s d.length s.length ((List.range (ps.length - 1)).map fun i => (pieceEnd d.length ps i : ℤ))) = ps := by
    refine List.ext_getElem (by simp) fun i hi hi' => ?_
    rw [List.getElem_map, List.getElem_range, cut_eq hcuts hs hi' hmany]
  unfold splitStringA
  simp only [hdlen, hslen, if_neg hskip, if_neg hfound, hcollect, Option.map_some, foldl_push, clear, List.nil_append,
    List.length_map, List.length_range, Nat.sub_add_cancel hmany.le, hpieces]

theorem splitStringA_eq {s d : List α} (hs : s.length < 2 ^ 31) (hd : d.length % 2 ^ 32 ≠ 0) {ps : List (List α)}
    (hcuts : Cuts d s ps) {fuel : ℕ} (hfuel : s.length < fuel) (ret : List (List α)) :
    (splitStringA s d fuel ret).map Prod.snd = some (nonempty ps) := by
  have hpspos := List.length_pos_of_ne_nil hcuts.ne_nil
  by_cases hempty : s = []
  · subst hempty
    have hps : ps = [[]] := by
      refine hcuts.unique (Cuts.last fun h => hd ?_)
      rw [List.eq_nil_of_infix_nil h]
      rfl
    have hzero : toInt ([] : List α).length = 0 := toInt_of_lt hs
    rw [splitStringA, if_pos (Or.inr hzero), hps]
    rfl
  · by_cases hmany : 1 < ps.length
    · exact splitStringA_many hs hd hempty hcuts hmany hfuel ret
    · obtain ⟨p, rfl⟩ := List.length_eq_one_iff.1 (by omega : ps.length = 1)
      exact splitStringA_one hs hd hempty hcuts fuel ret

/-- **The pieces.** `SplitStringA` gives the non-empty pieces of a text between the occurrences of the delimiter, and
parts that were joined with one character. -/
theorem splitStringA_cuts :
    (∀ s d : List α, s.length < 2 ^ 31 → d.length % 2 ^ 32 ≠ 0 → ∀ fuel > s.length, ∀ ret,
      ∃ ps, Cuts d s ps ∧ (splitStringA s d fuel ret).map Prod.snd = some (nonempty ps)) ∧
    ∀ (c : α) (l : List (List α)), (∀ p ∈ l, p ≠ [] ∧ c ∉ p) → ([c].intercalate l).length < 2 ^ 31 →
      ∀ fuel > ([c].intercalate l).length, ∀ ret,
        (splitStringA ([c].intercalate l) [c] fuel ret).map Prod.snd = some l := by
  constructor
  · intro s d hs hd fuel hfuel ret
    have hne : d ≠ [] := by
      rintro rfl
      exact hd rfl
    obtain ⟨ps, hcuts⟩ := exists_cuts hne s
    exact ⟨ps, hcuts, splitStringA_eq hs hd hcuts hfuel ret⟩
  · intro c l hl hlen fuel hfuel ret
    have hnonempty : nonempty l = l := by
      rw [nonempty, List.filter_eq_self]
      intro p hp
      simpa using (hl p hp).1
    cases l with
    | nil => rfl
    | cons p l =>
      have hcuts : Cuts [c] ([c].intercalate (p :: l)) (p :: l) :=
        cuts_singleton_iff.2 ⟨List.cons_ne_nil p l, fun q hq => (hl q hq).2, rfl⟩
      rw [splitStringA_eq hlen (by simp) hcuts hfuel ret, hnonempty]

/-- two characters as the delimiter, at the start, side by side and overlapping -/
theorem splitStringA_cuts_nine :
    (∃ ps, Cuts [1, 1] [1, 1, 7, 1, 1, 1, 1, 1, 8] ps ∧
      (splitStringA [1, 1, 7, 1, 1, 1, 1, 1, 8] [1, 1] 10 [[5]]).map Prod.snd = some (nonempty ps)) ∧
    (splitStringA ([0].intercalate [[1, 2], [3]]) [0] 5 [[5]]).map Prod.snd = some [[1, 2], [3]] :=
  ⟨(splitStringA_cuts (α := ℕ)).1 _ _ (by decide) (by decide) 10 (by decide) _,
    (splitStringA_cuts (α := ℕ)).2 0 [[1, 2], [3]] (by decide) (by decide) 5 (by decide) _⟩

/-- a delimiter of `2 ^ 32` characters has the length 0 as an `int`, and nothing is given -/
theorem splitStringA_long : ¬∃ ps, Cuts (List.replicate (2 ^ 32) 1) [0] ps ∧
    (splitStringA [0] (List.replicate (2 ^ 32) 1) 2 []).map Prod.snd = some (nonempty ps) := by
  have hlen : toInt (List.replicate (2 ^ 32) 1).length = 0 := by rw [List.length_replicate]; decide
  rintro ⟨ps, hcuts, heq⟩
  have hps : ps = [[0]] := by
    refine hcuts.unique (Cuts.last fun h => ?_)
    have hle := h.length_le
    rw [List.length_replicate] at hle
    exact absurd hle (by decide)
  rw [splitStringA, if_pos (Or.inl hlen), hps] at heq
  exact absurd heq (by decide)

/-! ## Texts -/

/-- `pieces` is what `SplitStringA` gives for a delimiter of one character -/
theorem splitStringA_pieces (c : Char) (s : String) (hs : s.toList.length < 2 ^ 31) {fuel : ℕ}
    (hfuel : s.toList.length < fuel) (ret : List (List Char)) :
    (splitStringA s.toList [c] fuel ret).map (fun r => r.2.map String.ofList) = some (pieces c s) := by
  obtain ⟨ps, hcuts⟩ := exists_cuts (List.cons_ne_nil c []) s.toList
  have hsplit := splitStringA_eq hs (by simp) hcuts hfuel ret
  rw [Option.map_eq_some_iff] at hsplit
  obtain ⟨r, hr, hps⟩ := hsplit
  rw [hr, Option.map_some, hps, pieces, hcuts.splitOn_eq]
  rfl

end DreamHeroes.SplitString

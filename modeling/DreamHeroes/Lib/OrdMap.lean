/-
Ordered finite maps (`Std.TreeMap`) with the updates a map-of-pointers container has besides overwriting: insertion that
refuses to overwrite (`Std.TreeMap.insertIfNew`), erasure of a key, and erasure of a value under every key that carries
it (`eraseVal`). Each update comes with one lookup equation, stated on `m[k]?` alone, so that a proof about the
container never sees how it is stored. `Apart` and `SameKeys` compare the keys of two maps; an update of one or of both
keeps them (`Apart.erase`, `Apart.move`, `SameKeys.insertIfNew` and the others). `lookup_toList` is the lookup in the
list of the entries, `get_insertAll` that in a map to which a list of entries with different keys is added, and
`foldl_takeWhile_le` what a walk over the entries up to a key ends with. `of_update_none` and `of_update_or` are the
same two updates of a map that is a function into an `Option`.
-/
import Mathlib.Tactic

namespace DreamHeroes.Lib

variable {K V W : Type*}

/-! ## Lists of entries -/

section

variable [BEq K] [LawfulBEq K]

theorem lookup_eq_none {l : List (K × V)} {k : K} (h : k ∉ l.map Prod.fst) : l.lookup k = none := by
  induction l with
  | nil => rfl
  | cons e l ih =>
    rw [List.map_cons, List.mem_cons, not_or] at h
    rw [List.lookup_cons, beq_eq_false_iff_ne.2 h.1]
    exact ih h.2

theorem lookup_eq_some_iff {l : List (K × V)} (hl : (l.map Prod.fst).Nodup) (k : K) (v : V) :
    l.lookup k = some v ↔ (k, v) ∈ l := by
  induction l with
  | nil => simp
  | cons e l ih =>
    rw [List.map_cons, List.nodup_cons] at hl
    rw [List.lookup_cons, List.mem_cons]
    by_cases hk : k = e.1
    · subst hk
      have hnone : (e.1, v) ∉ l := fun hmem => hl.1 (List.mem_map.2 ⟨_, hmem, rfl⟩)
      simp [hnone, Prod.ext_iff, eq_comm]
    · simp [beq_eq_false_iff_ne.2 hk, ih hl.2, Prod.ext_iff, hk]

end

/-! ## Maps that are functions -/

section

variable [DecidableEq K] {f : K → Option V} {k j : K}

/-- what is there after a key has been erased was there before -/
theorem of_update_none {v : V} (h : Function.update f k none j = some v) : f j = some v := by
  rcases eq_or_ne j k with rfl | hj
  · rw [Function.update_self] at h
    exact absurd h.symm (Option.some_ne_none v)
  · rwa [Function.update_of_ne hj] at h

/-- insertion that refuses to overwrite: what is there was there before, or is the new entry -/
theorem of_update_or {v w : V} (h : Function.update f k ((f k).or (some v)) j = some w) :
    f j = some w ∨ (j = k ∧ v = w) := by
  rcases eq_or_ne j k with rfl | hj
  · rw [Function.update_self] at h
    rcases Option.or_eq_some_iff.1 h with hold | ⟨-, hnew⟩
    · exact .inl hold
    · exact .inr ⟨rfl, Option.some.inj hnew⟩
  · rw [Function.update_of_ne hj] at h
    exact .inl h

end

/-! ## Updates -/

variable [DecidableEq K] [Ord K] [Std.TransOrd K] [Std.LawfulEqOrd K]

theorem get_insert (m : Std.TreeMap K V) (k j : K) (v : V) :
    (m.insert k v)[j]? = if j = k then some v else m[j]? := by
  simp only [Std.TreeMap.getElem?_insert, Std.compare_eq_iff_eq, @eq_comm _ k]

/-- insertion that refuses to overwrite -/
theorem get_insertIfNew (m : Std.TreeMap K V) (k j : K) (v : V) :
    (m.insertIfNew k v)[j]? = if j = k ∧ m[k]? = none then some v else m[j]? := by
  simp only [Std.TreeMap.getElem?_insertIfNew, Std.compare_eq_iff_eq, @eq_comm _ k, Std.TreeMap.mem_iff_isSome_getElem?,
    Bool.not_eq_true, Option.isSome_eq_false_iff, Option.isNone_iff_eq_none]

theorem get_erase (m : Std.TreeMap K V) (k j : K) : (m.erase k)[j]? = if j = k then none else m[j]? := by
  simp only [Std.TreeMap.getElem?_erase, Std.compare_eq_iff_eq, @eq_comm _ k]

/-- erase every key whose value is `v` -/
def eraseVal [DecidableEq V] (m : Std.TreeMap K V) (v : V) : Std.TreeMap K V :=
  m.foldl (fun acc k w => if w = v then acc.erase k else acc) m

/-- the loop erases a key exactly when the list holds it with the value -/
theorem get_eraseLoop [DecidableEq V] (v : V) (l : List (K × V)) (acc : Std.TreeMap K V) (j : K) :
    (l.foldl (fun acc e => if e.2 = v then acc.erase e.1 else acc) acc)[j]? =
      if (j, v) ∈ l then none else acc[j]? := by
  induction l generalizing acc with
  | nil => simp
  | cons e l ih =>
    obtain ⟨k, w⟩ := e
    rw [List.foldl_cons, ih]
    by_cases hl : (j, v) ∈ l
    · simp [hl]
    · by_cases hw : w = v
      · subst hw; simp [hl, get_erase]
      · simp [hl, hw, Ne.symm hw]

theorem get_eraseVal [DecidableEq V] (m : Std.TreeMap K V) (v : V) (j : K) :
    (eraseVal m v)[j]? = if m[j]? = some v then none else m[j]? := by
  rw [eraseVal, Std.TreeMap.foldl_eq_foldl_toList, get_eraseLoop]
  simp only [Std.TreeMap.mem_toList_iff_getElem?_eq_some]

/-- a value survives the erasure exactly when it is another one -/
theorem get_eraseVal_eq_some [DecidableEq V] (m : Std.TreeMap K V) (v w : V) (j : K) :
    (eraseVal m v)[j]? = some w ↔ m[j]? = some w ∧ w ≠ v := by
  rw [get_eraseVal]
  split_ifs with h
  · simp only [h, Option.some.injEq, false_iff, not_and, not_not]; exact Eq.symm
  · exact ⟨fun hj => ⟨hj, fun e => h (e ▸ hj)⟩, fun hj => hj.1⟩

theorem get_erase_eq_some (m : Std.TreeMap K V) (k j : K) (v : V) :
    (m.erase k)[j]? = some v ↔ j ≠ k ∧ m[j]? = some v := by
  rw [get_erase]
  split_ifs with h
  · simp [h]
  · simp [h]

theorem get_erase_ne_none (m : Std.TreeMap K V) (k j : K) : (m.erase k)[j]? ≠ none ↔ j ≠ k ∧ m[j]? ≠ none := by
  rw [get_erase]
  split_ifs with h
  · simp [h]
  · simp [h]

/-- a key that is not in the map -/
theorem get_insertIfNew_eq_some {m : Std.TreeMap K V} {k : K} (hk : m[k]? = none) (j : K) (v w : V) :
    (m.insertIfNew k v)[j]? = some w ↔ j = k ∧ v = w ∨ j ≠ k ∧ m[j]? = some w := by
  rw [get_insertIfNew]
  by_cases hj : j = k
  · simp [hj, hk]
  · simp [hj]

theorem get_insertIfNew_ne_none {m : Std.TreeMap K V} {j : K} (h : m[j]? ≠ none) (k : K) (v : V) :
    (m.insertIfNew k v)[j]? ≠ none := by
  rw [get_insertIfNew]
  split_ifs
  · exact Option.some_ne_none v
  · exact h

theorem get_insertIfNew_self_ne_none (m : Std.TreeMap K V) (k : K) (v : V) : (m.insertIfNew k v)[k]? ≠ none := by
  rw [get_insertIfNew]
  split_ifs with h
  · exact Option.some_ne_none v
  · exact fun hnone => h ⟨rfl, hnone⟩

/-! ## Two maps -/

section

variable {m : Std.TreeMap K V} {m' : Std.TreeMap K W}

/-- no key is in both maps -/
def Apart (m : Std.TreeMap K V) (m' : Std.TreeMap K W) : Prop := ∀ k : K, m[k]? = none ∨ m'[k]? = none

omit [DecidableEq K] [Std.TransOrd K] [Std.LawfulEqOrd K] in
theorem Apart.symm (h : Apart m m') : Apart m' m := fun k => (h k).symm

theorem Apart.erase (h : Apart m m') (k : K) : Apart (m.erase k) m' := by
  intro j
  rw [get_erase]
  split_ifs
  · exact .inl rfl
  · exact h j

theorem Apart.eraseVal [DecidableEq V] (h : Apart m m') (v : V) : Apart (eraseVal m v) m' := by
  intro j
  rw [get_eraseVal]
  split_ifs
  · exact .inl rfl
  · exact h j

theorem Apart.insertIfNew (h : Apart m m') {k : K} (v : V) (hk : m'[k]? = none) : Apart (m.insertIfNew k v) m' := by
  intro j
  rw [get_insertIfNew]
  split_ifs with hj
  · exact .inr (hj.1 ▸ hk)
  · exact h j

/-- the key goes from one map to the other -/
theorem Apart.move (h : Apart m m') (k : K) (v : V) : Apart (m.insertIfNew k v) (m'.erase k) :=
  Apart.insertIfNew (h.symm.erase k).symm v (by rw [get_erase, if_pos rfl])

/-- the two maps have the same keys -/
def SameKeys (m : Std.TreeMap K V) (m' : Std.TreeMap K W) : Prop := ∀ k : K, m[k]? = none ↔ m'[k]? = none

theorem SameKeys.erase (h : SameKeys m m') (k : K) : SameKeys (m.erase k) (m'.erase k) := by
  intro j
  rw [get_erase, get_erase]
  split_ifs
  · exact iff_of_true rfl rfl
  · exact h j

theorem SameKeys.insertIfNew (h : SameKeys m m') (k : K) (v : V) (w : W) :
    SameKeys (m.insertIfNew k v) (m'.insertIfNew k w) := by
  intro j
  rw [get_insertIfNew, get_insertIfNew]
  by_cases hj : j = k
  · subst hj
    have hsame := h j
    by_cases hnew : m[j]? = none
    · simp [hnew, hsame.1 hnew]
    · have hnew' : ¬ m'[j]? = none := fun hnone => hnew (hsame.2 hnone)
      simp [hnew, hnew']
  · rw [if_neg fun hc => hj hc.1, if_neg fun hc => hj hc.1]
    exact h j

end

/-! ## The entries of a map -/

omit [DecidableEq K] [Std.LawfulEqOrd K] in
theorem toList_keys_nodup (m : Std.TreeMap K V) : (m.toList.map Prod.fst).Nodup := by
  rw [Std.TreeMap.map_fst_toList_eq_keys]
  exact m.nodup_keys

omit [DecidableEq K] in
theorem lookup_toList [BEq K] [LawfulBEq K] (m : Std.TreeMap K V) (k : K) : m.toList.lookup k = m[k]? := by
  ext v
  rw [lookup_eq_some_iff (toList_keys_nodup m), Std.TreeMap.mem_toList_iff_getElem?_eq_some]

/-- a list of entries with different keys -/
theorem get_insertAll [BEq K] [LawfulBEq K] {l : List (K × V)} (hl : (l.map Prod.fst).Nodup)
    (m : Std.TreeMap K V) (k : K) :
    (l.foldl (fun m e => m.insert e.1 e.2) m)[k]? = (l.lookup k).or m[k]? := by
  induction l generalizing m with
  | nil => rfl
  | cons e l ih =>
    rw [List.map_cons, List.nodup_cons] at hl
    rw [List.foldl_cons, ih hl.2, get_insert, List.lookup_cons]
    by_cases hk : k = e.1
    · subst hk
      simp [lookup_eq_none hl.1]
    · simp [hk, beq_eq_false_iff_ne.2 hk]

/-! ## Walking over the entries in order -/

omit [DecidableEq K] [Ord K] [Std.TransOrd K] [Std.LawfulEqOrd K] in
/-- the last value of a list with increasing keys whose key is at most `r` -/
theorem foldl_takeWhile_le [LinearOrder K] {l : List (K × V)} (hl : l.Pairwise fun a b => a.1 < b.1) {k r : K} {v : V}
    (d : V) (hmem : (k, v) ∈ l) (hk : k ≤ r) (hmax : ∀ e ∈ l, e.1 ≤ r → e.1 ≤ k) :
    (l.takeWhile fun e => decide (e.1 ≤ r)).foldl (fun _ e => e.2) d = v := by
  induction l generalizing d with
  | nil => cases hmem
  | cons a l ih =>
    obtain ⟨hhead, hl⟩ := List.pairwise_cons.1 hl
    rcases List.mem_cons.1 hmem with rfl | hmem
    · have hrest : l.takeWhile (fun e => decide (e.1 ≤ r)) = [] := by
        cases l with
        | nil => rfl
        | cons b l =>
          have hb : ¬ b.1 ≤ r := fun hb =>
            absurd (hhead b List.mem_cons_self) (not_lt.2 (hmax b (List.mem_cons_of_mem _ List.mem_cons_self) hb))
          exact List.takeWhile_cons_of_neg (by simpa using hb)
      rw [List.takeWhile_cons_of_pos (by simpa using hk), List.foldl_cons, hrest]
      rfl
    · have ha : a.1 ≤ r := (hhead _ hmem).le.trans hk
      rw [List.takeWhile_cons_of_pos (by simpa using ha), List.foldl_cons]
      exact ih hl _ hmem fun e he => hmax e (List.mem_cons_of_mem _ he)

end DreamHeroes.Lib

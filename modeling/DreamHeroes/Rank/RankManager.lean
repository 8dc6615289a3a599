/-
The daily rank list (`gameserver/RankManager.cpp`): a list of entries and a map from the account to the rank.

- `DailyRank`: the order of the sort. It is a strict order; `notAfter` is the order of the list that it sorts by, score
  descending and, for equal scores, time ascending. `std::list::sort` is stable, and so is `List.insertionSort`.
- `updateHeroDailyRank`: the loop that looks for the account (`rewriteEntry`), the entry appended with the rank behind
  the last one, and the sort with its loop that numbers the list anew (`numberFrom`, `rankMap`).
- `update_held`, `update_new`, `update_low_held`, `update_low_new`, `update_full`: what a call does, by whether the
  score is above the cached minimum, whether the account has an entry and whether the list is full.
- `Numbered`: the ranks are the positions and no account has two entries. Every call keeps that (`update_numbered`),
  whatever becomes of the order.

The cached minimum is not initialised by the constructor.
-/
import Mathlib.Tactic
import DreamHeroes.Lib.OrdMap
import DreamHeroes.Config.GameDay

namespace DreamHeroes.Rank

open DreamHeroes.Lib DreamHeroes.Config

/-! ## Model -/

structure DailyGameRankTg where
  name : String
  acc : ℕ
  score : ℤ
  rank : ℤ
  time : ℕ
deriving DecidableEq, Repr

structure RankManager where
  heroesDailyRank : List DailyGameRankTg := []
  heroesRank : Std.TreeMap ℕ ℤ := {}
  dailyMaxRankSize : ℕ
  minDailyScore : ℤ
  dailyGameBeginTime : ℕ := 0
  maxDailyProgress : ℤ := 0

/-- `DailyRank::operator()` -/
def DailyRank (t1 t2 : DailyGameRankTg) : Bool :=
  if t1.score > t2.score then true else if t1.score = t2.score then decide (t1.time < t2.time) else false

/-- the order of a list sorted by `DailyRank` -/
def notAfter (t1 t2 : DailyGameRankTg) : Prop := DailyRank t2 t1 = false

instance : DecidableRel notAfter := fun t1 t2 => inferInstanceAs (Decidable (DailyRank t2 t1 = false))

def clearRankList (m : RankManager) : RankManager := { m with heroesDailyRank := [], heroesRank := {} }

/-- the loop of `removeHero`: the ranks of the map are one behind, and the entry after the erased one is stepped over;
to step over the end has no defined result -/
def removeLoop (acc : ℕ) : List DailyGameRankTg → ℤ → Std.TreeMap ℕ ℤ →
    Option (List DailyGameRankTg × Std.TreeMap ℕ ℤ)
  | [], _, heroesRank => some ([], heroesRank)
  | entry :: l, tempRank, heroesRank =>
    let heroesRank := heroesRank.insert entry.acc tempRank
    if entry.acc = acc then
      match l with
      | [] => none
      | next :: l => (removeLoop acc l tempRank heroesRank).map fun r => (next :: r.1, r.2)
    else
      let heroesRank := heroesRank.insert entry.acc (tempRank + 1)
      (removeLoop acc l (tempRank + 1) heroesRank).map fun r => ({ entry with rank := tempRank } :: r.1, r.2)

def removeHero (m : RankManager) (acc : ℕ) : Option RankManager :=
  (removeLoop acc m.heroesDailyRank 1 {}).map fun r => { m with heroesDailyRank := r.1, heroesRank := r.2 }

def getHeroDailyRank (m : RankManager) (acc : ℕ) : ℤ :=
  match m.heroesRank[acc]? with
  | some rank => rank
  | none => m.dailyMaxRankSize + 1

/-- the first loop of `updateHeroDailyRank` -/
def rewriteEntry (acc : ℕ) (name : String) (score : ℤ) : List DailyGameRankTg → List DailyGameRankTg
  | [] => []
  | entry :: l =>
    if entry.acc = acc then { entry with score := score, name := name } :: l
    else entry :: rewriteEntry acc name score l

/-- the last loop: the ranks -/
def numberFrom (tempRank : ℤ) : List DailyGameRankTg → List DailyGameRankTg
  | [] => []
  | entry :: l => { entry with rank := tempRank } :: numberFrom (tempRank + 1) l

/-- the last loop: the map -/
def rankMap (l : List DailyGameRankTg) : Std.TreeMap ℕ ℤ := l.foldl (fun m entry => m.insert entry.acc entry.rank) {}

/-- the last loop: the out parameter -/
def rankOut (acc : ℕ) (l : List DailyGameRankTg) (rank : ℤ) : ℤ :=
  l.foldl (fun rank entry => if entry.acc = acc then entry.rank else rank) rank

/-- the state after the call and the out parameter `rank` -/
def updateHeroDailyRank (m : RankManager) (serverTime : ℤ) (acc : ℕ) (name : String) (score : ℤ) : RankManager × ℤ :=
  let rank : ℤ := m.dailyMaxRankSize + 1
  let full := !decide (m.heroesRank.size < m.dailyMaxRankSize)
  let needAdd := if score ≤ m.minDailyScore then !full else true
  let needRank := if score ≤ m.minDailyScore then false else true
  let needAdd := if m.heroesDailyRank.any (fun entry => entry.acc = acc) then false else needAdd
  let m := { m with heroesDailyRank := rewriteEntry acc name score m.heroesDailyRank }
  let (m, rank) :=
    if needAdd then
      let rank : ℤ := m.heroesDailyRank.length + 1
      let entry := { name := name, acc := acc, score := score, rank := rank, time := u32 serverTime }
      ({ m with heroesDailyRank := m.heroesDailyRank ++ [entry], heroesRank := m.heroesRank.insert acc rank,
                minDailyScore := score }, rank)
    else (m, rank)
  if needRank then
    let l := numberFrom 1 (m.heroesDailyRank.insertionSort notAfter)
    ({ m with heroesDailyRank := l, heroesRank := rankMap l }, rankOut acc l rank)
  else (m, rank)

/-! ## The order -/

theorem notAfter_iff (a b : DailyGameRankTg) :
    notAfter a b ↔ b.score < a.score ∨ (a.score = b.score ∧ a.time ≤ b.time) := by
  simp only [notAfter, DailyRank]
  split_ifs with h1 h2 <;> simp <;> omega

theorem notAfter_trans {a b c : DailyGameRankTg} (hab : notAfter a b) (hbc : notAfter b c) : notAfter a c := by
  rw [notAfter_iff] at *
  omega

theorem notAfter_total (a b : DailyGameRankTg) : notAfter a b ∨ notAfter b a := by
  simp only [notAfter_iff]
  omega

instance : Std.Total notAfter := ⟨notAfter_total⟩

instance : IsTrans DailyGameRankTg notAfter := ⟨fun _ _ _ => notAfter_trans⟩

/-- behind the last entry of a sorted list is behind every entry -/
theorem sorted_concat {l : List DailyGameRankTg} (h : l.Pairwise notAfter) (x : DailyGameRankTg) :
    (l ++ [x]).Pairwise notAfter ↔ ∀ e ∈ l.getLast?, notAfter e x := by
  induction l using List.reverseRecOn with
  | nil => simp
  | append_singleton l e ih =>
    have hle : ∀ a ∈ l, notAfter a e := by
      intro a ha
      exact (List.pairwise_append.1 h).2.2 a ha e (List.mem_singleton.2 rfl)
    rw [List.pairwise_append]
    constructor
    · rintro ⟨-, -, hx⟩ a ha
      exact hx a (List.mem_of_getLast? ha) x (List.mem_singleton.2 rfl)
    · intro hx
      have hex : notAfter e x := hx e (by simp)
      refine ⟨h, List.pairwise_singleton _ _, ?_⟩
      intro a ha b hb
      obtain rfl := List.mem_singleton.1 hb
      rcases List.mem_append.1 ha with ha | ha
      · exact notAfter_trans (hle a ha) hex
      · obtain rfl := List.mem_singleton.1 ha
        exact hex

/-! ## The loops -/

/-- the entry of an account -/
def entryOf (l : List DailyGameRankTg) (acc : ℕ) : Option DailyGameRankTg := l.find? fun entry => entry.acc = acc

theorem entryOf_cons_self (entry : DailyGameRankTg) (l : List DailyGameRankTg) :
    entryOf (entry :: l) entry.acc = some entry := by
  simp [entryOf]

theorem entryOf_cons_ne {entry : DailyGameRankTg} {acc : ℕ} (h : entry.acc ≠ acc) (l : List DailyGameRankTg) :
    entryOf (entry :: l) acc = entryOf l acc := by
  simp [entryOf, h]

theorem entryOf_append (l l' : List DailyGameRankTg) (acc : ℕ) :
    entryOf (l ++ l') acc = (entryOf l acc).or (entryOf l' acc) :=
  List.find?_append

theorem entryOf_eq_none {l : List DailyGameRankTg} {acc : ℕ} :
    entryOf l acc = none ↔ acc ∉ l.map DailyGameRankTg.acc := by
  simp [entryOf]

theorem any_acc_iff (l : List DailyGameRankTg) (acc : ℕ) :
    (l.any fun entry => entry.acc = acc) = true ↔ acc ∈ l.map DailyGameRankTg.acc := by
  simp

theorem any_acc_eq_false {l : List DailyGameRankTg} {acc : ℕ} (h : acc ∉ l.map DailyGameRankTg.acc) :
    (l.any fun entry => entry.acc = acc) = false :=
  Bool.eq_false_iff.2 fun hany => h ((any_acc_iff l acc).1 hany)

theorem rewriteEntry_acc (acc : ℕ) (name : String) (score : ℤ) (l : List DailyGameRankTg) :
    (rewriteEntry acc name score l).map DailyGameRankTg.acc = l.map DailyGameRankTg.acc := by
  induction l with
  | nil => rfl
  | cons entry l ih =>
    rw [rewriteEntry]
    split_ifs
    · rfl
    · simp [ih]

theorem rewriteEntry_absent {acc : ℕ} (name : String) (score : ℤ) {l : List DailyGameRankTg}
    (h : acc ∉ l.map DailyGameRankTg.acc) : rewriteEntry acc name score l = l := by
  induction l with
  | nil => rfl
  | cons entry l ih =>
    rw [List.map_cons, List.mem_cons, not_or] at h
    rw [rewriteEntry, if_neg (Ne.symm h.1), ih h.2]

theorem rewriteEntry_length (acc : ℕ) (name : String) (score : ℤ) (l : List DailyGameRankTg) :
    (rewriteEntry acc name score l).length = l.length := by
  simpa using congrArg List.length (rewriteEntry_acc acc name score l)

theorem numberFrom_length (r : ℤ) (l : List DailyGameRankTg) : (numberFrom r l).length = l.length := by
  induction l generalizing r with
  | nil => rfl
  | cons entry l ih => simp [numberFrom, ih]

theorem numberFrom_acc (r : ℤ) (l : List DailyGameRankTg) :
    (numberFrom r l).map DailyGameRankTg.acc = l.map DailyGameRankTg.acc := by
  induction l generalizing r with
  | nil => rfl
  | cons entry l ih => simp [numberFrom, ih]

theorem numberFrom_rank (r : ℤ) (l : List DailyGameRankTg) :
    (numberFrom r l).map DailyGameRankTg.rank = (List.range l.length).map fun i : ℕ => r + (i : ℤ) := by
  induction l generalizing r with
  | nil => rfl
  | cons entry l ih =>
    simp only [numberFrom, List.map_cons, ih, List.length_cons, List.range_succ_eq_map, List.map_map]
    congr 1
    · simp
    · apply List.map_congr_left
      intro i _
      simp only [Function.comp_apply, Nat.succ_eq_add_one]
      push_cast
      ring

theorem mem_numberFrom {r : ℤ} {l : List DailyGameRankTg} {e : DailyGameRankTg} (h : e ∈ numberFrom r l) :
    ∃ e' ∈ l, e.score = e'.score ∧ e.time = e'.time := by
  induction l generalizing r with
  | nil => cases h
  | cons entry l ih =>
    rcases List.mem_cons.1 h with rfl | h
    · exact ⟨entry, List.mem_cons_self, rfl, rfl⟩
    · obtain ⟨e', he', heq⟩ := ih h
      exact ⟨e', List.mem_cons_of_mem _ he', heq⟩

/-- the ranks do not count for the order -/
theorem numberFrom_sorted (r : ℤ) {l : List DailyGameRankTg} (h : l.Pairwise notAfter) :
    (numberFrom r l).Pairwise notAfter := by
  induction h generalizing r with
  | nil => exact List.Pairwise.nil
  | @cons entry l hentry _ ih =>
    refine List.Pairwise.cons ?_ (ih (r + 1))
    intro e he
    obtain ⟨e', he', hscore, htime⟩ := mem_numberFrom he
    have hle := hentry e' he'
    rw [notAfter_iff] at hle ⊢
    simpa [hscore, htime] using hle

/-- with one entry for each account the map holds the ranks of the entries -/
theorem get_rankMap {l : List DailyGameRankTg} (h : (l.map DailyGameRankTg.acc).Nodup) (acc : ℕ) :
    (rankMap l)[acc]? = (entryOf l acc).map DailyGameRankTg.rank := by
  have hfold : ∀ (l : List DailyGameRankTg) (m : Std.TreeMap ℕ ℤ), (l.map DailyGameRankTg.acc).Nodup →
      (l.foldl (fun m entry => m.insert entry.acc entry.rank) m)[acc]? =
        match entryOf l acc with
        | some entry => some entry.rank
        | none => m[acc]? := by
    intro l
    induction l with
    | nil => intro m _; rfl
    | cons entry l ih =>
      intro m hl
      rw [List.map_cons, List.nodup_cons] at hl
      rw [List.foldl_cons, ih _ hl.2, get_insert]
      by_cases hacc : entry.acc = acc
      · subst hacc
        rw [entryOf_eq_none.2 hl.1, entryOf_cons_self]
        exact if_pos rfl
      · rw [entryOf_cons_ne hacc, if_neg (Ne.symm hacc)]
  rw [rankMap, hfold l {} h]
  cases entryOf l acc with
  | none => simp
  | some entry => rfl

theorem rankMap_size {l : List DailyGameRankTg} (h : (l.map DailyGameRankTg.acc).Nodup) :
    (rankMap l).size = l.length := by
  induction l using List.reverseRecOn with
  | nil => rfl
  | append_singleton l entry ih =>
    rw [List.map_append, List.nodup_append] at h
    have habsent : entry.acc ∉ l.map DailyGameRankTg.acc := fun hmem => h.2.2 _ hmem _ (by simp) rfl
    have hnew : entry.acc ∉ rankMap l := by
      rw [Std.TreeMap.mem_iff_isSome_getElem?, get_rankMap h.1, entryOf_eq_none.2 habsent]
      exact Bool.false_ne_true
    have hcons : rankMap (l ++ [entry]) = (rankMap l).insert entry.acc entry.rank := by
      simp [rankMap, List.foldl_append]
    rw [hcons, Std.TreeMap.size_insert, if_neg (by simpa using hnew), ih h.1, List.length_append, List.length_singleton]

theorem rankOut_eq {l : List DailyGameRankTg} (h : (l.map DailyGameRankTg.acc).Nodup) (acc : ℕ) (rank : ℤ) :
    rankOut acc l rank = ((entryOf l acc).map DailyGameRankTg.rank).getD rank := by
  induction l generalizing rank with
  | nil => rfl
  | cons entry l ih =>
    rw [List.map_cons, List.nodup_cons] at h
    have hstep : rankOut acc (entry :: l) rank = rankOut acc l (if entry.acc = acc then entry.rank else rank) := rfl
    rw [hstep, ih h.2]
    by_cases hacc : entry.acc = acc
    · subst hacc
      rw [entryOf_eq_none.2 h.1, entryOf_cons_self, if_pos rfl]
      rfl
    · rw [entryOf_cons_ne hacc, if_neg hacc]

/-! ## What a call does -/

/-- the list after the sort and the last loop -/
def ranked (l : List DailyGameRankTg) : List DailyGameRankTg := numberFrom 1 (l.insertionSort notAfter)

theorem ranked_acc (l : List DailyGameRankTg) :
    ((ranked l).map DailyGameRankTg.acc).Perm (l.map DailyGameRankTg.acc) := by
  rw [ranked, numberFrom_acc]
  exact (List.perm_insertionSort notAfter l).map _

theorem ranked_length (l : List DailyGameRankTg) : (ranked l).length = l.length := by
  rw [ranked, numberFrom_length, List.length_insertionSort]

theorem ranked_sorted (l : List DailyGameRankTg) : (ranked l).Pairwise notAfter :=
  numberFrom_sorted 1 (List.pairwise_insertionSort notAfter l)

/-- the entry of a new account -/
def newEntry (m : RankManager) (serverTime : ℤ) (acc : ℕ) (name : String) (score : ℤ) : DailyGameRankTg where
  name := name
  acc := acc
  score := score
  rank := m.heroesDailyRank.length + 1
  time := u32 serverTime

variable {m : RankManager} {acc : ℕ} {score : ℤ} (serverTime : ℤ) (name : String)

theorem update_held (hscore : m.minDailyScore < score) (hheld : acc ∈ m.heroesDailyRank.map DailyGameRankTg.acc) :
    updateHeroDailyRank m serverTime acc name score =
      ({ m with heroesDailyRank := ranked (rewriteEntry acc name score m.heroesDailyRank),
                heroesRank := rankMap (ranked (rewriteEntry acc name score m.heroesDailyRank)) },
        rankOut acc (ranked (rewriteEntry acc name score m.heroesDailyRank)) (m.dailyMaxRankSize + 1)) := by
  have hany := (any_acc_iff m.heroesDailyRank acc).2 hheld
  simp only [updateHeroDailyRank, if_neg (not_le.2 hscore), hany, if_true, Bool.false_eq_true, if_false]
  rfl

theorem update_new (hscore : m.minDailyScore < score) (hnew : acc ∉ m.heroesDailyRank.map DailyGameRankTg.acc) :
    updateHeroDailyRank m serverTime acc name score =
      ({ m with heroesDailyRank := ranked (m.heroesDailyRank ++ [newEntry m serverTime acc name score]),
                heroesRank := rankMap (ranked (m.heroesDailyRank ++ [newEntry m serverTime acc name score])),
                minDailyScore := score },
        rankOut acc (ranked (m.heroesDailyRank ++ [newEntry m serverTime acc name score]))
          (m.heroesDailyRank.length + 1)) := by
  have hany := any_acc_eq_false hnew
  simp only [updateHeroDailyRank, if_neg (not_le.2 hscore), hany, if_true, Bool.false_eq_true, if_false,
    rewriteEntry_absent name score hnew]
  rfl

/-- a score that is not above the minimum is written into the entry, and nothing else happens -/
theorem update_low_held (hscore : score ≤ m.minDailyScore) (hheld : acc ∈ m.heroesDailyRank.map DailyGameRankTg.acc) :
    updateHeroDailyRank m serverTime acc name score =
      ({ m with heroesDailyRank := rewriteEntry acc name score m.heroesDailyRank }, (m.dailyMaxRankSize : ℤ) + 1) := by
  have hany := (any_acc_iff m.heroesDailyRank acc).2 hheld
  simp only [updateHeroDailyRank, if_pos hscore, hany, if_true, Bool.false_eq_true, if_false]

/-- a new account with such a score is appended while there is room -/
theorem update_low_new (hscore : score ≤ m.minDailyScore) (hnew : acc ∉ m.heroesDailyRank.map DailyGameRankTg.acc)
    (hroom : m.heroesRank.size < m.dailyMaxRankSize) :
    updateHeroDailyRank m serverTime acc name score =
      ({ m with heroesDailyRank := m.heroesDailyRank ++ [newEntry m serverTime acc name score],
                heroesRank := m.heroesRank.insert acc (m.heroesDailyRank.length + 1), minDailyScore := score },
        (m.heroesDailyRank.length : ℤ) + 1) := by
  have hany := any_acc_eq_false hnew
  simp only [updateHeroDailyRank, if_pos hscore, hany, hroom, decide_true, Bool.not_true, Bool.not_false, if_true,
    Bool.false_eq_true, if_false, rewriteEntry_absent name score hnew]
  rfl

theorem update_full (hscore : score ≤ m.minDailyScore) (hnew : acc ∉ m.heroesDailyRank.map DailyGameRankTg.acc)
    (hfull : m.dailyMaxRankSize ≤ m.heroesRank.size) :
    updateHeroDailyRank m serverTime acc name score = (m, (m.dailyMaxRankSize : ℤ) + 1) := by
  have hany := any_acc_eq_false hnew
  simp only [updateHeroDailyRank, if_pos hscore, hany, not_lt.2 hfull, decide_false, Bool.not_false, Bool.not_true,
    Bool.false_eq_true, if_false, rewriteEntry_absent name score hnew]

/-! ## What every call keeps -/

structure Numbered (l : List DailyGameRankTg) : Prop where
  ranks : l.map DailyGameRankTg.rank = (List.range l.length).map fun i : ℕ => 1 + (i : ℤ)
  accounts : (l.map DailyGameRankTg.acc).Nodup

theorem rewriteEntry_rank (acc : ℕ) (name : String) (score : ℤ) (l : List DailyGameRankTg) :
    (rewriteEntry acc name score l).map DailyGameRankTg.rank = l.map DailyGameRankTg.rank := by
  induction l with
  | nil => rfl
  | cons entry l ih =>
    rw [rewriteEntry]
    split_ifs
    · rfl
    · simp [ih]

theorem Numbered.rewrite {l : List DailyGameRankTg} (h : Numbered l) (acc : ℕ) (name : String) (score : ℤ) :
    Numbered (rewriteEntry acc name score l) :=
  ⟨by rw [rewriteEntry_rank, rewriteEntry_length, h.ranks], by rw [rewriteEntry_acc]; exact h.accounts⟩

theorem Numbered.append {l : List DailyGameRankTg} (h : Numbered l) {entry : DailyGameRankTg}
    (hnew : entry.acc ∉ l.map DailyGameRankTg.acc) (hrank : entry.rank = l.length + 1) : Numbered (l ++ [entry]) := by
  refine ⟨?_, ?_⟩
  · calc (l ++ [entry]).map DailyGameRankTg.rank = l.map DailyGameRankTg.rank ++ [entry.rank] := List.map_append
      _ = ((List.range l.length).map fun i : ℕ => 1 + (i : ℤ)) ++ [(l.length : ℤ) + 1] := by rw [h.ranks, hrank]
      _ = (List.range (l ++ [entry]).length).map fun i : ℕ => 1 + (i : ℤ) := by
          rw [List.length_append, List.length_singleton, List.range_succ, List.map_append]
          simp [add_comm]
  · rw [List.map_append]
    exact List.nodup_append.2 ⟨h.accounts, List.nodup_singleton _, fun a ha b hb heq =>
      hnew (List.mem_singleton.1 hb ▸ heq ▸ ha)⟩

/-- the sort and the last loop number any list of different accounts -/
theorem numbered_ranked {l : List DailyGameRankTg} (h : (l.map DailyGameRankTg.acc).Nodup) : Numbered (ranked l) := by
  refine ⟨?_, (ranked_acc l).nodup_iff.2 h⟩
  rw [ranked_length, ranked, numberFrom_rank, List.length_insertionSort]

/-- the four ways a call can go -/
theorem update_cases (m : RankManager) (acc : ℕ) (score : ℤ) :
    (m.minDailyScore < score ∧ acc ∈ m.heroesDailyRank.map DailyGameRankTg.acc) ∨
      (m.minDailyScore < score ∧ acc ∉ m.heroesDailyRank.map DailyGameRankTg.acc) ∨
      (score ≤ m.minDailyScore ∧ acc ∈ m.heroesDailyRank.map DailyGameRankTg.acc) ∨
      (score ≤ m.minDailyScore ∧ acc ∉ m.heroesDailyRank.map DailyGameRankTg.acc ∧
        m.heroesRank.size < m.dailyMaxRankSize) ∨
      (score ≤ m.minDailyScore ∧ acc ∉ m.heroesDailyRank.map DailyGameRankTg.acc ∧
        m.dailyMaxRankSize ≤ m.heroesRank.size) := by
  have h1 := lt_or_ge m.minDailyScore score
  have h2 := lt_or_ge m.heroesRank.size m.dailyMaxRankSize
  tauto

theorem update_numbered (h : Numbered m.heroesDailyRank) :
    Numbered (updateHeroDailyRank m serverTime acc name score).1.heroesDailyRank := by
  rcases update_cases m acc score with ⟨hs, ha⟩ | ⟨hs, ha⟩ | ⟨hs, ha⟩ | ⟨hs, ha, hsize⟩ | ⟨hs, ha, hsize⟩
  · rw [update_held serverTime name hs ha]
    exact numbered_ranked (h.rewrite acc name score).accounts
  · rw [update_new serverTime name hs ha]
    have happend : Numbered (m.heroesDailyRank ++ [newEntry m serverTime acc name score]) := h.append ha rfl
    exact numbered_ranked happend.accounts
  · rw [update_low_held serverTime name hs ha]
    exact h.rewrite acc name score
  · rw [update_low_new serverTime name hs ha hsize]
    exact h.append ha rfl
  · rw [update_full serverTime name hs ha hsize]
    exact h

/-- no other account comes in -/
theorem update_accounts (acc' : ℕ)
    (hacc : acc' ∈ (updateHeroDailyRank m serverTime acc name score).1.heroesDailyRank.map DailyGameRankTg.acc) :
    acc' ∈ m.heroesDailyRank.map DailyGameRankTg.acc ∨ acc' = acc := by
  rcases update_cases m acc score with ⟨hs, ha⟩ | ⟨hs, ha⟩ | ⟨hs, ha⟩ | ⟨hs, ha, hsize⟩ | ⟨hs, ha, hsize⟩
  · rw [update_held serverTime name hs ha] at hacc
    rw [(ranked_acc _).mem_iff, rewriteEntry_acc] at hacc
    exact .inl hacc
  · rw [update_new serverTime name hs ha] at hacc
    rw [(ranked_acc _).mem_iff, List.map_append, List.mem_append] at hacc
    exact hacc.imp_right List.mem_singleton.1
  · rw [update_low_held serverTime name hs ha, rewriteEntry_acc] at hacc
    exact .inl hacc
  · rw [update_low_new serverTime name hs ha hsize, List.map_append, List.mem_append] at hacc
    exact hacc.imp_right List.mem_singleton.1
  · rw [update_full serverTime name hs ha hsize] at hacc
    exact .inl hacc

/-- different accounts stay different, also on a list that is not numbered -/
theorem update_nodup (h : (m.heroesDailyRank.map DailyGameRankTg.acc).Nodup) :
    ((updateHeroDailyRank m serverTime acc name score).1.heroesDailyRank.map DailyGameRankTg.acc).Nodup := by
  have happend (ha : acc ∉ m.heroesDailyRank.map DailyGameRankTg.acc) :
      ((m.heroesDailyRank ++ [newEntry m serverTime acc name score]).map DailyGameRankTg.acc).Nodup := by
    rw [List.map_append]
    exact h.append (List.nodup_singleton _) (List.disjoint_singleton.2 ha)
  rcases update_cases m acc score with ⟨hs, ha⟩ | ⟨hs, ha⟩ | ⟨hs, ha⟩ | ⟨hs, ha, hsize⟩ | ⟨hs, ha, hsize⟩
  · rw [update_held serverTime name hs ha, (ranked_acc _).nodup_iff, rewriteEntry_acc]
    exact h
  · rw [update_new serverTime name hs ha, (ranked_acc _).nodup_iff]
    exact happend ha
  · rw [update_low_held serverTime name hs ha, rewriteEntry_acc]
    exact h
  · rw [update_low_new serverTime name hs ha hsize]
    exact happend ha
  · rw [update_full serverTime name hs ha hsize]
    exact h

theorem update_beginTime :
    (updateHeroDailyRank m serverTime acc name score).1.dailyGameBeginTime = m.dailyGameBeginTime := by
  simp only [updateHeroDailyRank]
  split_ifs <;> rfl

end DreamHeroes.Rank

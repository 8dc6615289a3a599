/-
The names that `DreamHeroManager::generateName` gives, and the table they are made with.

- `refreshDayNumber`: the table of a day. `save`, `Load`: the row it is kept in, which only `save` writes.
- `generateStr_inj`: six rows that are permutations tell counters apart that differ modulo `10 ^ 6`.
- `generateName_key`: a name is made with a counter that the same call has reached. `generateName_taken`: a name that is
  taken already comes after 101 candidates that were taken.
- `generateNames_fresh`: the names of a day, and the table after a restart.

`refreshHeroTitle` runs at the start and in `refreshDayNumber`, so that the title is the same in between. The times are
Unix times.
-/
import Mathlib.Tactic
import Mathlib.Data.List.GetD
import DreamHeroes.GameServer.Commands
import DreamHeroes.Hero.RoundTrip

namespace DreamHeroes.GameServer.Names

open DreamHeroes.Lib DreamHeroes.Commands

/-! ## The source -/

/-- the row of `heroes_status` -/
structure HeroesStatus where
  sid : ℕ
  serverId : String
  dayCreateHeroesCount : ℕ
  dayNumber : String
  heroesOnlineCount : ℕ
  saveTime : ℕ
  dealOrderId : ℤ
  dailyGameBeginTime : ℕ
deriving DecidableEq, Repr

/-- `heroes_status`, whose key is `sid`: every statement writes the row 0 -/
structure StatusTable where
  rows : List HeroesStatus := []
  sid_eq_zero : ∀ r ∈ rows, r.sid = 0 := by simp

/-- what `Load` and `save` touch of `DreamHeroManager`, and the time that `RankManager` keeps -/
structure Manager where
  names : HeroNames := {}
  lastSaveTime : ℕ := 0
  dealOrderId : ℤ := 0
  dailyGameBeginTime : ℕ := 0

/-- a loop that writes a separator when something has been written -/
def joined (sep : String) (l : List String) : String :=
  l.foldl (fun s t => (if s = "" then s else s ++ sep) ++ t) ""

/-- `number_str` -/
def numberStr (dayNumber : ℕ → ℕ → ℤ) : String :=
  joined ";" ((List.range 6).map fun i => joined "," ((List.range 10).map fun j => toString (dayNumber i j)))

/-- the row that the statement of `save` writes -/
def statusOf (m : Manager) (heroes now : ℕ) : HeroesStatus where
  sid := 0
  serverId := m.names.serverId
  dayCreateHeroesCount := m.names.dayCreateHeroesCount
  dayNumber := numberStr m.names.dayNumber
  heroesOnlineCount := heroes
  saveTime := now
  dealOrderId := m.dealOrderId
  dailyGameBeginTime := m.dailyGameBeginTime

/-- `replace into` with the key 0 -/
def replaceInto (t : StatusTable) (r : HeroesStatus) (hr : r.sid = 0) : StatusTable where
  rows := t.rows.filter (fun r' => r'.sid ≠ r.sid) ++ [r]
  sid_eq_zero r' hr' := by
    rcases List.mem_append.1 hr' with h | h
    · exact t.sid_eq_zero r' (List.mem_filter.1 h).1
    · rwa [List.mem_singleton.1 h]

/-- `DreamHeroManager::save` -/
def save (m : Manager) (heroes now : ℕ) (t : StatusTable) : Manager × StatusTable :=
  ({ m with lastSaveTime := now }, replaceInto t (statusOf m heroes now) rfl)

/-- the inner loop of `Load`: a row of `_day_number`, whose entries are an `u8` -/
def readRow (numbers : String) (row : ℕ → ℤ) : ℕ → ℤ :=
  (pieces ',' numbers).zipIdx.foldl (fun row e => Function.update row e.2 (atoi e.1 % 256)) row

/-- the outer loop -/
def readDayNumber (text : String) (dayNumber : ℕ → ℕ → ℤ) : ℕ → ℕ → ℤ :=
  (pieces ';' text).zipIdx.foldl (fun day e => Function.update day e.2 (readRow e.1 (day e.2))) dayNumber

/-- `DreamHeroManager::Load`; `characters` are the names in `character` -/
def load (t : StatusTable) (characters : List String) (m : Manager) : Manager :=
  match t.rows with
  | [] => m
  | r :: _ =>
    { names := { m.names with
        dayNumber := readDayNumber r.dayNumber m.names.dayNumber
        names := m.names.names ++ characters.map cStr
        dayCreateHeroesCount := r.dayCreateHeroesCount }
      lastSaveTime := r.saveTime
      dealOrderId := r.dealOrderId
      dailyGameBeginTime := r.dailyGameBeginTime }

/-- the loop of `refreshDayNumber`: the numbers are shuffled again for each row -/
def shuffled (randomShuffle : ℕ → List ℤ → List ℤ) : ℕ → List ℤ
  | 0 => (List.range 10).map fun j : ℕ => (j : ℤ)
  | i + 1 => randomShuffle i (shuffled randomShuffle i)

/-- `DreamHeroManager::refreshDayNumber`; `title` is what `refreshHeroTitle` makes -/
def refreshDayNumber (randomShuffle : ℕ → List ℤ → List ℤ) (title : String) (m : Manager) (heroes now : ℕ)
    (t : StatusTable) : Manager × StatusTable :=
  save { m with names := { m.names with
    dayNumber := fun i j => if i < 6 ∧ j < 10 then (shuffled randomShuffle (i + 1)).getD j 0 else m.names.dayNumber i j
    dayCreateHeroesCount := 0
    heroDayTitle := title } } heroes now t

/-- `count` calls of `generateName`: the counter before each call with the name it gave, and what is left -/
def generateNames : ℕ → HeroNames × List Record → List (ℕ × String) × (HeroNames × List Record)
  | 0, s => ([], s)
  | count + 1, s =>
    let r := generateName 101 s
    let rest := generateNames count r.2
    ((s.1.dayCreateHeroesCount, r.1) :: rest.1, rest.2)

/-! ## The table -/

/-- each row is a permutation of the digits -/
def Permutations (dayNumber : ℕ → ℕ → ℤ) : Prop :=
  ∀ i < 6, ((List.range 10).map (dayNumber i)).Perm ((List.range 10).map fun j : ℕ => (j : ℤ))

theorem Permutations.digit {dayNumber : ℕ → ℕ → ℤ} (h : Permutations dayNumber) {i j : ℕ} (hi : i < 6) (hj : j < 10) :
    ∃ d : ℕ, d < 10 ∧ dayNumber i j = d := by
  have hmem := (h i hi).mem_iff.1 (List.mem_map_of_mem (List.mem_range.2 hj))
  obtain ⟨d, hd, heq⟩ := List.mem_map.1 hmem
  exact ⟨d, List.mem_range.1 hd, heq.symm⟩

theorem Permutations.inj {dayNumber : ℕ → ℕ → ℤ} (h : Permutations dayNumber) {i j j' : ℕ} (hi : i < 6) (hj : j < 10)
    (hj' : j' < 10) (heq : dayNumber i j = dayNumber i j') : j = j' := by
  have hnodup : ((List.range 10).map (dayNumber i)).Nodup := (h i hi).nodup_iff.2 (by decide)
  exact List.inj_on_of_nodup_map hnodup (List.mem_range.2 hj) (List.mem_range.2 hj') heq

/-- what `refreshDayNumber` makes, when `std::random_shuffle` permutes -/
theorem permutations_refreshDayNumber {randomShuffle : ℕ → List ℤ → List ℤ}
    (hshuffle : ∀ i l, (randomShuffle i l).Perm l) (title : String) (m : Manager) (heroes now : ℕ) (t : StatusTable) :
    Permutations (refreshDayNumber randomShuffle title m heroes now t).1.names.dayNumber := by
  intro i hi
  have hperm (i : ℕ) : (shuffled randomShuffle i).Perm ((List.range 10).map fun j : ℕ => (j : ℤ)) := by
    induction i with
    | zero => exact List.Perm.refl _
    | succ i ih => exact (hshuffle i _).trans ih
  have hlen : (shuffled randomShuffle (i + 1)).length = 10 := (hperm (i + 1)).length_eq
  have hrow : (List.range 10).map ((refreshDayNumber randomShuffle title m heroes now t).1.names.dayNumber i) =
      shuffled randomShuffle (i + 1) := by
    refine List.ext_getElem (by simp [hlen]) fun j hj hj' => ?_
    rw [List.getElem_map, List.getElem_range]
    have hj10 : j < 10 := hlen ▸ hj'
    change (if i < 6 ∧ j < 10 then (shuffled randomShuffle (i + 1)).getD j 0 else _) = _
    rw [if_pos ⟨hi, hj10⟩, List.getD_eq_getElem _ _ hj']
  rw [hrow]
  exact hperm (i + 1)

/-! ## Texts of the counter -/

/-- a text of one character for each digit -/
theorem toList_digits {dayNumber : ℕ → ℕ → ℤ} (h : Permutations dayNumber) (key : ℕ) :
    (String.join ((List.range 6).map fun i => toString (dayNumber i (key / 10 ^ i % 10)))).toList =
      (List.range 6).map fun i => Nat.digitChar (dayNumber i (key / 10 ^ i % 10)).toNat := by
  have hdigit (i : ℕ) (hi : i < 6) : (toString (dayNumber i (key / 10 ^ i % 10))).toList =
      [Nat.digitChar (dayNumber i (key / 10 ^ i % 10)).toNat] := by
    obtain ⟨d, hd, heq⟩ := h.digit hi (Nat.mod_lt (key / 10 ^ i) (by decide))
    rw [heq, toList_toString, if_pos (Int.natCast_nonneg d), Int.toNat_natCast, Nat.toDigits_of_lt_base hd]
  rw [String.toList_join, List.flatMap_map]
  have hflat (l : List ℕ) (hl : ∀ i ∈ l, i < 6) :
      l.flatMap (fun i => (toString (dayNumber i (key / 10 ^ i % 10))).toList) =
        l.map fun i => Nat.digitChar (dayNumber i (key / 10 ^ i % 10)).toNat := by
    induction l with
    | nil => rfl
    | cons i l ih =>
      rw [List.flatMap_cons, hdigit i (hl i List.mem_cons_self), ih fun j hj => hl j (List.mem_cons_of_mem i hj)]
      rfl
  exact hflat (List.range 6) fun i hi => List.mem_range.1 hi

/-- equal names have counters with the same six digits, whatever stands behind them -/
theorem generateStr_inj {n : HeroNames} (h : Permutations n.dayNumber) {key key' : ℕ} {a b : String}
    (heq : generateStr n key a = generateStr n key' b) : key % 10 ^ 6 = key' % 10 ^ 6 := by
  have hlist := congrArg String.toList heq
  simp only [generateStr, String.toList_append, toList_digits h, List.append_assoc] at hlist
  have hdigits := (List.append_inj (List.append_cancel_left (List.append_cancel_left hlist)) (by simp)).1
  rw [List.map_inj_left] at hdigits
  have hchar : ∀ d < 10, ∀ d' < 10, Nat.digitChar d = Nat.digitChar d' → d = d' := by decide
  have hdigit (i : ℕ) (hi : i < 6) : key / 10 ^ i % 10 = key' / 10 ^ i % 10 := by
    have hlt := Nat.mod_lt (key / 10 ^ i) (by decide : 0 < 10)
    have hlt' := Nat.mod_lt (key' / 10 ^ i) (by decide : 0 < 10)
    obtain ⟨d, hd, hday⟩ := h.digit hi hlt
    obtain ⟨d', hd', hday'⟩ := h.digit hi hlt'
    have hi' := hdigits i (List.mem_range.2 hi)
    rw [hday, hday', Int.toNat_natCast, Int.toNat_natCast] at hi'
    refine h.inj hi hlt hlt' ?_
    rw [hday, hday', hchar d hd d' hd' hi']
  have h0 := hdigit 0 (by decide)
  have h1 := hdigit 1 (by decide)
  have h2 := hdigit 2 (by decide)
  have h3 := hdigit 3 (by decide)
  have h4 := hdigit 4 (by decide)
  have h5 := hdigit 5 (by decide)
  norm_num at h0 h1 h2 h3 h4 h5 ⊢
  omega

/-! ## One call -/

/-- the name is made with a counter that has been reached, and nothing else of `n` has changed -/
def Made (n : HeroNames) (r : String × HeroNames × List Record) : Prop :=
  ∃ key left, n.dayCreateHeroesCount < key ∧ key ≤ left ∧ r.2.1 = { n with dayCreateHeroesCount := left } ∧
    ∃ argu, r.1 = generateStr n key argu

/-- a call that starts where another one has left off -/
theorem Made.trans {n : HeroNames} {r r' : String × HeroNames × List Record} (h : Made n r) (h' : Made r.2.1 r') :
    Made n r' := by
  obtain ⟨key, left, hkey, hleft, hnames, -⟩ := h
  obtain ⟨key', left', hkey', hleft', hnames', argu, hargu⟩ := h'
  rw [hnames] at hkey' hnames' hargu
  exact ⟨key', left', (hkey.trans_le hleft).trans hkey', hleft', hnames', argu, hargu⟩

theorem generateName_made (k : ℕ) (n : HeroNames) (records : List Record) : Made n (generateName k (n, records)) := by
  induction k generalizing n records with
  | zero => exact ⟨n.dayCreateHeroesCount + 1, n.dayCreateHeroesCount + 1, Nat.lt_succ_self _, le_rfl, rfl, "q", rfl⟩
  | succ k ih =>
    apply List.foldlRecOn (motive := Made n)
    · exact ⟨n.dayCreateHeroesCount + 1, n.dayCreateHeroesCount + 1, Nat.lt_succ_self _, le_rfl, rfl, "", rfl⟩
    · intro r hr it _
      split_ifs
      · exact hr.trans (ih r.2.1 r.2.2)
      · exact hr

/-- a name that is taken comes after candidates that were all taken -/
theorem generateName_taken (k : ℕ) (n : HeroNames) (records : List Record)
    (h : (generateName k (n, records)).1 ∈ n.names) (i : ℕ) (hi : 1 ≤ i) (hik : i ≤ k) :
    generateStr n (n.dayCreateHeroesCount + i) "" ∈ n.names := by
  induction k generalizing n records i with
  | zero => omega
  | succ k ih =>
    have hstay (l : List String) (r : String × HeroNames × List Record) (hr : r.1 ∉ l) :
        l.foldl (fun r it => if r.1 = it then generateName k r.2 else r) r = r := by
      induction l with
      | nil => rfl
      | cons it l ihl =>
        rw [List.mem_cons, not_or] at hr
        rw [List.foldl_cons, if_neg hr.1]
        exact ihl hr.2
    rw [generateName] at h
    set n' : HeroNames := { n with dayCreateHeroesCount := n.dayCreateHeroesCount + 1 } with hn'
    set name := generateStr n' n'.dayCreateHeroesCount "" with hname
    by_cases htaken : name ∈ n.names
    · -- the first name that is equal starts the next call
      obtain ⟨pre, post, hnames, hpre⟩ := List.eq_append_cons_of_mem htaken
      rw [show n'.names = pre ++ name :: post from hnames, List.foldl_append, hstay pre _ hpre, List.foldl_cons,
        if_pos rfl] at h
      by_cases hnested :
        (generateName k (n', records ++ [.createName name n'.dayCreateHeroesCount n'.heroDayTitle])).1 ∈
          n.names
      · rcases Nat.eq_or_lt_of_le hi with rfl | hlt
        · exact htaken
        · have hnext := ih n' _ hnested (i - 1) (by omega) (by omega)
          have hcount : n'.dayCreateHeroesCount + (i - 1) = n.dayCreateHeroesCount + i := by
            change n.dayCreateHeroesCount + 1 + (i - 1) = _
            omega
          rw [hcount] at hnext
          exact hnext
      · rw [hstay post _ fun hmem => hnested (hnames ▸ List.mem_append_right pre (List.mem_cons_of_mem name hmem)),
          ← hnames] at h
        exact absurd h hnested
    · rw [hstay n'.names _ htaken] at h
      exact absurd h htaken

/-! ## A day -/

/-- every name of the run is made with a counter of its own -/
theorem generateNames_keys (count : ℕ) (n : HeroNames) (records : List Record) :
    (∃ left, n.dayCreateHeroesCount ≤ left ∧
      (generateNames count (n, records)).2.1 = { n with dayCreateHeroesCount := left }) ∧
    ∃ keys : List ℕ, keys.Pairwise (· < ·) ∧
      (∀ key ∈ keys, n.dayCreateHeroesCount < key ∧
        key ≤ (generateNames count (n, records)).2.1.dayCreateHeroesCount) ∧
      List.Forall₂ (fun key (e : ℕ × String) => ∃ argu, e.2 = generateStr n key argu) keys
        (generateNames count (n, records)).1 := by
  induction count generalizing n records with
  | zero =>
    exact ⟨⟨_, le_rfl, rfl⟩, [], List.Pairwise.nil, fun key hkey => absurd hkey List.not_mem_nil, List.Forall₂.nil⟩
  | succ count ih =>
    obtain ⟨key, left, hkey, hleft, hnames, hargu⟩ := generateName_made 101 n records
    generalize hr : generateName 101 (n, records) = r at hnames hargu
    obtain ⟨name, n', records'⟩ := r
    dsimp only at hnames hargu
    subst hnames
    obtain ⟨⟨left', hleft', hrest⟩, keys, hsorted, hkeys, hmade⟩ := ih { n with dayCreateHeroesCount := left } records'
    rw [generateNames, hr]
    refine ⟨⟨left', (hkey.le.trans hleft).trans hleft', hrest⟩, key :: keys, ?_, ?_, ?_⟩
    · exact List.pairwise_cons.2 ⟨fun key' hkey' => hleft.trans_lt (hkeys key' hkey').1, hsorted⟩
    · intro key' hkey'
      rcases List.mem_cons.1 hkey' with rfl | hkey'
      · refine ⟨hkey, ?_⟩
        dsimp only
        rw [hrest]
        exact hleft.trans hleft'
      · exact ⟨(hkey.trans_le hleft).trans (hkeys key' hkey').1, (hkeys key' hkey').2⟩
    · exact List.Forall₂.cons hargu hmade

/-- counters of a range of `10 ^ 6` give different names -/
theorem nodup_of_keys {n : HeroNames} (hperm : Permutations n.dayNumber) {c : ℕ} {keys : List ℕ}
    {named : List (ℕ × String)} (hsorted : keys.Pairwise (· < ·)) (hkeys : ∀ key ∈ keys, c < key ∧ key ≤ c + 10 ^ 6)
    (hmade : List.Forall₂ (fun key (e : ℕ × String) => ∃ argu, e.2 = generateStr n key argu) keys named) :
    (named.map Prod.snd).Nodup := by
  induction hmade with
  | nil => exact List.nodup_nil
  | @cons key e keys named hargu hmade ih =>
    obtain ⟨hlt, hsorted⟩ := List.pairwise_cons.1 hsorted
    refine List.nodup_cons.2 ⟨fun hmem => ?_, ih hsorted fun key hkey => hkeys key (List.mem_cons_of_mem _ hkey)⟩
    obtain ⟨e', he', heq⟩ := List.mem_map.1 hmem
    obtain ⟨j, hj, hget⟩ := List.mem_iff_getElem.1 he'
    have hj' : j < keys.length := hmade.length_eq ▸ hj
    obtain ⟨argu, hname⟩ := hargu
    obtain ⟨argu', hname'⟩ : ∃ argu, named[j].2 = generateStr n keys[j] argu := hmade.get hj' hj
    rw [hget, heq, hname] at hname'
    have hmod := generateStr_inj hperm hname'
    have hkey := hkeys key List.mem_cons_self
    have hother := hkeys keys[j] (List.mem_cons_of_mem _ (List.getElem_mem hj'))
    have hless := hlt keys[j] (List.getElem_mem hj')
    omega

theorem generateNames_taken (count : ℕ) (n : HeroNames) (records : List Record) :
    ∀ e ∈ (generateNames count (n, records)).1, e.2 ∈ n.names →
      ∀ i, 1 ≤ i → i ≤ 101 → generateStr n (e.1 + i) "" ∈ n.names := by
  induction count generalizing n records with
  | zero => exact fun e he => absurd he List.not_mem_nil
  | succ count ih =>
    intro e he htaken i hi hi101
    rcases List.mem_cons.1 he with rfl | he
    · exact generateName_taken 101 n records htaken i hi hi101
    · obtain ⟨key, left, -, -, hnames, -⟩ := generateName_made 101 n records
      have hrest := ih (generateName 101 (n, records)).2.1 (generateName 101 (n, records)).2.2 e he
      rw [hnames] at hrest
      exact hrest htaken i hi hi101

/-! ## A restart -/

theorem joined_eq (sep : String) {l : List String} (hl : ∀ s ∈ l, s ≠ "") : joined sep l = sep.intercalate l := by
  have hhead (a b : String) (l : List String) : sep.intercalate ((a ++ b) :: l) = a ++ sep.intercalate (b :: l) := by
    cases l with
    | nil => rw [String.intercalate_singleton, String.intercalate_singleton]
    | cons c l => simp only [String.intercalate_cons_cons, String.append_assoc]
  have hrest (l : List String) (s : String) (hs : s ≠ "") :
      l.foldl (fun s t => (if s = "" then s else s ++ sep) ++ t) s = sep.intercalate (s :: l) := by
    induction l generalizing s with
    | nil => rw [List.foldl_nil, String.intercalate_singleton]
    | cons t l ih =>
      have hne : s ++ sep ++ t ≠ "" := by
        rw [String.append_assoc]
        exact fun h => hs (String.append_eq_empty_iff.1 h).1
      rw [List.foldl_cons, if_neg hs, ih _ hne, hhead, String.intercalate_cons_cons]
  cases l with
  | nil => rfl
  | cons s l =>
    have hs := hl s List.mem_cons_self
    rw [joined, List.foldl_cons, if_pos rfl, String.empty_append, hrest l s hs]

/-- a loop that writes each place once -/
theorem foldl_update {β γ : Type*} (f : β → γ → γ) (l : List β) (k : ℕ) (g : ℕ → γ) :
    (∀ j < k, (l.zipIdx k).foldl (fun g e => Function.update g e.2 (f e.1 (g e.2))) g j = g j) ∧
      ∀ j (hj : j < l.length),
        (l.zipIdx k).foldl (fun g e => Function.update g e.2 (f e.1 (g e.2))) g (k + j) = f l[j] (g (k + j)) := by
  induction l generalizing k g with
  | nil => exact ⟨fun j _ => rfl, fun j hj => absurd hj (Nat.not_lt_zero j)⟩
  | cons b l ih =>
    obtain ⟨hbefore, hat⟩ := ih (k + 1) (Function.update g k (f b (g k)))
    rw [List.zipIdx_cons, List.foldl_cons]
    constructor
    · intro j hj
      rw [hbefore j (by omega), Function.update_of_ne (by omega)]
    · intro j hj
      cases j with
      | zero => rw [add_zero, hbefore k (Nat.lt_succ_self k), Function.update_self, List.getElem_cons_zero]
      | succ j =>
        have hplace : k + (j + 1) = k + 1 + j := by omega
        rw [hplace, hat j (Nat.lt_of_succ_lt_succ hj), Function.update_of_ne (by omega), List.getElem_cons_succ]

theorem readRow_ints (l : List ℤ) (row : ℕ → ℤ) {j : ℕ} (hj : j < l.length) :
    readRow (",".intercalate (l.map toString)) row j = l[j] % 256 := by
  have hj' : j < (l.map toString).length := by rwa [List.length_map]
  have hloop := (foldl_update (fun t _ => atoi t % 256) (l.map toString) 0 row).2 j hj'
  rw [zero_add, List.getElem_map, atoi_toString] at hloop
  rw [readRow, Hero.pieces_ints]
  exact hloop

/-- what `Load` reads of what `save` has written -/
theorem readDayNumber_numberStr (dayNumber before : ℕ → ℕ → ℤ) {i j : ℕ} (hi : i < 6) (hj : j < 10) :
    readDayNumber (numberStr dayNumber) before i j = dayNumber i j % 256 := by
  have hrow (i : ℕ) : joined "," ((List.range 10).map fun j => toString (dayNumber i j)) =
      ",".intercalate (((List.range 10).map (dayNumber i)).map toString) := by
    rw [List.map_map, joined_eq]
    · rfl
    · intro s hs hempty
      obtain ⟨j, -, rfl⟩ := List.mem_map.1 hs
      exact toString_ne_nil (dayNumber i j) (by rw [hempty]; rfl)
  have hparts : ∀ s ∈ (List.range 6).map (fun i => joined "," ((List.range 10).map fun j => toString (dayNumber i j))),
      Part ';' s := by
    intro s hs
    obtain ⟨i, -, rfl⟩ := List.mem_map.1 hs
    rw [hrow]
    exact Hero.part_ints (by decide) (by decide) (by simp)
  have hpieces : pieces ';' (numberStr dayNumber) =
      (List.range 6).map fun i => ",".intercalate (((List.range 10).map (dayNumber i)).map toString) := by
    have hne : ∀ s ∈ (List.range 6).map (fun i => joined "," ((List.range 10).map fun j => toString (dayNumber i j))),
        s ≠ "" := fun s hs hempty => (hparts s hs).nonempty (by rw [hempty]; rfl)
    rw [numberStr, joined_eq ";" hne, pieces_intercalate rfl hparts]
    exact List.map_congr_left fun i _ => hrow i
  have hloop := (foldl_update readRow (pieces ';' (numberStr dayNumber)) 0 before).2 i (by simpa [hpieces] using hi)
  rw [zero_add] at hloop
  rw [readDayNumber]
  refine (congrFun hloop j).trans ?_
  simp only [hpieces, List.getElem_map, List.getElem_range]
  rw [readRow_ints _ _ (by simpa using hj), List.getElem_map, List.getElem_range]

/-- what is the same after a restart -/
theorem load_save (m m' : Manager) (heroes now : ℕ) (t : StatusTable) (characters : List String) :
    (load (save m heroes now t).2 characters m').names.dayNumber =
        readDayNumber (numberStr m.names.dayNumber) m'.names.dayNumber ∧
      (load (save m heroes now t).2 characters m').names.dayCreateHeroesCount = m.names.dayCreateHeroesCount ∧
      (load (save m heroes now t).2 characters m').lastSaveTime = (save m heroes now t).1.lastSaveTime ∧
      (load (save m heroes now t).2 characters m').dealOrderId = m.dealOrderId ∧
      (load (save m heroes now t).2 characters m').dailyGameBeginTime = m.dailyGameBeginTime := by
  have hrows : (save m heroes now t).2.rows = [statusOf m heroes now] := by
    have hnone : t.rows.filter (fun r => r.sid ≠ 0) = [] := by
      rw [List.filter_eq_nil_iff]
      intro r hr
      simpa using t.sid_eq_zero r hr
    change t.rows.filter (fun r => r.sid ≠ 0) ++ [statusOf m heroes now] = _
    rw [hnone, List.nil_append]
  simp only [load, hrows]
  simp only [statusOf, save, and_self]

/-- **Names are fresh.** With six permutations, the names that a counter gives in `10 ^ 6` steps are different, and each
is new unless 101 candidates one after the other were taken. A restart keeps the table and the counter. -/
theorem generateNames_fresh (m : Manager) (hperm : Permutations m.names.dayNumber) (count : ℕ) (records : List Record)
    (hcount : (generateNames count (m.names, records)).2.1.dayCreateHeroesCount ≤
      m.names.dayCreateHeroesCount + 10 ^ 6) :
    ((generateNames count (m.names, records)).1.map Prod.snd).Nodup ∧
      (∀ e ∈ (generateNames count (m.names, records)).1, e.2 ∈ m.names.names →
        ∀ i, 1 ≤ i → i ≤ 101 → generateStr m.names (e.1 + i) "" ∈ m.names.names) ∧
      ∀ (heroes now : ℕ) (t : StatusTable) (characters : List String) (m' : Manager),
        (∀ i < 6, ∀ j < 10, (load (save m heroes now t).2 characters m').names.dayNumber i j = m.names.dayNumber i j) ∧
          (load (save m heroes now t).2 characters m').names.dayCreateHeroesCount = m.names.dayCreateHeroesCount := by
  refine ⟨?_, generateNames_taken count m.names records, fun heroes now t characters m' => ?_⟩
  · obtain ⟨-, keys, hsorted, hkeys, hmade⟩ := generateNames_keys count m.names records
    exact nodup_of_keys hperm hsorted (fun key hkey => ⟨(hkeys key hkey).1, (hkeys key hkey).2.trans hcount⟩) hmade
  · obtain ⟨hload, hcounter, -⟩ := load_save m m' heroes now t characters
    refine ⟨fun i hi j hj => ?_, hcounter⟩
    obtain ⟨d, hd, heq⟩ := hperm.digit hi hj
    rw [hload, readDayNumber_numberStr _ _ hi hj, heq]
    omega

/-- rows that are turned by one place each, and a name that is taken -/
def turned : Manager :=
  { names := { serverId := "a", heroDayTitle := "bcd", dayNumber := fun i j => (((i + j) % 10 : ℕ) : ℤ),
               names := ["abcd112345"] } }

/-- the second counter is used for the first name -/
theorem generateNames_fresh_two : (generateNames 2 (turned.names, [])).1 = [(0, "abcd212345"), (2, "abcd312345")] ∧
    ((generateNames 2 (turned.names, [])).1.map Prod.snd).Nodup :=
  ⟨by decide +kernel, (generateNames_fresh turned (by unfold Permutations; decide +kernel) 2 [] (by decide +kernel)).1⟩

end DreamHeroes.GameServer.Names

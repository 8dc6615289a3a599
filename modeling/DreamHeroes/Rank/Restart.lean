/-
The rank list over a restart of the game server (`RankManager::save`, then `RankManager::Load`).

- `load`: the list that `Load` makes of the rows of `hero_daily_game_rank`, in the order in which the database gives
  them.
- `Executes`: what the database makes of the texts of `save`: an empty table, the rows by their key, and nothing of a
  text that begins with a comma.
- `ranks_texts`: the first statement of `save` has the first 21 entries, every other one begins with a comma.
- `Call`: what changes the list. `removeHero` may leave ranks that are no positions, and `load` takes them from the
  rows.
- `restart`: of every list that a run can make, the entries of the game day among the first 21 come back with their
  ranks, in the order of the scores, and nobody else has a rank. `Executes` is asked of the texts of this list, and the
  database's `UNIX_TIMESTAMP` has to give the times of its entries back.
-/
import Mathlib.Tactic
import DreamHeroes.Rank.RankInvariant
import DreamHeroes.Rank.RankStatements
import DreamHeroes.Rank.RemoveHero

namespace DreamHeroes.Rank.Statements

open DreamHeroes.Lib DreamHeroes.Config

/-! ## Model -/

/-- a row of `hero_daily_game_rank` -/
structure Row where
  accountId : ℕ
  name : String
  score : ℤ
  rank : ℤ
  time : String
deriving DecidableEq, Repr

def rowOf (time : ℕ → String) (entry : DailyGameRankTg) : Row where
  accountId := entry.acc
  name := cStr entry.name
  score := entry.score
  rank := entry.rank
  time := cStr (time entry.time)

/-- one row of a `replace`; the key is `account_id` -/
def replaceRow (table : List Row) (row : Row) : List Row :=
  table.filter (fun r => r.accountId ≠ row.accountId) ++ [row]

/-- the statements are executed one after the other -/
def executeAll (exec : String → List Row → List Row) (table : List Row) (sent : List Msg) : List Row :=
  sent.foldl (fun table msg => exec msg.sql table) table

variable (off hour now : ℤ) (unixTimestamp : String → ℕ)

def entryOfRow (row : Row) : DailyGameRankTg where
  acc := row.accountId
  name := row.name
  score := row.score
  rank := row.rank
  time := unixTimestamp row.time

/-- a round of the loop of `Load` -/
def loadRow (m : RankManager) (row : Row) : RankManager :=
  if isInToday off hour now (unixTimestamp row.time) then
    { m with
      heroesDailyRank := m.heroesDailyRank ++ [entryOfRow unixTimestamp row]
      heroesRank := m.heroesRank.insert row.accountId row.rank }
  else m

def load (m : RankManager) (rows : List Row) : RankManager :=
  rows.foldl (loadRow off hour now unixTimestamp) (clearRankList m)

/-- the calls that change the list -/
inductive Call where
  | op (o : Op)
  | removeHero (acc : ℕ)
  | load (now : ℤ) (rows : List Row)

def call (off hour : ℤ) (unixTimestamp : String → ℕ) (m : RankManager) : Call → RankManager
  | .op o => (step { manager := m } o).manager
  | .removeHero acc => (removeHero m acc).getD m
  | .load now rows => load off hour now unixTimestamp m rows

/-- `removeHero` does not step over the end of the list, and the key of the rows is a key -/
def Defined (m : RankManager) : Call → Prop
  | .op _ => True
  | .removeHero acc => removeHero m acc ≠ none
  | .load _ rows => (rows.map Row.accountId).Nodup

/-! ## The texts -/

variable {time : ℕ → String} {entries : List DailyGameRankTg} {s : RankLoop} {off hour now unixTimestamp}

/-- behind `DELETE` there are statements of the ranks only -/
def OnlyRanks (sent : List Msg) : Prop := sent = ⟨.delete, sqlDelete⟩ :: (sqls .ranks sent).map fun sql => ⟨.ranks, sql⟩

theorem OnlyRanks.snoc {sent : List Msg} (h : OnlyRanks sent) (sql : String) : OnlyRanks (sent ++ [⟨.ranks, sql⟩]) := by
  rw [OnlyRanks, sqls_append_self, List.map_append, ← List.cons_append, ← h]
  rfl

theorem onlyRanks_visitRank (h : OnlyRanks s.sent) (entry : DailyGameRankTg) :
    OnlyRanks (visitRank time s entry).sent := by
  rw [visitRank]
  by_cases hfull : s.number ≥ 20
  · rw [if_pos hfull]
    exact h.snoc _
  · rw [if_neg hfull]
    exact h

theorem onlyRanks_save (time : ℕ → String) (m : RankManager) : OnlyRanks (save time m) := by
  have hvisits (l : List DailyGameRankTg) (s : RankLoop) (h : OnlyRanks s.sent) :
      OnlyRanks (l.foldl (visitRank time) s).sent := by
    induction l generalizing s with
    | nil => exact h
    | cons entry l ih => exact ih _ (onlyRanks_visitRank h entry)
  have hloop := hvisits m.heroesDailyRank {} rfl
  rw [save, sendLeft]
  split_ifs
  · exact hloop
  · exact hloop.snoc _

def BeginsWithComma (sql : String) : Prop := sql.toList.head? = some ','

theorem batched_comma {limit : ℕ} {stmts rows : List String} (h : Batched "," "," limit stmts rows) :
    ∀ sql ∈ stmts, BeginsWithComma sql := by
  obtain ⟨batches, -, rfl, -⟩ := h
  intro sql hsql
  obtain ⟨b, -, rfl⟩ := List.mem_map.1 hsql
  rw [BeginsWithComma, statement, String.toList_append]
  rfl

/-- **The texts of `save`.** -/
theorem ranks_texts (h : RankPart time entries s) :
    (entries = [] ∧ sentTexts s = []) ∨ ∃ later, sentTexts s =
      statement sqlHead "," ((entries.take 21).map (rankRow time)) :: later ∧ ∀ sql ∈ later, BeginsWithComma sql := by
  cases h with
  | first le number text sent =>
    rcases eq_or_ne entries [] with rfl | hne
    · left
      rw [sentTexts, text, sent]
      exact ⟨rfl, rfl⟩
    · right
      have hrows : entries.map (rankRow time) ≠ [] := fun hnil => hne (List.map_eq_nil_iff.1 hnil)
      have htext : s.sqlRank = statement sqlHead "," (entries.map (rankRow time)) := by
        rw [text, pendingText_of_ne_nil hrows]
      have hfull : s.sqlRank ≠ "" := by
        rw [htext, statement]
        exact sqlHead_append_ne _
      refine ⟨[], ?_, fun _ hsql => absurd hsql List.not_mem_nil⟩
      rw [sentTexts, if_neg hfull, sent, List.take_of_length_le (by omega), text,
        cStr_pendingText noZero_sqlHead (by decide), pendingText_of_ne_nil hrows]
      rfl
  | later front back stmts batch rows front_length number le filling sent =>
    right
    have hzero := filling.noZero (by decide) (by decide) fun _ hr => mem_rows hr
    have hcomma (r : String) : "," ++ r ≠ "" := by
      intro hnil
      exact absurd (String.append_eq_empty_iff.1 hnil).1 (by decide)
    have hlater := batched_comma (filling.finish (fun r _ => hcomma r) (by omega))
    refine ⟨_, ?_, hlater⟩
    rw [rows, List.take_left' front_length, sentTexts, sent, hzero.cStr]
    split_ifs <;> rfl

theorem save_texts (time : ℕ → String) (m : RankManager) :
    (m.heroesDailyRank = [] ∧ save time m = [⟨.delete, sqlDelete⟩]) ∨ ∃ later, save time m =
      ⟨.delete, sqlDelete⟩ ::
      ⟨.ranks, statement sqlHead "," ((m.heroesDailyRank.take 21).map (rankRow time))⟩ :: later ∧
        ∀ msg ∈ later, BeginsWithComma msg.sql := by
  have hsave : sqls .ranks (save time m) = sentTexts (m.heroesDailyRank.foldl (visitRank time) {}) := by
    rw [save, sqls_sendLeft_self]
    rfl
  rw [onlyRanks_save time m, hsave]
  rcases ranks_texts (rankPart_visits m.heroesDailyRank (rankPart_nil time)) with ⟨hnil, htexts⟩ |
    ⟨later, htexts, hlater⟩
  · rw [htexts]
    exact Or.inl ⟨hnil, rfl⟩
  · rw [htexts]
    refine Or.inr ⟨later.map fun sql => ⟨.ranks, sql⟩, rfl, fun msg hmsg => ?_⟩
    obtain ⟨sql, hsql, rfl⟩ := List.mem_map.1 hmsg
    exact hlater sql hsql

/-! ## The table -/

/-- what the database makes of the texts; a text that begins with a comma is an error -/
structure Executes (exec : String → List Row → List Row) (time : ℕ → String)
    (entries : List DailyGameRankTg) : Prop where
  delete : ∀ table, exec sqlDelete table = []
  replace : ∀ table, exec (statement sqlHead "," (entries.map (rankRow time))) table =
    (entries.map (rowOf time)).foldl replaceRow table
  comma : ∀ sql table, BeginsWithComma sql → exec sql table = table

theorem replaceRow_new {table : List Row} {row : Row} (h : row.accountId ∉ table.map Row.accountId) :
    replaceRow table row = table ++ [row] := by
  have hkeep : table.filter (fun r => r.accountId ≠ row.accountId) = table := by
    refine List.filter_eq_self.2 fun r hr => decide_eq_true fun heq => h ?_
    rw [← heq]
    exact List.mem_map_of_mem hr
  rw [replaceRow, hkeep]

theorem replaceRows_new {table rows : List Row} (h : ((table ++ rows).map Row.accountId).Nodup) :
    rows.foldl replaceRow table = table ++ rows := by
  induction rows generalizing table with
  | nil => exact (List.append_nil table).symm
  | cons row rows ih =>
    have hassoc : table ++ row :: rows = table ++ [row] ++ rows := by simp
    have hnew : row.accountId ∉ table.map Row.accountId := by
      rw [List.map_append, List.map_cons] at h
      exact fun hmem => (List.nodup_append.1 h).2.2 _ hmem _ List.mem_cons_self rfl
    rw [List.foldl_cons, replaceRow_new hnew, ih (hassoc ▸ h), ← hassoc]

variable {exec : String → List Row → List Row}

theorem executeAll_comma {later : List Msg} (hcomma : ∀ sql table, BeginsWithComma sql → exec sql table = table)
    (h : ∀ msg ∈ later, BeginsWithComma msg.sql) (table : List Row) : executeAll exec table later = table := by
  induction later with
  | nil => rfl
  | cons msg later ih =>
    rw [executeAll, List.foldl_cons, hcomma _ _ (h msg List.mem_cons_self)]
    exact ih fun msg' hmsg' => h msg' (List.mem_cons_of_mem msg hmsg')

/-- the table behind `save`, whatever it was before -/
theorem executeAll_save {m : RankManager} (haccounts : (m.heroesDailyRank.map DailyGameRankTg.acc).Nodup)
    (hexec : Executes exec time (m.heroesDailyRank.take 21)) (table : List Row) :
    executeAll exec table (save time m) = (m.heroesDailyRank.take 21).map (rowOf time) := by
  rcases save_texts time m with ⟨hnil, hsave⟩ | ⟨later, hsave, hlater⟩
  · rw [hsave, hnil, executeAll, List.foldl_cons, hexec.delete]
    rfl
  · have hkeys : (([] ++ (m.heroesDailyRank.take 21).map (rowOf time)).map Row.accountId).Nodup := by
      have hacc : Row.accountId ∘ rowOf time = DailyGameRankTg.acc := rfl
      rw [List.nil_append, List.map_map, hacc]
      exact haccounts.sublist ((List.take_sublist 21 _).map _)
    have hrest := executeAll_comma hexec.comma hlater ((m.heroesDailyRank.take 21).map (rowOf time))
    rw [hsave, executeAll, List.foldl_cons, hexec.delete, List.foldl_cons, hexec.replace, replaceRows_new hkeys,
      List.nil_append]
    exact hrest

/-! ## The load -/

variable (off hour now unixTimestamp) in
/-- what `Load` keeps of the rows -/
def loaded (rows : List Row) : List DailyGameRankTg :=
  (rows.filter fun row => isInToday off hour now (unixTimestamp row.time)).map (entryOfRow unixTimestamp)

theorem load_eq (m : RankManager) (rows : List Row) : load off hour now unixTimestamp m rows =
    { m with
      heroesDailyRank := loaded off hour now unixTimestamp rows
      heroesRank := rankMap (loaded off hour now unixTimestamp rows) } := by
  induction rows using List.reverseRecOn with
  | nil => rfl
  | append_singleton rows row ih =>
    rw [load] at ih
    rw [load, List.foldl_append, ih, List.foldl_cons, List.foldl_nil, loadRow]
    by_cases htoday : isInToday off hour now (unixTimestamp row.time) = true
    · simp [loaded, htoday, rankMap, List.foldl_append, entryOfRow]
    · simp [loaded, htoday]

variable (off hour now) in
/-- what comes back: the entries of the game day among the first 21; a name ends at a zero byte -/
def saved (m : RankManager) : List DailyGameRankTg :=
  ((m.heroesDailyRank.take 21).filter fun entry => isInToday off hour now entry.time).map fun entry =>
    { entry with name := cStr entry.name }

theorem loaded_saved {m : RankManager}
    (hunix : ∀ entry ∈ m.heroesDailyRank.take 21, unixTimestamp (cStr (time entry.time)) = entry.time) :
    loaded off hour now unixTimestamp ((m.heroesDailyRank.take 21).map (rowOf time)) = saved off hour now m := by
  rw [loaded, saved, List.filter_map, List.map_map]
  have htoday : (m.heroesDailyRank.take 21).filter
      ((fun row => isInToday off hour now (unixTimestamp row.time)) ∘ rowOf time) =
        (m.heroesDailyRank.take 21).filter fun entry => isInToday off hour now entry.time := by
    refine List.filter_congr fun entry hentry => ?_
    simp only [Function.comp_apply, rowOf, hunix entry hentry]
  rw [htoday]
  refine List.map_congr_left fun entry hentry => ?_
  simp only [Function.comp_apply, entryOfRow, rowOf, hunix entry (List.mem_of_mem_filter hentry)]

/-- **Accounts stay different**, whatever becomes of the ranks. -/
theorem accounts_call (m : RankManager) (c : Call) (hm : (m.heroesDailyRank.map DailyGameRankTg.acc).Nodup)
    (hc : Defined m c) : ((call off hour unixTimestamp m c).heroesDailyRank.map DailyGameRankTg.acc).Nodup := by
  cases c with
  | op o =>
    cases o with
    | updateHeroDailyRank serverTime acc name score => exact update_nodup serverTime name hm
    | clearRankList => exact List.nodup_nil
  | removeHero acc =>
    obtain ⟨m', hrun⟩ := Option.ne_none_iff_exists'.1 hc
    rw [call, hrun, Option.getD_some]
    exact hm.sublist (removeHero_sublist hrun)
  | load now rows =>
    rw [call, load_eq, loaded, List.map_map]
    exact hc.sublist (List.filter_sublist.map _)

theorem entryOf_mem {l : List DailyGameRankTg} (h : (l.map DailyGameRankTg.acc).Nodup) {entry : DailyGameRankTg}
    (hentry : entry ∈ l) : entryOf l entry.acc = some entry := by
  cases hfind : entryOf l entry.acc with
  | none => exact absurd (List.mem_map_of_mem hentry) (entryOf_eq_none.1 hfind)
  | some e =>
    have hacc : e.acc = entry.acc := by simpa using List.find?_some hfind
    rw [List.inj_on_of_nodup_map h (List.mem_of_find?_eq_some hfind) hentry hacc]

/-- what is known of the list after the restart -/
structure Restarted (kept : List DailyGameRankTg) (m : RankManager) : Prop where
  entries : m.heroesDailyRank.Perm kept
  scores : m.heroesDailyRank.Pairwise fun e e' => e'.score ≤ e.score
  ranked : ∀ entry ∈ kept, getHeroDailyRank m entry.acc = entry.rank
  others : ∀ acc, acc ∉ kept.map DailyGameRankTg.acc → getHeroDailyRank m acc = m.dailyMaxRankSize + 1

theorem restarted_load {m server : RankManager} (haccounts : (m.heroesDailyRank.map DailyGameRankTg.acc).Nodup)
    (hunix : ∀ entry ∈ m.heroesDailyRank.take 21, unixTimestamp (cStr (time entry.time)) = entry.time) {rows : List Row}
    (hrows : rows.Perm ((m.heroesDailyRank.take 21).map (rowOf time)))
    (hscores : rows.Pairwise fun r r' => r'.score ≤ r.score) :
    Restarted (saved off hour now m) (load off hour now unixTimestamp server rows) := by
  have hperm : (loaded off hour now unixTimestamp rows).Perm (saved off hour now m) := by
    rw [← loaded_saved hunix]
    exact (hrows.filter _).map _
  have hkept : ((saved off hour now m).map DailyGameRankTg.acc).Nodup := by
    rw [saved, List.map_map]
    exact haccounts.sublist ((List.filter_sublist.trans (List.take_sublist 21 _)).map DailyGameRankTg.acc)
  have hnodup := (hperm.map DailyGameRankTg.acc).nodup_iff.2 hkept
  rw [load_eq]
  refine ⟨hperm, ?_, fun entry hentry => ?_, fun acc hacc => ?_⟩
  · exact (hscores.filter _).map _ fun r r' h => h
  · simp only [getHeroDailyRank, get_rankMap hnodup, entryOf_mem hnodup (hperm.mem_iff.2 hentry), Option.map_some]
  · have hnone : entryOf (loaded off hour now unixTimestamp rows) acc = none :=
      entryOf_eq_none.2 fun hmem => hacc ((hperm.map DailyGameRankTg.acc).mem_iff.1 hmem)
    simp only [getHeroDailyRank, get_rankMap hnodup, hnone, Option.map_none]

/-- the list after a run that begins with an empty one -/
def listAfter (off hour : ℤ) (unixTimestamp : String → ℕ) (dailyMaxRankSize : ℕ) (minDailyScore : ℤ)
    (calls : List Call) : RankManager :=
  run (call off hour unixTimestamp) (start dailyMaxRankSize minDailyScore).manager calls

/-- **The rank list over a restart.** Whatever calls have made the list and whatever the table held, and in whatever
order the database gives rows with the same score. -/
theorem restart (dailyMaxRankSize : ℕ) (minDailyScore : ℤ) (calls : List Call) (server : RankManager)
    (table rows : List Row)
    (hcalls : Along (call off hour unixTimestamp) Defined (start dailyMaxRankSize minDailyScore).manager calls)
    (hexec : Executes exec time
      ((listAfter off hour unixTimestamp dailyMaxRankSize minDailyScore calls).heroesDailyRank.take 21))
    (hunix : ∀ entry ∈
        (listAfter off hour unixTimestamp dailyMaxRankSize minDailyScore calls).heroesDailyRank.take 21,
      unixTimestamp (cStr (time entry.time)) = entry.time)
    (hrows : rows.Perm
      (executeAll exec table (save time (listAfter off hour unixTimestamp dailyMaxRankSize minDailyScore calls))))
    (hscores : rows.Pairwise fun r r' => r'.score ≤ r.score) :
    Restarted (saved off hour now (listAfter off hour unixTimestamp dailyMaxRankSize minDailyScore calls))
      (load off hour now unixTimestamp server rows) := by
  have haccounts : ((listAfter off hour unixTimestamp dailyMaxRankSize minDailyScore calls).heroesDailyRank.map
      DailyGameRankTg.acc).Nodup :=
    inv_run (I := fun m : RankManager => (m.heroesDailyRank.map DailyGameRankTg.acc).Nodup) accounts_call
      List.nodup_nil hcalls
  rw [executeAll_save haccounts hexec] at hrows
  exact restarted_load haccounts hunix hrows hscores

/-- three heroes, of which the first is removed; the third has the rank 1 then -/
def threeCalls : List Call :=
  [.op (.updateHeroDailyRank 89999 9 "Cid" 9), .op (.updateHeroDailyRank 90000 7 "Ann" 5),
    .op (.updateHeroDailyRank 90001 8 "Bob" 5), .removeHero 9]

def twoTime : ℕ → String := fun t => if t = 90000 then "1970-01-02 01:00:00" else "1970-01-02 01:00:01"

def twoUnix : String → ℕ := fun s => if s = "1970-01-02 01:00:00" then 90000 else 90001

def twoRows : List Row := [⟨8, "Bob", 5, 1, "1970-01-02 01:00:01"⟩, ⟨7, "Ann", 5, 2, "1970-01-02 01:00:00"⟩]

def twoLeft : RankManager := listAfter 0 5 twoUnix 100 0 threeCalls

/-- the database, as far as these texts go -/
def twoExec (sql : String) (table : List Row) : List Row :=
  if sql = sqlDelete then []
  else if sql = statement sqlHead "," (twoLeft.heroesDailyRank.map (rankRow twoTime)) then
    twoRows.reverse.foldl replaceRow table
  else table

theorem restart_two : Restarted (saved 0 5 100000 twoLeft)
    (load 0 5 100000 twoUnix { dailyMaxRankSize := 100, minDailyScore := 0 } twoRows) := by
  have hlist : twoLeft.heroesDailyRank = [⟨"Ann", 7, 5, 2, 90000⟩, ⟨"Bob", 8, 5, 1, 90001⟩] := by decide +kernel
  have hdelete : statement sqlHead "," (twoLeft.heroesDailyRank.map (rankRow twoTime)) ≠ sqlDelete := by decide +kernel
  have hcomma : ¬BeginsWithComma sqlDelete ∧
      ¬BeginsWithComma (statement sqlHead "," (twoLeft.heroesDailyRank.map (rankRow twoTime))) := by
    simp only [BeginsWithComma]
    decide +kernel
  refine restart 100 0 threeCalls _ [] twoRows ⟨trivial, trivial, trivial, ?_, trivial⟩
    (⟨fun table => if_pos rfl, ?_, ?_⟩ : Executes twoExec twoTime _) ?_ ?_ ?_
  · exact (removeHero_none_iff (by decide +kernel) 9).not.2 (by decide +kernel)
  · intro table
    have htake : twoLeft.heroesDailyRank.take 21 = twoLeft.heroesDailyRank := by rw [hlist]; rfl
    have hrows : twoLeft.heroesDailyRank.map (rowOf twoTime) = twoRows.reverse := by
      rw [hlist]
      decide +kernel
    have hreplace : twoExec (statement sqlHead "," (twoLeft.heroesDailyRank.map (rankRow twoTime))) table =
        (twoLeft.heroesDailyRank.map (rowOf twoTime)).foldl replaceRow table := by
      rw [twoExec, if_neg hdelete, if_pos rfl, hrows]
    rw [← htake] at hreplace
    exact hreplace
  · intro sql table hsql
    have hne : sql ≠ sqlDelete := fun heq => hcomma.1 (heq ▸ hsql)
    have hother : sql ≠ statement sqlHead "," (twoLeft.heroesDailyRank.map (rankRow twoTime)) :=
      fun heq => hcomma.2 (heq ▸ hsql)
    rw [twoExec, if_neg hne, if_neg hother]
  · have hunix : ∀ entry ∈ twoLeft.heroesDailyRank.take 21, twoUnix (cStr (twoTime entry.time)) = entry.time := by
      rw [hlist]
      decide +kernel
    exact hunix
  · have hperm : twoRows.Perm (executeAll twoExec [] (save twoTime twoLeft)) := by decide +kernel
    exact hperm
  · decide

end DreamHeroes.Rank.Statements

/-
The statements of the rank list (`RankManager::save` and `RankManager::DailyGameUpdate`).

- `visitRank`: one round of the loop that both functions have. The counter is set to 0 when a batch has been sent, and
  the header of the loop adds 1 to it at once, so no later row finds it at 0.
- `save`, `dailyGameUpdate`: the messages `MsgSaveDataGS2DB` in the order they are sent, and which heroes in memory
  `DailyGamePrize` is called for. `Part` says which of the texts a message carries; it is not in the message.
- `RankPart`: what has become of the rows that have been visited. The first 21 make one statement; behind them the
  batches have 20 rows each, and what is sent begins with a comma where the head should stand.
- `rank_batches_iff`: the statements are well formed exactly for lists of at most 21 entries.
-/
import Mathlib.Tactic
import DreamHeroes.Lib.Batches
import DreamHeroes.Hero.DailyPrize

namespace DreamHeroes.Rank.Statements

open DreamHeroes.Lib DreamHeroes.Config DreamHeroes.Hero

/-! ## Model -/

inductive Part where
  | delete
  | ranks
  | heroes
deriving DecidableEq, Repr

structure Msg where
  part : Part
  sql : String
deriving DecidableEq, Repr

def sqlDelete : String := "DELETE FROM hero_daily_game_rank;"

def sqlHead : String := "replace into hero_daily_game_rank(`account_id`, `name`, `score`, `rank`, `time`) values"

variable (cfg : GameConfig) (time : ℕ → String)

/-- what `sz_temp` holds -/
def rankRow (entry : DailyGameRankTg) : String :=
  cStr s!"({entry.acc}, '{cStr entry.name}', {entry.score}, {entry.rank}, '{cStr (time entry.time)}')"

def heroUpdate (gameTime : ℕ) (entry : DailyGameRankTg) : String :=
  cStr (s!"update `character` set `daily_game_gold`={getDailyGamePrize cfg entry.rank}, " ++
    s!"`daily_game_prize_time`='{cStr (time gameTime)}' where `account_id`={entry.acc};")

structure RankLoop where
  number : ℕ := 0
  sqlRank : String := ""
  sent : List Msg := [⟨.delete, sqlDelete⟩]

def visitRank (s : RankLoop) (entry : DailyGameRankTg) : RankLoop :=
  let sqlRank := (if s.number = 0 then sqlHead else s.sqlRank ++ ",") ++ rankRow time entry
  let s :=
    if s.number ≥ 20 then { number := 0, sqlRank := "", sent := s.sent ++ [⟨.ranks, cStr sqlRank⟩] }
    else { s with sqlRank := sqlRank }
  { s with number := s.number + 1 }

/-- behind the loop -/
def sendLeft (part : Part) (sql : String) (sent : List Msg) : List Msg :=
  if sql = "" then sent else sent ++ [⟨part, cStr sql⟩]

def save (m : RankManager) : List Msg :=
  let s := m.heroesDailyRank.foldl (visitRank time) {}
  sendLeft .ranks s.sqlRank s.sent

/-- `prized`: the calls of `DailyGamePrize`, the account of the hero and the argument -/
structure UpdateLoop extends RankLoop where
  i : ℕ := 0
  sql : String := ""
  prized : List (ℕ × ℤ) := []

def visitHero (gameTime : ℕ) (inMemory : ℕ → Bool) (s : UpdateLoop) (entry : DailyGameRankTg) : UpdateLoop :=
  if inMemory entry.acc then { s with prized := s.prized ++ [(entry.acc, getDailyGamePrize cfg entry.rank)] }
  else
    let i := s.i + 1
    let sql := s.sql ++ heroUpdate cfg time gameTime entry
    if i ≥ 20 then { s with i := 0, sql := "", sent := s.sent ++ [⟨.heroes, cStr sql⟩] }
    else { s with i := i, sql := sql }

def visitUpdate (gameTime : ℕ) (inMemory : ℕ → Bool) (s : UpdateLoop) (entry : DailyGameRankTg) : UpdateLoop :=
  visitHero cfg time gameTime inMemory { s with toRankLoop := visitRank time s.toRankLoop entry } entry

structure Update where
  sent : List Msg
  prized : List (ℕ × ℤ)
  ranks : RankManager

/-- `inMemory`: whether `GetHero` finds a hero -/
def dailyGameUpdate (m : RankManager) (serverTime : ℤ) (inMemory : ℕ → Bool) : Update :=
  let s := m.heroesDailyRank.foldl (visitUpdate cfg time m.dailyGameBeginTime inMemory) {}
  { sent := sendLeft .heroes s.sql (sendLeft .ranks s.sqlRank s.sent)
    prized := s.prized
    ranks := { clearRankList m with dailyGameBeginTime := u32 serverTime } }

/-! ## What is sent of a part -/

def sqls (part : Part) (sent : List Msg) : List String := (sent.filter fun m => m.part = part).map Msg.sql

theorem sqls_append_self (part : Part) (sent : List Msg) (sql : String) :
    sqls part (sent ++ [⟨part, sql⟩]) = sqls part sent ++ [sql] := by
  simp [sqls]

theorem sqls_append_ne {part other : Part} (h : other ≠ part) (sent : List Msg) (sql : String) :
    sqls part (sent ++ [⟨other, sql⟩]) = sqls part sent := by
  simp [sqls, h]

theorem sqls_sendLeft_self (part : Part) (sql : String) (sent : List Msg) :
    sqls part (sendLeft part sql sent) = if sql = "" then sqls part sent else sqls part sent ++ [cStr sql] := by
  rw [sendLeft]
  split_ifs
  · rfl
  · exact sqls_append_self part sent _

theorem sqls_sendLeft_ne {part other : Part} (h : other ≠ part) (sql : String) (sent : List Msg) :
    sqls part (sendLeft other sql sent) = sqls part sent := by
  rw [sendLeft]
  split_ifs
  · rfl
  · exact sqls_append_ne h sent _

/-! ## The rank part -/

theorem noZero_sqlHead : NoZero sqlHead := NoZero.ofList (by decide +kernel)

theorem noZero_rankRow (entry : DailyGameRankTg) : NoZero (rankRow time entry) := cStr_noZero _

theorem sqlHead_append_ne (r : String) : sqlHead ++ r ≠ "" := by
  intro h
  exact absurd (String.append_eq_empty_iff.1 h).1 (by decide +kernel)

/-- the state of the loop behind `entries` -/
inductive RankPart (entries : List DailyGameRankTg) (s : RankLoop) : Prop where
  /-- the first statement is being built -/
  | first (le : entries.length ≤ 20) (number : s.number = entries.length)
      (text : s.sqlRank = pendingText sqlHead "," (entries.map (rankRow time))) (sent : sqls .ranks s.sent = [])
  /-- the first statement has been sent, and a comma is the head of every other one -/
  | later (front back : List DailyGameRankTg) (stmts batch : List String) (rows : entries = front ++ back)
      (front_length : front.length = 21) (number : s.number = batch.length + 1) (le : batch.length ≤ 19)
      (filling : Filling "," "," 20 stmts (back.map (rankRow time)) batch s.sqlRank)
      (sent : sqls .ranks s.sent = statement sqlHead "," (front.map (rankRow time)) :: stmts)

theorem rankPart_nil : RankPart time [] {} := .first (by decide) rfl rfl rfl

variable {time}
variable {entries : List DailyGameRankTg} {s : RankLoop}

theorem mem_rows {r : String} {entries : List DailyGameRankTg} (h : r ∈ entries.map (rankRow time)) : NoZero r := by
  obtain ⟨entry, -, rfl⟩ := List.mem_map.1 h
  exact noZero_rankRow time entry

theorem cStr_pendingText {head sep : String} (hhead : NoZero head) (hsep : NoZero sep)
    (entries : List DailyGameRankTg) :
    cStr (pendingText head sep (entries.map (rankRow time))) = pendingText head sep (entries.map (rankRow time)) :=
  (noZero_pendingText hhead hsep fun _ hr => mem_rows hr).cStr

theorem visitRank_part (h : RankPart time entries s) (entry : DailyGameRankTg) :
    RankPart time (entries ++ [entry]) (visitRank time s entry) := by
  have hrows : ∀ entries : List DailyGameRankTg,
      (entries ++ [entry]).map (rankRow time) = entries.map (rankRow time) ++ [rankRow time entry] := by simp
  cases h with
  | first le number text sent =>
    have htext : (if s.number = 0 then sqlHead else s.sqlRank ++ ",") ++ rankRow time entry =
        pendingText sqlHead "," ((entries ++ [entry]).map (rankRow time)) := by
      rw [hrows, pendingText_snoc, number, text]
      simp only [List.length_eq_zero_iff, List.map_eq_nil_iff]
    simp only [visitRank, htext]
    split_ifs with hfull
    · have hne : (entries ++ [entry]).map (rankRow time) ≠ [] := by simp
      refine .later (entries ++ [entry]) [] [] [] (by simp) ?_ rfl (Nat.zero_le _) .start ?_
      · rw [List.length_append, List.length_singleton]
        omega
      · rw [sqls_append_self, sent, cStr_pendingText noZero_sqlHead (by decide), pendingText_of_ne_nil hne]
        rfl
    · refine .first ?_ ?_ rfl sent
      · rw [List.length_append, List.length_singleton]
        omega
      · rw [List.length_append, List.length_singleton, number]
  | later front back stmts batch rows front_length number le filling sent =>
    have hnumber : s.number ≠ 0 := by omega
    have hadd := filling.add (rankRow time entry)
    have htext : s.sqlRank ++ "," = if batch = [] then "," else s.sqlRank ++ "," := by
      split_ifs with hnil
      · rw [filling.text, hnil, pendingText_nil, String.empty_append]
      · rfl
    rw [← htext, ← hrows] at hadd
    have hentries : entries ++ [entry] = front ++ (back ++ [entry]) := by rw [rows, List.append_assoc]
    have hzero : NoZero (s.sqlRank ++ "," ++ rankRow time entry) := by
      exact hadd.noZero (by decide) (by decide) fun _ hr => mem_rows hr
    simp only [visitRank, if_neg hnumber]
    split_ifs with hfull
    · -- 20 rows behind the first statement, or behind the last one that was sent
      have hlen : (batch ++ [rankRow time entry]).length ≤ 20 := by
        rw [List.length_append, List.length_singleton]
        omega
      refine .later front (back ++ [entry]) _ [] hentries front_length rfl (Nat.zero_le _)
        (hadd.flush (by simp) hlen) ?_
      rw [sqls_append_self, sent, hzero.cStr]
      rfl
    · refine .later front (back ++ [entry]) stmts (batch ++ [rankRow time entry]) hentries front_length ?_ ?_ hadd sent
      · rw [List.length_append, List.length_singleton, number]
      · rw [List.length_append, List.length_singleton]
        omega

/-- the texts of the ranks, with what is left behind the loop -/
def sentTexts (s : RankLoop) : List String :=
  if s.sqlRank = "" then sqls .ranks s.sent else sqls .ranks s.sent ++ [cStr s.sqlRank]

/-- up to 21 rows make one statement -/
theorem rankPart_short (h : RankPart time entries s) (hshort : entries.length ≤ 21) :
    Batched sqlHead "," 21 (sentTexts s) (entries.map (rankRow time)) := by
  cases h with
  | first le number text sent =>
    have hfill : Filling sqlHead "," 21 [] (entries.map (rankRow time)) (entries.map (rankRow time)) s.sqlRank :=
      ⟨⟨[], .nil, rfl⟩, text⟩
    have hzero := hfill.noZero noZero_sqlHead (by decide) fun _ hr => mem_rows hr
    have hfinish := hfill.finish (fun r _ => sqlHead_append_ne r) (by rwa [List.length_map])
    rwa [sentTexts, sent, hzero.cStr]
  | later front back stmts batch rows front_length number le filling sent =>
    -- nothing is behind the first statement
    have hback : back = [] := by
      rw [rows, List.length_append, front_length] at hshort
      exact List.eq_nil_of_length_eq_zero (by omega)
    obtain ⟨⟨before, hbefore, hrows⟩, htext⟩ := filling
    rw [hback, List.map_nil, List.append_eq_nil_iff] at hrows
    obtain ⟨rfl, rfl⟩ := hrows
    have hne : front.map (rankRow time) ≠ [] := by
      intro hnil
      rw [List.map_eq_nil_iff.1 hnil] at front_length
      cases front_length
    rw [sentTexts, htext, pendingText_nil, if_pos rfl, sent, batched_nil_iff.1 hbefore, rows, hback, List.append_nil]
    exact Batched.nil.snoc hne (by rw [List.length_map, front_length])

/-- the head is at the first statement only -/
theorem rankPart_long (h : RankPart time entries s) (hlong : 21 < entries.length) :
    ∃ later, sentTexts s = statement sqlHead "," ((entries.take 21).map (rankRow time)) :: later ∧
      Batched "," "," 20 later ((entries.drop 21).map (rankRow time)) := by
  cases h with
  | first le number text sent => omega
  | later front back stmts batch rows front_length number le filling sent =>
    have hzero := filling.noZero (by decide) (by decide) fun _ hr => mem_rows hr
    have hcomma : ∀ r : String, "," ++ r ≠ "" := by
      intro r hnil
      exact absurd (String.append_eq_empty_iff.1 hnil).1 (by decide)
    have hfinish := filling.finish (fun r _ => hcomma r) (by omega)
    rw [rows, List.take_left' front_length, List.drop_left' front_length]
    refine ⟨_, ?_, hfinish⟩
    rw [sentTexts, sent, hzero.cStr]
    split_ifs <;> rfl

/-- the statements of the ranks are well formed, and their rows are the list -/
def RanksWritten (time : ℕ → String) (m : RankManager) (sent : List Msg) : Prop :=
  ∃ limit, Batched sqlHead "," limit (sqls .ranks sent) (m.heroesDailyRank.map (rankRow time))

theorem rankPart_written {m : RankManager} {sent : List Msg} (h : RankPart time m.heroesDailyRank s)
    (hsent : sqls .ranks sent = sentTexts s) : RanksWritten time m sent ↔ m.heroesDailyRank.length ≤ 21 := by
  rw [RanksWritten, hsent]
  constructor
  · rintro ⟨limit, hbatched⟩
    by_contra hlong
    obtain ⟨later, htexts, hlater⟩ := rankPart_long h (not_le.1 hlong)
    -- the first text behind the first statement begins with a comma
    obtain ⟨batches, hall, rfl, hflat⟩ := hlater
    cases batches with
    | nil =>
      have hlen := congrArg List.length hflat
      rw [List.flatten_nil, List.length_nil, List.length_map, List.length_drop] at hlen
      omega
    | cons b batches =>
      refine not_batched (s := statement "," "," b) ?_ ?_ hbatched
      · rw [htexts]
        exact List.mem_cons_of_mem _ List.mem_cons_self
      · rw [statement, String.toList_append]
        exact fun hprefix => absurd (List.cons_prefix_cons.1 hprefix).1 (by decide)
  · intro hshort
    exact ⟨21, rankPart_short h hshort⟩

theorem rankPart_visits (todo : List DailyGameRankTg) (h : RankPart time entries s) :
    RankPart time (entries ++ todo) (todo.foldl (visitRank time) s) := by
  induction todo generalizing entries s with
  | nil => rwa [List.append_nil]
  | cons entry todo ih =>
    have hstep := ih (visitRank_part h entry)
    rwa [List.append_assoc] at hstep

theorem save_written (m : RankManager) : RanksWritten time m (save time m) ↔ m.heroesDailyRank.length ≤ 21 := by
  refine rankPart_written (rankPart_visits m.heroesDailyRank (rankPart_nil time)) ?_
  rw [save, sqls_sendLeft_self]
  rfl

/-! ## The heroes -/

variable {cfg : GameConfig} {gameTime : ℕ} {inMemory : ℕ → Bool}

def absentRows (cfg : GameConfig) (time : ℕ → String) (gameTime : ℕ) (inMemory : ℕ → Bool)
    (entries : List DailyGameRankTg) : List String :=
  (entries.filter fun entry => !inMemory entry.acc).map (heroUpdate cfg time gameTime)

def prizedHeroes (cfg : GameConfig) (inMemory : ℕ → Bool) (entries : List DailyGameRankTg) : List (ℕ × ℤ) :=
  (entries.filter fun entry => inMemory entry.acc).map fun entry => (entry.acc, getDailyGamePrize cfg entry.rank)

theorem noZero_heroUpdate (entry : DailyGameRankTg) : NoZero (heroUpdate cfg time gameTime entry) := cStr_noZero _

theorem heroUpdate_ne (entry : DailyGameRankTg) : heroUpdate cfg time gameTime entry ≠ "" := by
  have hhead : NoZero "update `character` set `daily_game_gold`=" := NoZero.ofList (by decide +kernel)
  intro hempty
  rw [heroUpdate] at hempty
  simp only [toString, String.append_assoc] at hempty
  rw [hhead.cStr_append] at hempty
  exact absurd (String.append_eq_empty_iff.1 hempty).1 (by decide +kernel)

theorem mem_absentRows {r : String} (h : r ∈ absentRows cfg time gameTime inMemory entries) :
    NoZero r ∧ "" ++ r ≠ "" := by
  obtain ⟨entry, -, rfl⟩ := List.mem_map.1 h
  rw [String.empty_append]
  exact ⟨noZero_heroUpdate entry, heroUpdate_ne entry⟩

/-- `i` statements have been collected; the batch is never full between two rounds -/
structure HeroPart (cfg : GameConfig) (time : ℕ → String) (gameTime : ℕ) (inMemory : ℕ → Bool)
    (entries : List DailyGameRankTg) (s : UpdateLoop) : Prop where
  filling : ∃ batch, batch.length = s.i ∧
    Filling "" "" 20 (sqls .heroes s.sent) (absentRows cfg time gameTime inMemory entries) batch s.sql
  le : s.i ≤ 19
  prized : s.prized = prizedHeroes cfg inMemory entries

variable {u : UpdateLoop}

theorem visitRank_heroes (s : RankLoop) (entry : DailyGameRankTg) :
    sqls .heroes (visitRank time s entry).sent = sqls .heroes s.sent := by
  rw [visitRank]
  dsimp only
  by_cases hfull : s.number ≥ 20
  · rw [if_pos hfull]
    exact sqls_append_ne (by decide) s.sent _
  · rw [if_neg hfull]

theorem visitUpdate_heroes (h : HeroPart cfg time gameTime inMemory entries u) (entry : DailyGameRankTg) :
    HeroPart cfg time gameTime inMemory (entries ++ [entry]) (visitUpdate cfg time gameTime inMemory u entry) := by
  obtain ⟨⟨batch, hlen, hfill⟩, hle, hprized⟩ := h
  rw [visitUpdate, visitHero]
  by_cases hmem : inMemory entry.acc = true
  · have hrows : absentRows cfg time gameTime inMemory (entries ++ [entry]) =
        absentRows cfg time gameTime inMemory entries := by simp [absentRows, hmem]
    rw [if_pos hmem]
    refine ⟨⟨batch, hlen, ?_⟩, hle, ?_⟩
    · rw [hrows]
      exact (visitRank_heroes u.toRankLoop entry).symm ▸ hfill
    · simp [prizedHeroes, hmem, hprized]
  · have hrows : absentRows cfg time gameTime inMemory (entries ++ [entry]) =
        absentRows cfg time gameTime inMemory entries ++ [heroUpdate cfg time gameTime entry] := by
      simp [absentRows, hmem]
    have hsame : prizedHeroes cfg inMemory (entries ++ [entry]) = prizedHeroes cfg inMemory entries := by
      simp [prizedHeroes, hmem]
    have hadd := hfill.add (heroUpdate cfg time gameTime entry)
    have htext : (if batch = [] then "" else u.sql ++ "") = u.sql := by
      split_ifs with hnil
      · rw [hfill.text, hnil, pendingText_nil]
      · rw [String.append_empty]
    rw [htext, ← hrows, ← visitRank_heroes u.toRankLoop entry] at hadd
    have hzero := hadd.noZero (by decide) (by decide) fun _ hr => (mem_absentRows hr).1
    rw [if_neg hmem]
    dsimp only
    split_ifs with hfull
    · refine ⟨⟨[], rfl, ?_⟩, Nat.zero_le _, hprized.trans hsame.symm⟩
      rw [sqls_append_self, hzero.cStr]
      refine hadd.flush (by simp) ?_
      rw [List.length_append, List.length_singleton]
      omega
    · refine ⟨⟨_, ?_, hadd⟩, Nat.le_of_lt_succ (not_le.1 hfull), hprized.trans hsame.symm⟩
      rw [List.length_append, List.length_singleton, hlen]

/-- the loop for the ranks does not see what is done with the hero -/
theorem visitUpdate_part (h : RankPart time entries u.toRankLoop) (entry : DailyGameRankTg) :
    RankPart time (entries ++ [entry]) (visitUpdate cfg time gameTime inMemory u entry).toRankLoop := by
  have hpart := visitRank_part h entry
  have hsent (sql : String) :
      sqls .ranks ((visitRank time u.toRankLoop entry).sent ++ [⟨.heroes, sql⟩]) =
        sqls .ranks (visitRank time u.toRankLoop entry).sent := sqls_append_ne (by decide) _ sql
  rw [visitUpdate, visitHero]
  dsimp only
  split_ifs
  · exact hpart
  · cases hpart with
    | first le number text sent => exact .first le number text ((hsent _).trans sent)
    | later front back stmts batch rows front_length number le filling sent =>
      exact .later front back stmts batch rows front_length number le filling ((hsent _).trans sent)
  · exact hpart

theorem visitUpdate_visits (todo : List DailyGameRankTg)
    (h : RankPart time entries u.toRankLoop ∧ HeroPart cfg time gameTime inMemory entries u) :
    RankPart time (entries ++ todo) (todo.foldl (visitUpdate cfg time gameTime inMemory) u).toRankLoop ∧
      HeroPart cfg time gameTime inMemory (entries ++ todo)
        (todo.foldl (visitUpdate cfg time gameTime inMemory) u) := by
  induction todo generalizing entries u with
  | nil => rwa [List.append_nil]
  | cons entry todo ih =>
    have hstep := ih ⟨visitUpdate_part h.1 entry, visitUpdate_heroes h.2 entry⟩
    rwa [List.append_assoc] at hstep

/-- one statement for each ranked account without a hero, in batches of up to 20, and one call for each other one -/
def HeroesWritten (cfg : GameConfig) (time : ℕ → String) (m : RankManager) (inMemory : ℕ → Bool) (u : Update) : Prop :=
  Batched "" "" 20 (sqls .heroes u.sent) (absentRows cfg time m.dailyGameBeginTime inMemory m.heroesDailyRank) ∧
    u.prized = prizedHeroes cfg inMemory m.heroesDailyRank

theorem dailyGameUpdate_written (m : RankManager) (serverTime : ℤ) (inMemory : ℕ → Bool) :
    (RanksWritten time m (dailyGameUpdate cfg time m serverTime inMemory).sent ↔ m.heroesDailyRank.length ≤ 21) ∧
      HeroesWritten cfg time m inMemory (dailyGameUpdate cfg time m serverTime inMemory) := by
  have hstart : HeroPart cfg time m.dailyGameBeginTime inMemory [] {} := ⟨⟨[], rfl, .start⟩, by decide, rfl⟩
  obtain ⟨hpart, ⟨batch, hlen, hfill⟩, hle, hprized⟩ :=
    visitUpdate_visits m.heroesDailyRank ⟨rankPart_nil time, hstart⟩
  refine ⟨rankPart_written hpart ?_, ?_, hprized⟩
  · rw [dailyGameUpdate]
    dsimp only
    rw [sqls_sendLeft_ne (by decide), sqls_sendLeft_self]
    rfl
  · have hzero := hfill.noZero (by decide) (by decide) fun _ hr => (mem_absentRows hr).1
    have hfinish := hfill.finish (fun _ hr => (mem_absentRows hr).2) (by omega)
    rw [dailyGameUpdate]
    dsimp only
    rw [sqls_sendLeft_self, sqls_sendLeft_ne (by decide), hzero.cStr]
    exact hfinish

/-- **Rank batching.** The statements of `save` and of `DailyGameUpdate` have the head, then rows joined with single
commas, which are in all of them the rows of the list, each once, and every ranked hero gets its one update or call,
exactly when the list has at most 21 entries. -/
theorem rank_batches_iff (cfg : GameConfig) (time : ℕ → String) (m : RankManager) (serverTime : ℤ)
    (inMemory : ℕ → Bool) :
    (RanksWritten time m (save time m) ∧ RanksWritten time m (dailyGameUpdate cfg time m serverTime inMemory).sent ∧
        HeroesWritten cfg time m inMemory (dailyGameUpdate cfg time m serverTime inMemory)) ↔
      m.heroesDailyRank.length ≤ 21 := by
  have hupdate : (RanksWritten time m (dailyGameUpdate cfg time m serverTime inMemory).sent ↔ _) ∧ _ :=
    dailyGameUpdate_written m serverTime inMemory
  obtain ⟨hranks, hheroes⟩ := hupdate
  rw [save_written, hranks]
  constructor
  · rintro ⟨hshort, -, -⟩
    exact hshort
  · intro hshort
    exact ⟨hshort, hshort, hheroes⟩

def longList : RankManager where
  heroesDailyRank := (List.range 22).map fun i => { name := "Ann", acc := i, score := 0, rank := i + 1, time := 0 }
  dailyMaxRankSize := 100
  minDailyScore := 0

/-- 22 entries: the second statement of `save` has no head -/
theorem not_written_long :
    ¬(RanksWritten (fun _ => "2026-01-02 00:00:00") longList (save (fun _ => "2026-01-02 00:00:00") longList) ∧
      RanksWritten (fun _ => "2026-01-02 00:00:00") longList
        (dailyGameUpdate {} (fun _ => "2026-01-02 00:00:00") longList 1767312000 fun _ => true).sent ∧
      HeroesWritten {} (fun _ => "2026-01-02 00:00:00") longList (fun _ => true)
        (dailyGameUpdate {} (fun _ => "2026-01-02 00:00:00") longList 1767312000 fun _ => true)) := by
  rintro ⟨hsave, -, -⟩
  exact absurd ((save_written longList).1 hsave) (by decide)

end DreamHeroes.Rank.Statements

/-
The record manager (`gameserver/RecordManager.cpp`): lists of records, one for each type, and the statements that
`RecordManager::update` makes of them.

- `RecordType`, `sqlHead`: the types, in the order of the loop, and the heads of their statements.
- `Record`: what `sprintf` has written into `_szTemp`, so no zero byte is in it.
- `visit`, `updateType`, `update`: the loop over the records of a type, the loop over the types. The text that is being
  built belongs to both loops.
- `record_batches`: the statements of each type are batches of one to 10 of its records, and no record is left.
-/
import Mathlib.Tactic
import DreamHeroes.Lib.Batches

namespace DreamHeroes.Records

open DreamHeroes.Lib

/-! ## Model -/

inductive RecordType where
  | login
  | loginOut
  | enterGame
  | leaveGame
  | taskComplete
  | taskAccepte
  | taskGiveUp
  | chapterUnlock
  | goldModify
  | buyHero
  | dealWaitToPay
  | dealToPay
  | waitToVerify
  | giveUpDeal
  | relive
  | onlineCount
  | buySpirit
  | dailyGame
  | dailyGameReward
  | dailyLotteryRecord
  | createName
deriving DecidableEq, Repr

/-- from `RecordTypeLogin` up to `RecordTypeMax` -/
def RecordType.all : List RecordType :=
  [.login, .loginOut, .enterGame, .leaveGame, .taskComplete, .taskAccepte, .taskGiveUp, .chapterUnlock, .goldModify,
    .buyHero, .dealWaitToPay, .dealToPay, .waitToVerify, .giveUpDeal, .relive, .onlineCount, .buySpirit, .dailyGame,
    .dailyGameReward, .dailyLotteryRecord, .createName]

def sqlHead : RecordType → String
  | .login => "insert into `login_record`(`account_id`, `nick_name`, `record_time`) values "
  | .loginOut => "insert into `login_out_record`(`account_id`, `nick_name`, `record_time`) values "
  | .enterGame =>
    "insert into `enter_game_record`(`account_id`, `nick_name`, `chapter_id`, `section_id`, `current_gold`, " ++
      "`record_time`) values "
  | .leaveGame =>
    "insert into `leave_game_record`(`account_id`, `nick_name`, `chapter_id`, `section_id`, `success`, `gold`, " ++
      "`current_gold`, `record_time`) values"
  | .taskComplete =>
    "insert into `task_complete_record`(`account_id`, `nick_name`, `chapter_id`, `section_id`, `task_id`, `gold`, " ++
      "`current_gold`, `record_time`) values"
  | .taskAccepte =>
    "insert into `task_accepte_record`(`account_id`, `nick_name`, `gold`, `current_gold`, `task_id`, `record_time`) " ++
      "values"
  | .taskGiveUp => "insert into `task_give_up_record`(`account_id`, `nick_name`, `task_id`, `record_time`) values"
  | .chapterUnlock =>
    "insert into `chapter_unlock_record`(`account_id`, `nick_name`, `chapter_id`, `gold`,  " ++
      "`current_gold`,`record_time`) values"
  | .goldModify =>
    "insert into `modify_gold_record`(`account_id`, `nick_name`, `gold`,  `current_gold`,`modify_type`, " ++
      "`record_time`) values"
  | .buyHero =>
    "insert into `buy_hero_record`(`account_id`, `nick_name`, `grid_hero`, `gold`, `current_gold`, `record_time`) " ++
      "values"
  | .dealWaitToPay =>
    "insert into `deal_wait_to_pay`(`account_id`, `status`, `price`, `order_id`, `product_id`, `record_time`) values"
  | .dealToPay =>
    "insert into `deal_to_pay`(`account_id`, `status`, `order_id`, `modify_gold`, `current_gold`, `product_id`, " ++
      "`modify_jewel`, `current_jewel`, `record_time`) values"
  | .waitToVerify =>
    "insert into `deal_wait_to_verify_reocrd`(`account_id`, `order_id`, `name`, `receipt`, `record_time`) values"
  | .giveUpDeal =>
    "insert into `give_up_deal`(`account_id`, `status`, `price`, `order_id`, `product_id`, `record_time`) values"
  | .relive => "insert into `relive_record`(`account_id`, `nick_name`, `gold`, `current_gold`, `record_time`) values"
  | .onlineCount =>
    "insert into `game_online_record`(`online_player_count`, `offline_player_count`, `record_time`) values"
  | .buySpirit =>
    "insert into `buy_spirit_record`(`account_id`, `nick_name`,`spirit`, `day_buy_count`, `current_spirit`, " ++
      "`use_jewel`, `current_jewel`, `record_time`) values"
  | .dailyGame =>
    "insert into `daily_game_record`(`account_id`, `nick_name`, `daily_game_rank`, `daily_game_score`, " ++
      "`record_time`) values"
  | .dailyGameReward =>
    "insert into `daily_game_reward`(`account_id`, `nick_name`, `daily_game_rank`, `daily_gold`, `current_gold`, " ++
      "`record_time`) values"
  | .dailyLotteryRecord =>
    "insert into `daily_lottery_record`(`account_id`, `nick_name`, `daily_gold`, `current_gold`, `daily_jewel`, " ++
      "`current_jewel`, `lottery_lotion`, `record_time`) values"
  | .createName => "insert into `create_name_record`(`name`, `day_create_count`, `day_title`, `record_time`) values"

structure Record where
  text : String
  noZero : NoZero text

structure RecordManager where
  record : RecordType → List Record := fun _ => []

/-- the state of the loops: `sent` are the texts of the messages `MsgRecordSqlGS2DB` -/
structure Loop where
  sqlRecord : String := ""
  j : ℕ := 0
  sent : List String := []

def maxCount : ℕ := 10

/-- the messages carry what `c_str()` gives -/
def send (s : Loop) : Loop := { s with sqlRecord := "", sent := s.sent ++ [cStr s.sqlRecord] }

/-- one round of the inner loop -/
def visit (head : String) (s : Loop) (r : Record) : Loop :=
  let s := if s.j ≥ maxCount then { send s with j := 0 } else s
  let sqlRecord := if s.j = 0 then s.sqlRecord ++ head else s.sqlRecord ++ ","
  { s with sqlRecord := sqlRecord ++ r.text, j := s.j + 1 }

/-- one round of the outer loop -/
def updateType (s : RecordManager × Loop) (t : RecordType) : RecordManager × Loop :=
  let l := (s.1.record t).foldl (visit (sqlHead t)) { s.2 with j := 0 }
  let l := if l.sqlRecord = "" then l else send l
  ({ record := Function.update s.1.record t [] }, l)

/-- what is left in the lists, and the texts that are sent -/
def update (m : RecordManager) : RecordManager × List String :=
  let s := RecordType.all.foldl updateType (m, {})
  (s.1, s.2.sent)

/-! ## One type -/

theorem RecordType.mem_all (t : RecordType) : t ∈ RecordType.all := by
  cases t <;> decide

theorem RecordType.all_nodup : RecordType.all.Nodup := by decide

-- the literals are read as lists of characters, which the kernel compares at once
set_option maxRecDepth 4000 in
theorem noZero_sqlHead : ∀ t, NoZero (sqlHead t)
  | .login | .loginOut | .taskGiveUp | .dealWaitToPay | .waitToVerify | .giveUpDeal | .relive | .onlineCount
  | .createName => NoZero.ofList (by decide +kernel)
  | .enterGame | .leaveGame | .taskComplete | .taskAccepte | .chapterUnlock | .goldModify | .buyHero | .dealToPay
  | .buySpirit | .dailyGame | .dailyGameReward | .dailyLotteryRecord =>
    (NoZero.ofList (by decide +kernel)).append (NoZero.ofList (by decide +kernel))

theorem sqlHead_append_ne (t : RecordType) (r : String) : sqlHead t ++ r ≠ "" := by
  rw [ne_eq, String.append_eq_empty_iff, not_and_or]
  left
  cases t <;> decide +kernel

def texts (records : List Record) : List String := records.map Record.text

theorem noZero_texts {records : List Record} {r : String} (h : r ∈ texts records) : NoZero r := by
  obtain ⟨record, -, rfl⟩ := List.mem_map.1 h
  exact record.noZero

/-- `rows` have been visited, the last `j` of them are in the text -/
structure Visited (head : String) (sent0 : List String) (l : Loop) (records : List Record) : Prop where
  filling : ∃ stmts batch, l.sent = sent0 ++ stmts ∧ batch.length = l.j ∧
    Filling head "," maxCount stmts (texts records) batch l.sqlRecord
  le : l.j ≤ maxCount

variable {head : String} {sent0 : List String} {l : Loop} {records : List Record}

/-- what is sent is the text that has been built, since no zero byte is in it -/
theorem cStr_filling {stmts batch : List String} (hhead : NoZero head)
    (h : Filling head "," maxCount stmts (texts records) batch l.sqlRecord) : cStr l.sqlRecord = l.sqlRecord :=
  (h.noZero hhead (by decide) fun _ hr => noZero_texts hr).cStr

theorem visited_visit (hhead : NoZero head) (h : Visited head sent0 l records) (r : Record) :
    Visited head sent0 (visit head l r) (records ++ [r]) := by
  obtain ⟨⟨stmts, batch, hsent, hj, hfill⟩, hle⟩ := h
  have htexts : texts (records ++ [r]) = texts records ++ [r.text] := by simp [texts]
  rw [visit]
  by_cases hfull : l.j ≥ maxCount
  · -- the batch is sent, and the record begins the next one
    have hne : batch ≠ [] := by
      rintro rfl
      rw [List.length_nil] at hj
      rw [← hj] at hfull
      exact absurd hfull (by decide)
    have hadd := (hfill.flush hne (by rw [hj]; exact hle)).add r.text
    rw [if_pos rfl, List.nil_append, ← htexts] at hadd
    rw [if_pos hfull]
    simp only [send, if_true, String.empty_append, cStr_filling hhead hfill]
    exact ⟨⟨stmts ++ [l.sqlRecord], [r.text], by rw [hsent, List.append_assoc], rfl, hadd⟩, by simp [maxCount]⟩
  · have hadd := hfill.add r.text
    rw [← htexts] at hadd
    rw [if_neg hfull]
    refine ⟨⟨stmts, batch ++ [r.text], hsent, by simp [hj], ?_⟩, not_le.1 hfull⟩
    have hnil : batch = [] ↔ l.j = 0 := by rw [← hj, List.length_eq_zero_iff]
    by_cases hzero : l.j = 0
    · have hempty : l.sqlRecord = "" := by rw [hfill.text, hnil.2 hzero, pendingText_nil]
      simp only [hzero, if_true, hempty, String.empty_append]
      rwa [if_pos (hnil.2 hzero)] at hadd
    · simp only [if_neg hzero]
      rwa [if_neg (fun h => hzero (hnil.1 h))] at hadd

theorem visited_foldl (hhead : NoZero head) (todo : List Record) (h : Visited head sent0 l records) :
    Visited head sent0 (todo.foldl (visit head) l) (records ++ todo) := by
  induction todo generalizing l records with
  | nil => rwa [List.append_nil]
  | cons r todo ih =>
    have hstep := ih (visited_visit hhead h r)
    rwa [List.append_assoc, List.singleton_append] at hstep

/-- a round of the outer loop that begins with an empty text ends with one -/
theorem updateType_batched (m : RecordManager) (t : RecordType) (hempty : l.sqlRecord = "") :
    ∃ stmts, (updateType (m, l) t).2.sent = l.sent ++ stmts ∧ (updateType (m, l) t).2.sqlRecord = "" ∧
      Batched (sqlHead t) "," maxCount stmts (texts (m.record t)) := by
  have hstart : Visited (sqlHead t) l.sent { l with j := 0 } [] := by
    refine ⟨⟨[], [], by simp, rfl, ?_⟩, Nat.zero_le _⟩
    simp only [hempty]
    exact .start
  obtain ⟨⟨stmts, batch, hsent, hj, hfill⟩, hle⟩ := visited_foldl (noZero_sqlHead t) (m.record t) hstart
  rw [List.nil_append] at hfill
  have hbatched := hfill.finish (fun r _ => sqlHead_append_ne t r) (hj ▸ hle)
  rw [updateType]
  dsimp only
  split_ifs at hbatched ⊢ with htext
  · exact ⟨stmts, hsent, htext, hbatched⟩
  · refine ⟨_, ?_, rfl, hbatched⟩
    rw [send, hsent, cStr_filling (noZero_sqlHead t) hfill, List.append_assoc]

/-! ## All types -/

theorem foldl_batched (types : List RecordType) (hnodup : types.Nodup) (m : RecordManager) (hempty : l.sqlRecord = "") :
    ∃ stmts : RecordType → List String,
      (∀ t, t ∈ types → Batched (sqlHead t) "," maxCount (stmts t) (texts (m.record t))) ∧
        (types.foldl updateType (m, l)).2.sent = l.sent ++ types.flatMap stmts ∧
          ∀ t, (types.foldl updateType (m, l)).1.record t = if t ∈ types then [] else m.record t := by
  induction types generalizing m l with
  | nil => exact ⟨fun _ => [], fun t ht => absurd ht List.not_mem_nil, by simp, by simp⟩
  | cons t types ih =>
    rw [List.nodup_cons] at hnodup
    obtain ⟨new, hsent, hnext, hnew⟩ := updateType_batched m t hempty
    obtain ⟨stmts, hstmts, hrest, hlists⟩ := ih hnodup.2 (updateType (m, l) t).1 hnext
    have hother {u : RecordType} (hu : u ≠ t) : (updateType (m, l) t).1.record u = m.record u := by
      simp [updateType, Function.update_of_ne hu]
    refine ⟨Function.update stmts t new, ?_, ?_, ?_⟩
    · intro u hu
      by_cases hut : u = t
      · subst hut
        rw [Function.update_self]
        exact hnew
      · rw [Function.update_of_ne hut, ← hother hut]
        exact hstmts u ((List.mem_cons.1 hu).resolve_left hut)
    · have hflat : types.flatMap (Function.update stmts t new) = types.flatMap stmts := by
        apply List.flatMap_congr
        intro u hu
        rw [Function.update_of_ne]
        rintro rfl
        exact hnodup.1 hu
      rw [List.foldl_cons, List.flatMap_cons, Function.update_self, hflat, ← List.append_assoc, ← hsent]
      exact hrest
    · intro u
      rw [List.foldl_cons, hlists u]
      by_cases hut : u = t
      · subst hut
        simp [hnodup.1, updateType]
      · rw [hother hut]
        simp [hut]

/-- **Record batching.** Whatever the lists hold, `update` sends type by type, in the order of the types, statements of
the head of the type and one to 10 of its records, which are in all of them the records of the list in order, each once.
No record is left. -/
theorem record_batches (m : RecordManager) :
    ∃ stmts : RecordType → List String,
      (∀ t, Batched (sqlHead t) "," maxCount (stmts t) (texts (m.record t))) ∧
        (update m).2 = RecordType.all.flatMap stmts ∧ ∀ t, (update m).1.record t = [] := by
  obtain ⟨stmts, hstmts, hsent, hlists⟩ := foldl_batched (l := {}) RecordType.all RecordType.all_nodup m rfl
  refine ⟨stmts, fun t => hstmts t t.mem_all, hsent, ?_⟩
  intro t
  have hleft := hlists t
  rwa [if_pos t.mem_all] at hleft

end DreamHeroes.Records

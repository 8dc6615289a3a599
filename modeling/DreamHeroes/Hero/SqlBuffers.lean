/-
The texts that `sprintf` writes into buffers of a fixed size: `DreamHero::SaveHero` and `DreamHero::ReqVerifyDeal`.

- `Lists`, `lists`: the lists and maps of a hero as `SaveHero` reads them, each number as the `int` it is.
- `scratch`: the calls of its loops, each with the size of its buffer. `characterText`, `dealText`: what goes into the
  two statements. `verifyText`: the statement of `ReqVerifyDeal`.
- `Op`, `step`: the life of a hero, with the receipts of its client.
- `characterSize`, `dealSize`: the sizes, from the digits of the numbers and the bytes of the name and the times.
- `scratch_fits`: an entry of a list always fits.
- `sql_buffers_iff`: in every run, the other texts fit exactly when the sizes are small enough where the texts are
  written. With an ordinary name 79 entries always are (`characterSize_le`), but nothing in the code keeps the lists
  short: `grid_states_overflow` is one message with 1400 grids.
-/
import Mathlib.Tactic
import DreamHeroes.Lib.Machine
import DreamHeroes.Lib.Text
import DreamHeroes.DB.SqlText
import DreamHeroes.Hero.HeroRun

namespace DreamHeroes.Hero.Buffers

open DreamHeroes.Lib DreamHeroes.Config DreamHeroes.Hero.Requests

/-! ## Texts -/

/-- the value of an `int` -/
def asInt (n : ℤ) : ℤ := (Int32.ofInt n).toInt

def asPair (p : ℤ × ℤ) : ℤ × ℤ := (asInt p.1, asInt p.2)

def asKill (k : MsgObjConfig) : MsgObjConfig := { id := asInt k.id, type := asInt k.type }

/-- `%d` -/
def decimal (n : ℤ) : String := toString (asInt n)

structure Lists where
  records : List (ℤ × ℤ)
  heroes : List Bool
  tasks : List MsgTaskInfo
  specialKills : List ((ℤ × ℤ) × List MsgObjConfig)
  gridNotifyState : List (ℤ × Bool)
  specialCreatures : List (ℤ × ℤ)
  lotions : List ℤ

def lists (h : DreamHero) : Lists where
  records := h.info.records.map asPair
  heroes := h.info.heroes
  tasks := h.info.tasks.map fun t =>
    { taskid := asInt t.taskid, argument1 := asInt t.argument1, usetime := asInt t.usetime }
  specialKills := h.specialKills.toList.map fun e => (asPair e.1, e.2.map asKill)
  gridNotifyState := h.info.gridNotifyState.map fun p => (asInt p.1, p.2)
  specialCreatures := h.specialCreatures.toList.map asPair
  lotions := h.info.lotions.map asInt

def szTemp : ℕ := 256
def szTemp1 : ℕ := 128
def szLotionStatus : ℕ := 128

/-- the calls in the loops of `SaveHero`: the size of the buffer, and the text -/
def scratch (l : Lists) : List (ℕ × String) :=
  (l.records.map fun p => (szTemp, pairText p.1 p.2)) ++
    (l.heroes.map fun b => (szTemp, toString (flag b))) ++
    (l.tasks.map fun t => (szTemp, pairText t.taskid t.argument1 ++ "," ++ toString t.usetime)) ++
    (l.specialKills.flatMap fun e => e.2.map fun k => (szTemp1, pairText k.id k.type)) ++
    ((l.specialKills.filter fun e => !e.2.isEmpty).map fun e => (szTemp, pairText e.1.1 e.1.2)) ++
    (l.gridNotifyState.map fun p => (szTemp, pairText p.1 (flag p.2))) ++
    (l.specialCreatures.map fun p => (szTemp1, pairText p.1 p.2)) ++
    l.lotions.map fun n => (szLotionStatus, toString n)

/-- the statement up to its values -/
def characterHead : String :=
  "replace into `character`(`account_id`, `name`, `gold`, `record_his`, `heroes_state`, `tasks`,`special_kill`,\t\t" ++
    "`current_hero`, `current_chapter`, `current_section`, `complete_task_count`, `special_creatures`, \t\t " ++
    "`free_task_count`,`last_task_advertisement_time`,`gm_level`, `current_task_count`, `tutorial_flag`,\t\t " ++
    "`jewel`, `spirit`,`last_recover_spirit_time`,`day_buy_spirit`, `last_buy_spirit_time`, `lotions`, " ++
    "`last_lottery_time`,\t\t `daily_game_progress`, `daily_game_score`, `daily_game_gold`, `daily_game_time`, " ++
    "`daily_game_prize_time`,`daily_game_hp_pct`,\t\t `daily_game_record_progress`, `daily_reset_game_count`, " ++
    "`last_daily_reset_game_time`, `daily_top_grogress`, `daily_game_anger`, `concern_weixin`, `grid_state_notify`) " ++
    "values \t\t("

variable (time : ℕ → String)

/-- the values, each with the text behind it -/
def characterValues (h : DreamHero) : List (String × String) :=
  let l := lists h
  [(toString (h.account : ℤ), ", '"), (cStr h.info.name, "', "), (decimal h.info.gold, ", '"),
    (recordText l.records, "', '"), (heroesText l.heroes, "', '"), (tasksText l.tasks, "', '"),
    (specialKillText l.specialKills, "', "), (decimal h.info.currentHero, ", "), (decimal h.currentChapter, ", "),
    (decimal h.currentSection, ", "), (decimal h.info.completeTaskCount, ", '"),
    (recordText l.specialCreatures, "',"), (decimal h.currentTaskCount, ", '"),
    (time h.lastTaskAdvertisementTime, "', "),
    (decimal h.gmLevel, ", "), (decimal h.currentTaskCount, ", "), (decimal h.info.newTutorial, ", "),
    (decimal h.info.jewel, ", "), (decimal h.info.spirit, ",\t\t '"), (time h.lastRecoverSpiritTime, "', "),
    (decimal h.info.dayBuySpirit, ", '"), (time h.lastBuySpiritTime, "', '"), (lotionText l.lotions, "', '"),
    (time h.lastDayLotteryTime, "', "), (decimal h.info.dailyGameProgress, ", "), (decimal h.info.dailyGameScore, ", "),
    (decimal h.info.dailyGameGold, ", '"), (time h.dailyGameTime, "','"), (time h.dailyGamePrizeTime, "', "),
    (decimal h.info.dailyGameHpPct, ", "), (decimal h.info.dailyGameRecordProgress, ", "),
    (decimal h.info.dailyResetGameCount, ", '"), (time h.lastDailyResetGameTime, "', "),
    (decimal h.info.dailyTopGrogress, ", "), (decimal h.info.dailyGameAnger, ", "),
    (decimal (flag h.info.concernWeixin), ", '"), (gridText l.gridNotifyState, "');")]

/-- the first statement of `SaveHero` -/
def characterText (h : DreamHero) : String :=
  characterHead ++ String.join ((characterValues time h).map fun v => v.1 ++ v.2)

/-- the values of the enumeration -/
def dealStatus : DealStatusType → ℤ
  | .waitToPay => 0
  | .waitPrepareToPay => 1
  | .complete => 2
  | .waitPrepareToVerify => 3
  | .failed => 4

/-- a row of the second -/
def dealText (v : DealValues) : String :=
  "(" ++ decimal v.orderId ++ ", " ++ toString (v.accountId : ℤ) ++ ", '" ++ cStr v.keyCode ++ "', " ++
    decimal v.status ++ ", " ++ decimal v.price ++ ", '" ++ v.dealTime ++ "', " ++
    decimal (dealStatus v.completeStatus) ++ ")"

/-- the statement of `ReqVerifyDeal` -/
def verifyText (orderId : ℤ) (receipt : SqlText.Bytes) : SqlText.Bytes :=
  SqlText.verifyHead ++ SqlText.decimal (asInt orderId) ++ SqlText.ascii ", " ++
    SqlText.decimal SqlText.waitPrepareToVerify ++ SqlText.ascii ", '" ++ SqlText.cStr receipt ++ SqlText.ascii "') "

/-- it is the second text of `SqlText.reqVerifyDeal`, behind the one of the record manager -/
theorem reqVerifyDeal_eq (acc : ℕ) (name curTime : SqlText.Bytes) (orderId : ℤ) (receipt : SqlText.Bytes) :
    SqlText.reqVerifyDeal acc name curTime (asInt orderId) receipt =
      (SqlText.dealWaitToVerifyRecord acc name (asInt orderId) (SqlText.cStr receipt) curTime).bind fun _ =>
        SqlText.sprintf 10240 (verifyText orderId receipt) := rfl

/-! ## Runs -/

variable (cfg : GameConfig) (out : Outside)

inductive Op where
  | hero (op : Requests.Op)
  | verifyDeal (orderId : ℤ) (receipt : SqlText.Bytes)

/-- the hero keeps its deals when one is verified -/
def step (s : St) : Op → St
  | .hero op => Requests.step cfg out s op
  | .verifyDeal _ _ => s

/-- a text and its zero byte fit -/
structure SaveFits (now : ℕ) (h : DreamHero) : Prop where
  elements : ∀ e ∈ scratch (lists h), e.2.utf8ByteSize + 1 ≤ e.1
  statement : (characterText time h).utf8ByteSize + 1 ≤ 4096
  deals : ∀ v ∈ dealRows time h now, (dealText v).utf8ByteSize + 1 ≤ szTemp

def StepFits (s : St) : Op → Prop
  | .hero .saveHero => SaveFits out.time s.now s.hero
  | .verifyDeal orderId receipt =>
    s.hero.dealsWaitToPay.contains orderId → (verifyText orderId receipt).length + 1 ≤ 10240
  | _ => True

/-! ## Sizes -/

/-- a list of texts with a separator between them -/
def listSize (sizes : List ℕ) : ℕ := sizes.sum + (sizes.length - 1)

def pairSize (p : ℤ × ℤ) : ℕ := width p.1 + 1 + width p.2

def listsSize (l : Lists) : ℕ :=
  listSize (l.records.map pairSize) + listSize (l.heroes.map fun _ => 1) +
    listSize (l.tasks.map fun t => pairSize (t.taskid, t.argument1) + 1 + width t.usetime) +
    listSize ((l.specialKills.filter fun e => !e.2.isEmpty).map fun e =>
      pairSize e.1 + (e.2.map fun k => 1 + pairSize (k.id, k.type)).sum) +
    listSize (l.gridNotifyState.map fun p => width p.1 + 2) + listSize (l.specialCreatures.map pairSize) +
    listSize (l.lotions.map width)

def numbers (h : DreamHero) : List ℤ :=
  [h.info.gold, h.info.currentHero, h.currentChapter, h.currentSection, h.info.completeTaskCount, h.currentTaskCount,
    h.gmLevel, h.currentTaskCount, h.info.newTutorial, h.info.jewel, h.info.spirit, h.info.dayBuySpirit,
    h.info.dailyGameProgress, h.info.dailyGameScore, h.info.dailyGameGold, h.info.dailyGameHpPct,
    h.info.dailyGameRecordProgress, h.info.dailyResetGameCount, h.info.dailyTopGrogress, h.info.dailyGameAnger]

def times (h : DreamHero) : List ℕ :=
  [h.lastTaskAdvertisementTime, h.lastRecoverSpiritTime, h.lastBuySpiritTime, h.lastDayLotteryTime, h.dailyGameTime,
    h.dailyGamePrizeTime, h.lastDailyResetGameTime]

/-- 843 bytes of the format, and the digit of a flag -/
def characterSize (h : DreamHero) : ℕ :=
  844 + width h.account + (cStr h.info.name).utf8ByteSize + ((numbers h).map fun n => width (asInt n)).sum +
    ((times h).map fun t => (time t).utf8ByteSize).sum + listsSize (lists h)

/-- 18 bytes of the format, and the digit of the state -/
def dealSize (account : ℕ) (now : ℕ) (deal : DealWaitToPay) : ℕ :=
  19 + width (asInt deal.orderId) + width account + (cStr deal.keyCode).utf8ByteSize + width (asInt deal.status) +
    width (asInt deal.price) + (time now).utf8ByteSize

/-- the sizes, where a text is written -/
def StepShort (s : St) : Op → Prop
  | .hero .saveHero =>
    characterSize out.time s.hero ≤ 4095 ∧
      ∀ e ∈ s.hero.dealsWaitToPay.toList, dealSize out.time s.hero.account s.now e.2 ≤ 255
  | .verifyDeal orderId receipt =>
    s.hero.dealsWaitToPay.contains orderId → width (asInt orderId) + (SqlText.cStr receipt).length ≤ 10147
  | _ => True

/-! ## The sizes of the texts -/

theorem width_asInt_le (n : ℤ) : width (asInt n) ≤ 11 := by
  have hlow := (Int32.ofInt n).le_toInt
  have hhigh := (Int32.ofInt n).toInt_lt
  apply width_le (k := 10)
  rw [asInt]
  omega

theorem width_flag (b : Bool) : width (flag b) = 1 := by cases b <;> simp [flag, width]

theorem size_pairText (a b : ℤ) : (pairText a b).utf8ByteSize = pairSize (a, b) := by
  have hcomma : ",".utf8ByteSize = 1 := rfl
  simp only [pairText, String.utf8ByteSize_append, size_toString, hcomma, pairSize]

theorem pairSize_asPair_le (p : ℤ × ℤ) : pairSize (asPair p) ≤ 23 := by
  have h1 := width_asInt_le p.1
  have h2 := width_asInt_le p.2
  simp only [pairSize, asPair]
  omega

/-- a list whose texts have these sizes, joined with a separator of one byte -/
theorem size_joined {α : Type*} (sep : String) (hsep : sep.utf8ByteSize = 1) {text : α → String} {size : α → ℕ}
    (htext : ∀ a, (text a).utf8ByteSize = size a) (l : List α) :
    (sep.intercalate (l.map text)).utf8ByteSize = listSize (l.map size) := by
  have hsizes : (l.map text).map String.utf8ByteSize = l.map size := by
    rw [List.map_map]
    exact List.map_congr_left fun a _ => htext a
  rw [size_intercalate, hsizes, hsep, listSize, one_mul, List.length_map, List.length_map]

theorem size_recordText (l : List (ℤ × ℤ)) : (recordText l).utf8ByteSize = listSize (l.map pairSize) := by
  rw [recordText, size_joined ";" rfl fun p : ℤ × ℤ => size_pairText p.1 p.2]

theorem size_heroesText (l : List Bool) : (heroesText l).utf8ByteSize = listSize (l.map fun _ => 1) := by
  rw [heroesText, size_joined ";" rfl fun b => (size_toString (flag b)).trans (width_flag b)]

theorem size_tasksText (l : List MsgTaskInfo) :
    (tasksText l).utf8ByteSize =
      listSize (l.map fun t => pairSize (t.taskid, t.argument1) + 1 + width t.usetime) := by
  have hcomma : ",".utf8ByteSize = 1 := rfl
  have htask (t : MsgTaskInfo) : (pairText t.taskid t.argument1 ++ "," ++ toString t.usetime).utf8ByteSize =
      pairSize (t.taskid, t.argument1) + 1 + width t.usetime := by
    simp only [String.utf8ByteSize_append, size_pairText, size_toString, hcomma]
  rw [tasksText, size_joined ";" rfl htask]

theorem size_specialKillText (l : List ((ℤ × ℤ) × List MsgObjConfig)) :
    (specialKillText l).utf8ByteSize =
      listSize ((l.filter fun e => !e.2.isEmpty).map fun e =>
        pairSize e.1 + (e.2.map fun k => 1 + pairSize (k.id, k.type)).sum) := by
  have hcolon : ":".utf8ByteSize = 1 := rfl
  have hkill (k : MsgObjConfig) : (":" ++ pairText k.id k.type).utf8ByteSize = 1 + pairSize (k.id, k.type) := by
    rw [String.utf8ByteSize_append, size_pairText, hcolon]
  have hmap (e : (ℤ × ℤ) × List MsgObjConfig) :
      (pairText e.1.1 e.1.2 ++ String.join (e.2.map fun k => ":" ++ pairText k.id k.type)).utf8ByteSize =
        pairSize e.1 + (e.2.map fun k => 1 + pairSize (k.id, k.type)).sum := by
    rw [String.utf8ByteSize_append, size_pairText, size_join, List.map_map]
    congr 2
    exact List.map_congr_left fun k _ => hkill k
  rw [specialKillText, size_joined ";" rfl hmap]

theorem size_gridText (l : List (ℤ × Bool)) : (gridText l).utf8ByteSize = listSize (l.map fun p => width p.1 + 2) := by
  have hgrid (p : ℤ × Bool) : (pairText p.1 (flag p.2)).utf8ByteSize = width p.1 + 2 := by
    rw [size_pairText, pairSize, width_flag]
  rw [gridText, size_joined ";" rfl hgrid]

theorem size_lotionText (l : List ℤ) : (lotionText l).utf8ByteSize = listSize (l.map width) := by
  rw [lotionText, size_joined "," rfl size_toString]

theorem size_characterHead : characterHead.utf8ByteSize = 739 := by decide +kernel

theorem size_characterText (h : DreamHero) : (characterText time h).utf8ByteSize = characterSize time h := by
  have hflag : width (asInt (flag h.info.concernWeixin)) = 1 := by
    have hint : asInt (flag h.info.concernWeixin) = flag h.info.concernWeixin := by
      cases h.info.concernWeixin <;> rfl
    rw [hint, width_flag]
  have hparts : ", '".utf8ByteSize = 3 ∧ "', ".utf8ByteSize = 3 ∧ "', '".utf8ByteSize = 4 ∧ ", ".utf8ByteSize = 2 ∧
      "',".utf8ByteSize = 2 ∧ ",\t\t '".utf8ByteSize = 5 ∧ "','".utf8ByteSize = 3 ∧ "');".utf8ByteSize = 3 := by decide
  rw [characterText, String.utf8ByteSize_append, size_join, size_characterHead]
  simp only [characterValues, List.map_cons, List.map_nil, List.sum_cons, List.sum_nil, String.utf8ByteSize_append,
    decimal, size_toString, size_recordText, size_heroesText, size_tasksText, size_specialKillText, size_gridText,
    size_lotionText, hparts, hflag, characterSize, numbers, times, listsSize]
  ring

theorem width_dealStatus (t : DealStatusType) : width (asInt (dealStatus t)) = 1 := by
  cases t <;> simp [dealStatus, asInt, width]

theorem size_dealText (v : DealValues) :
    (dealText v).utf8ByteSize =
      19 + width (asInt v.orderId) + width v.accountId + (cStr v.keyCode).utf8ByteSize + width (asInt v.status) +
        width (asInt v.price) + v.dealTime.utf8ByteSize := by
  have hparts : "(".utf8ByteSize = 1 ∧ ", ".utf8ByteSize = 2 ∧ ", '".utf8ByteSize = 3 ∧ "', ".utf8ByteSize = 3 ∧
      ")".utf8ByteSize = 1 := by decide
  unfold dealText
  simp only [decimal, String.utf8ByteSize_append, size_toString, width_dealStatus, hparts]
  omega

theorem length_decimal (n : ℤ) : (SqlText.decimal n).length = width n := by
  rw [SqlText.decimal, SqlText.ascii, List.length_map, length_toString]

theorem length_verifyText (orderId : ℤ) (receipt : SqlText.Bytes) :
    (verifyText orderId receipt).length = 92 + width (asInt orderId) + (SqlText.cStr receipt).length := by
  have hparts : (SqlText.ascii ", ").length = 2 ∧ (SqlText.ascii ", '").length = 3 ∧
      (SqlText.ascii "') ").length = 3 ∧ (SqlText.decimal SqlText.waitPrepareToVerify).length = 1 := by decide
  have hhead := SqlText.outside_heads.1.2
  simp only [verifyText, List.length_append, length_decimal, hparts, hhead]
  omega

/-! ## What fits -/

/-- an entry has at most three numbers -/
theorem scratch_fits (h : DreamHero) : ∀ e ∈ scratch (lists h), e.2.utf8ByteSize + 1 ≤ e.1 := by
  have hpair (p : ℤ × ℤ) : (pairText (asPair p).1 (asPair p).2).utf8ByteSize ≤ 23 := by
    rw [size_pairText]
    exact pairSize_asPair_le p
  have hkill (k : MsgObjConfig) : (pairText (asKill k).id (asKill k).type).utf8ByteSize ≤ 23 := hpair (k.id, k.type)
  intro e he
  simp only [scratch, lists, List.mem_append, List.mem_map, List.mem_flatMap, List.mem_filter] at he
  rcases he with ((((((⟨_, ⟨p, -, rfl⟩, rfl⟩ | ⟨b, -, rfl⟩) | ⟨_, ⟨t, -, rfl⟩, rfl⟩) |
    ⟨_, ⟨kills, -, rfl⟩, k, hk, rfl⟩) | ⟨_, ⟨⟨kills, -, rfl⟩, -⟩, rfl⟩) | ⟨_, ⟨p, -, rfl⟩, rfl⟩) | ⟨_,
      ⟨p, -, rfl⟩, rfl⟩) |
    ⟨_, ⟨n, -, rfl⟩, rfl⟩
  · have := hpair p
    simp only [szTemp]
    omega
  · simp only [size_toString, width_flag, szTemp]
    omega
  · have hfirst := hpair (t.taskid, t.argument1)
    have htime := width_asInt_le t.usetime
    have hcomma : ",".utf8ByteSize = 1 := rfl
    simp only [String.utf8ByteSize_append, size_toString, hcomma, szTemp]
    simp only [asPair] at hfirst
    omega
  · obtain ⟨k, -, rfl⟩ := List.mem_map.1 hk
    have := hkill k
    simp only [szTemp1]
    omega
  · have := hpair kills.1
    simp only [szTemp]
    omega
  · have hnumber := width_asInt_le p.1
    simp only [size_pairText, pairSize, width_flag, szTemp]
    omega
  · have := hpair p
    simp only [szTemp1]
    omega
  · have := width_asInt_le n
    simp only [size_toString, szLotionStatus]
    omega

theorem saveFits_iff (now : ℕ) (h : DreamHero) :
    SaveFits time now h ↔
      characterSize time h ≤ 4095 ∧ ∀ e ∈ h.dealsWaitToPay.toList, dealSize time h.account now e.2 ≤ 255 := by
  have hdeals : (∀ v ∈ dealRows time h now, (dealText v).utf8ByteSize + 1 ≤ szTemp) ↔
      ∀ e ∈ h.dealsWaitToPay.toList, dealSize time h.account now e.2 ≤ 255 := by
    simp only [dealRows, List.forall_mem_map, size_dealText, szTemp, dealSize, Nat.add_one_le_iff, Nat.lt_succ_iff]
  constructor
  · intro hfits
    have hstatement := hfits.statement
    rw [size_characterText] at hstatement
    exact ⟨by omega, hdeals.1 hfits.deals⟩
  · rintro ⟨hstatement, hshort⟩
    refine ⟨scratch_fits h, ?_, hdeals.2 hshort⟩
    rw [size_characterText]
    omega

theorem stepFits_iff (s : St) (op : Op) : StepFits out s op ↔ StepShort out s op := by
  cases op with
  | hero op =>
    cases op with
    | saveHero => exact saveFits_iff out.time s.now s.hero
    | _ => exact Iff.rfl
  | verifyDeal orderId receipt =>
    simp only [StepFits, StepShort, length_verifyText]
    apply imp_congr_right
    intro _
    omega

/-- **Buffers.** In every run, from every state, what `sprintf` writes fits its buffers exactly when each `SaveHero`
finds a hero whose name, lists and deals are short enough, and each receipt is. -/
theorem sql_buffers_iff (cfg : GameConfig) (out : Outside) (s : St) (ops : List Op) :
    Along (step cfg out) (StepFits out) s ops ↔ Along (step cfg out) (StepShort out) s ops := by
  have hsame : StepFits out = StepShort out := by
    funext s op
    exact propext (stepFits_iff out s op)
  rw [hsame]

/-! ## How much fits -/

/-- the entries of the lists; a map of special kills counts as one, with one for each kill -/
def entries (h : DreamHero) : ℕ :=
  (lists h).records.length + (lists h).heroes.length + (lists h).tasks.length +
    ((lists h).specialKills.map fun e => 1 + e.2.length).sum + (lists h).gridNotifyState.length +
    (lists h).specialCreatures.length + (lists h).lotions.length

theorem listSize_le {α : Type*} (l : List α) (size bound : α → ℕ) (hsize : ∀ a ∈ l, size a + 1 ≤ bound a) :
    listSize (l.map size) ≤ (l.map bound).sum := by
  have hsum : (l.map size).sum + l.length ≤ (l.map bound).sum := by
    induction l with
    | nil => simp
    | cons a l ih =>
      have hhead := hsize a List.mem_cons_self
      have hrest := ih fun b hb => hsize b (List.mem_cons_of_mem _ hb)
      simp only [List.map_cons, List.sum_cons, List.length_cons]
      omega
  rw [listSize, List.length_map]
  omega

theorem listSize_le_length {α : Type*} (l : List α) (size : α → ℕ) (bound : ℕ) (hsize : ∀ a ∈ l, size a + 1 ≤ bound) :
    listSize (l.map size) ≤ bound * l.length := by
  have hle := listSize_le l size (fun _ => bound) hsize
  rwa [List.map_const', List.sum_replicate, smul_eq_mul, mul_comm] at hle

theorem specialKillsSize_le (h : DreamHero) :
    listSize (((lists h).specialKills.filter fun e => !e.2.isEmpty).map fun e =>
        pairSize e.1 + (e.2.map fun k => 1 + pairSize (k.id, k.type)).sum) ≤
      36 * ((lists h).specialKills.map fun e => 1 + e.2.length).sum := by
  have hkills (kills : List MsgObjConfig) :
      ((kills.map asKill).map fun k => 1 + pairSize (k.id, k.type)).sum ≤ 24 * kills.length := by
    induction kills with
    | nil => simp
    | cons k kills ih =>
      have hkill : pairSize ((asKill k).id, (asKill k).type) ≤ 23 := pairSize_asPair_le (k.id, k.type)
      simp only [List.map_cons, List.sum_cons, List.length_cons]
      omega
  refine (listSize_le _ _ (fun e => 36 * (1 + e.2.length)) ?_).trans ?_
  · intro e he
    obtain ⟨e, -, rfl⟩ := List.mem_map.1 (List.mem_of_mem_filter he)
    have hkey := pairSize_asPair_le e.1
    have hsum := hkills e.2
    rw [List.length_map]
    dsimp only
    omega
  · rw [← List.sum_map_mul_left]
    exact (List.filter_sublist.map _).sum_le_sum fun _ _ => Nat.zero_le _

/-- 36 bytes are enough for an entry -/
theorem listsSize_le (h : DreamHero) : listsSize (lists h) ≤ 36 * entries h := by
  have hpair (p : ℤ × ℤ) : pairSize (asPair p) + 1 ≤ 36 := by
    have := pairSize_asPair_le p
    omega
  have hrecords := listSize_le_length (lists h).records pairSize 36 (List.forall_mem_map.2 fun p _ => hpair p)
  have hheroes := listSize_le_length (lists h).heroes (fun _ => 1) 36 fun _ _ => by decide
  have htasks := listSize_le_length (lists h).tasks
    (fun t => pairSize (t.taskid, t.argument1) + 1 + width t.usetime) 36 (List.forall_mem_map.2 fun t _ => by
      have hfirst := pairSize_asPair_le (t.taskid, t.argument1)
      have htime := width_asInt_le t.usetime
      simp only [asPair] at hfirst
      dsimp only
      omega)
  have hkills := specialKillsSize_le h
  have hgrid := listSize_le_length (lists h).gridNotifyState (fun p => width p.1 + 2) 36
    (List.forall_mem_map.2 fun p _ => by
      have := width_asInt_le p.1
      dsimp only
      omega)
  have hcreatures := listSize_le_length (lists h).specialCreatures pairSize 36
    (List.forall_mem_map.2 fun p _ => hpair p)
  have hlotions := listSize_le_length (lists h).lotions width 36 (List.forall_mem_map.2 fun n _ => by
    have := width_asInt_le n
    omega)
  rw [listsSize, entries]
  omega

/-- with a name of at most 30 bytes and times of at most 19, 79 entries always fit -/
theorem characterSize_le (h : DreamHero) (haccount : h.account < 2 ^ 64) (hname : (cStr h.info.name).utf8ByteSize ≤ 30)
    (htimes : ∀ t, (time t).utf8ByteSize ≤ 19) (hentries : entries h ≤ 79) : characterSize time h ≤ 4095 := by
  have hwidth : width h.account ≤ 21 := width_le (by omega)
  have hnumbers : ((numbers h).map fun n => width (asInt n)).sum ≤ 20 * 11 := by
    rw [show 20 = ((numbers h).map fun n => width (asInt n)).length by simp [numbers], ← smul_eq_mul]
    exact List.sum_le_card_nsmul _ 11 (List.forall_mem_map.2 fun n _ => width_asInt_le n)
  have htexts : ((times h).map fun t => (time t).utf8ByteSize).sum ≤ 7 * 19 := by
    rw [show 7 = ((times h).map fun t => (time t).utf8ByteSize).length by simp [times], ← smul_eq_mul]
    exact List.sum_le_card_nsmul _ 19 (List.forall_mem_map.2 fun t _ => htimes t)
  have hlists := listsSize_le h
  rw [characterSize]
  omega

/-- the grids of a message are written with the next save, however many they are -/
theorem gridSize_le (env : Env) (ranks : Rank.RankManager) (s : St) (grids : List (ℤ × Bool)) :
    listSize (grids.map fun p => width (asInt p.1) + 2) ≤
      characterSize time (step cfg out s (.hero (.client env ranks (.modifyNotifyGridState grids)))).hero := by
  have hstep : (step cfg out s (.hero (.client env ranks (.modifyNotifyGridState grids)))).hero =
      reqModifyNotifyGridState s.hero grids := rfl
  have hgrids : ((lists (reqModifyNotifyGridState s.hero grids)).gridNotifyState.map fun p => width p.1 + 2) =
      grids.map fun p => width (asInt p.1) + 2 := by
    rw [lists, reqModifyNotifyGridState, List.map_map]
    rfl
  rw [hstep, characterSize, listsSize, hgrids]
  omega

theorem listSize_replicate (n size : ℕ) : listSize (List.replicate n size) = n * size + (n - 1) := by
  rw [listSize, List.sum_replicate, List.length_replicate, smul_eq_mul]

/-- one message with 1400 grids, and the hero is saved -/
theorem grid_states_overflow :
    ¬ ∀ (cfg : GameConfig) (out : Outside) (s : St) (ops : List Op), Along (step cfg out) (StepFits out) s ops := by
  intro hall
  have hrun := hall {} plainOutside (start {} "test" 0 {} none 0 0)
    [.hero (.client {} { dailyMaxRankSize := 100, minDailyScore := 0 }
      (.modifyNotifyGridState (List.replicate 1400 (0, true)))), .hero .saveHero]
  have hsize := ((stepFits_iff _ _ _).1 hrun.2.1).1
  have hgrid := (gridSize_le plainOutside.time {} plainOutside _ _ _ _).trans hsize
  have hwidth : width (asInt 0) + 2 = 3 := by simp [asInt, width]
  rw [List.map_replicate, listSize_replicate, hwidth] at hgrid
  omega

end DreamHeroes.Hero.Buffers

/-
The settlement of an instance: `DreamHero::ReqExitGame`.

- `reqExitGame`: the handler, with one definition for each of its loops over the message.
- `paidTasks`: the completed tasks that are paid, a held task as often as it is held.
- `Settled`: what an accepted request leaves, in closed form.
- `reqExitGame_settles`: for a hero whose tasks have different ids, an accepted request leaves exactly that, and a
  rejected one only takes the entry away.

The logs of the record manager are left out.
-/
import Mathlib.Tactic
import DreamHeroes.Lib.KeyedList
import DreamHeroes.Hero.Requests

namespace DreamHeroes.Hero.Requests

open DreamHeroes.Lib DreamHeroes.Config

/-! ## Model -/

structure MsgC2SReqExitGame where
  chapterId : ℤ
  sectionId : ℤ
  taskInfos : List MsgTaskInfo := []
  gold : ℤ := 0
  success : Bool := false
  completeTasks : List ℤ := []
  specialKillList : List MsgObjConfig := []
  specialCreatures : List (ℤ × ℤ) := []
  useLotions : List ℤ := []
deriving DecidableEq, Repr

structure MsgS2CExitGameACK where
  chapterId : ℤ
  sectionId : ℤ
  taskInfos : List MsgTaskInfo := []
  currentGold : ℤ := 0
  taskGift : List (ℤ × ℤ) := []
  success : Bool
  completeTaskCount : ℤ
  error : GameError := .no
  specialCreatures : List (ℤ × ℤ)
  currentLotions : List ℤ := []
deriving DecidableEq, Repr

/-- what the loop over `complete_tasks` changes -/
structure Completion where
  tasks : List MsgTaskInfo
  completeTaskCount : ℤ
  taskGift : List (ℤ × ℤ) := []

variable (cfg : GameConfig)

/-- the first task with the id is erased and paid -/
def completeTask (s : Completion) (taskId : ℤ) : Completion :=
  match cfg.getMapTask taskId with
  | some infoTaskConfig =>
    if taskId ∈ s.tasks.map (·.taskid) then
      { tasks := s.tasks.eraseP fun t => t.taskid = taskId, completeTaskCount := s.completeTaskCount + 1,
        taskGift := s.taskGift ++ [(taskId, infoTaskConfig.giftGold)] }
    else { s with taskGift := s.taskGift ++ [(taskId, 0)] }
  | none => { s with taskGift := s.taskGift ++ [(taskId, 0)] }

/-- the record of the chapter whose next section has been passed -/
def passSection (chapterId sectionId : ℤ) (record : ℤ × ℤ) : ℤ × ℤ :=
  if record.1 = chapterId ∧ sectionId = record.2 + 1 then (record.1, sectionId) else record

/-- the tests of the request: the entry, and the lotions that are named -/
def exitError (h : DreamHero) (msg : MsgC2SReqExitGame) : GameError :=
  if (msg.chapterId = -1 ∧ msg.sectionId = -1) ∨ msg.chapterId ≠ h.currentChapter ∨
    msg.sectionId ≠ h.currentSection then
    .notEnterTheExitGame
  else if ∃ lotion ∈ msg.useLotions, lotion ∉ h.info.lotions then .failedExitGameNotFoundTheUseLotion
  else .no

/-- the changes of an accepted request, before the entry is taken away -/
def settle (h : DreamHero) (msg : MsgC2SReqExitGame) : DreamHero × List (ℤ × ℤ) :=
  let lotions :=
    if msg.useLotions = [] then h.info.lotions else h.info.lotions.filter fun lotion => lotion ∉ msg.useLotions
  let tasks := msg.taskInfos.foldl (fun tasks entry => replaceFirst (·.taskid) entry tasks) h.info.tasks
  let completion := msg.completeTasks.foldl (completeTask cfg)
    { tasks := tasks, completeTaskCount := h.info.completeTaskCount }
  let goldEntry := max h.info.gold 0 + msg.gold + (completion.taskGift.map Prod.snd).sum
  let records := if msg.success then h.info.records.map (passSection msg.chapterId msg.sectionId) else h.info.records
  let pairEntry := (h.currentChapter, h.currentSection)
  let kills := msg.specialKillList.foldl addNew (h.specialKills.getD pairEntry [])
  ({ h with
      info := { h.info with lotions := lotions, tasks := completion.tasks, gold := goldEntry, records := records,
                            completeTaskCount := completion.completeTaskCount },
      specialKills := h.specialKills.insert pairEntry kills,
      specialCreatures := msg.specialCreatures.foldl (fun m entry => m.insert entry.1 entry.2) h.specialCreatures },
    completion.taskGift)

def reqExitGame (h : DreamHero) (msg : MsgC2SReqExitGame) : DreamHero × MsgS2CExitGameACK :=
  match exitError h msg with
  | .no =>
    let (settled, taskGift) := settle cfg h msg
    ({ settled with currentChapter := -1, currentSection := -1 },
      { chapterId := msg.chapterId, sectionId := msg.sectionId, taskInfos := settled.info.tasks,
        currentGold := settled.info.gold, taskGift := taskGift, success := msg.success,
        completeTaskCount := settled.info.completeTaskCount, specialCreatures := settled.specialCreatures.toList,
        currentLotions := settled.info.lotions })
  | error =>
    ({ h with currentChapter := -1, currentSection := -1 },
      { chapterId := msg.chapterId, sectionId := msg.sectionId, success := msg.success,
        completeTaskCount := h.info.completeTaskCount, error := error,
        specialCreatures := h.specialCreatures.toList })

/-! ## The loop over the completed tasks -/

/-- the gift of a configured task -/
def giftGold (taskId : ℤ) : ℤ := ((cfg.getMapTask taskId).map (·.giftGold)).getD 0

/-- the ids that find a held task, when each takes one away -/
def paidTasks (held completeTasks : List ℤ) : List ℤ :=
  (completeTasks.filter fun id => (cfg.getMapTask id).isSome).bagInter held

/-- one completed id: paid when it is held, a zero in the answer when not -/
theorem completeTask_paid {s : Completion} {taskId : ℤ} (hconfig : (cfg.getMapTask taskId).isSome = true)
    (hheld : taskId ∈ s.tasks.map (·.taskid)) :
    completeTask cfg s taskId =
      { tasks := s.tasks.eraseP fun t => t.taskid = taskId, completeTaskCount := s.completeTaskCount + 1,
        taskGift := s.taskGift ++ [(taskId, giftGold cfg taskId)] } := by
  obtain ⟨config, hconfig⟩ := Option.isSome_iff_exists.1 hconfig
  simp [completeTask, giftGold, hconfig, hheld]

theorem completeTask_unpaid {s : Completion} {taskId : ℤ}
    (hnot : (cfg.getMapTask taskId).isSome = false ∨ taskId ∉ s.tasks.map (·.taskid)) :
    completeTask cfg s taskId = { s with taskGift := s.taskGift ++ [(taskId, 0)] } := by
  cases hconfig : cfg.getMapTask taskId with
  | none => simp [completeTask, hconfig]
  | some config =>
    have hheld : taskId ∉ s.tasks.map (·.taskid) := by simpa [hconfig] using hnot
    simp only [completeTask, hconfig, hheld, if_false]

theorem paidTasks_cons_paid {taskId : ℤ} (hconfig : (cfg.getMapTask taskId).isSome = true) {held : List ℤ}
    (hheld : taskId ∈ held) (completeTasks : List ℤ) :
    paidTasks cfg held (taskId :: completeTasks) = taskId :: paidTasks cfg (held.erase taskId) completeTasks := by
  rw [paidTasks, List.filter_cons_of_pos (by simpa using hconfig), List.cons_bagInter_of_mem _ hheld, paidTasks]

theorem paidTasks_cons_unpaid {taskId : ℤ} {held : List ℤ}
    (hnot : (cfg.getMapTask taskId).isSome = false ∨ taskId ∉ held) (completeTasks : List ℤ) :
    paidTasks cfg held (taskId :: completeTasks) = paidTasks cfg held completeTasks := by
  rw [paidTasks, paidTasks]
  cases hconfig : (cfg.getMapTask taskId).isSome with
  | false => rw [List.filter_cons_of_neg (by simp [hconfig])]
  | true =>
    have hheld : taskId ∉ held := by simpa [hconfig] using hnot
    rw [List.filter_cons_of_pos (by simp [hconfig]), List.cons_bagInter_of_not_mem _ hheld]

/-- the count and the gifts of the loop, whatever tasks the hero holds -/
theorem completion_pays (completeTasks : List ℤ) (s : Completion) :
    (completeTasks.foldl (completeTask cfg) s).completeTaskCount =
        s.completeTaskCount + (paidTasks cfg (s.tasks.map (·.taskid)) completeTasks).length ∧
      ((completeTasks.foldl (completeTask cfg) s).taskGift.map Prod.snd).sum =
        (s.taskGift.map Prod.snd).sum +
          ((paidTasks cfg (s.tasks.map (·.taskid)) completeTasks).map (giftGold cfg)).sum := by
  induction completeTasks generalizing s with
  | nil => simp [paidTasks]
  | cons taskId completeTasks ih =>
    rw [List.foldl_cons]
    by_cases hpaid : (cfg.getMapTask taskId).isSome = true ∧ taskId ∈ s.tasks.map (·.taskid)
    · obtain ⟨hcount, hgift⟩ := ih (completeTask cfg s taskId)
      rw [hcount, hgift, paidTasks_cons_paid cfg hpaid.1 hpaid.2, completeTask_paid cfg hpaid.1 hpaid.2,
        map_key_eraseP]
      simp
      constructor <;> ring
    · have hnot : (cfg.getMapTask taskId).isSome = false ∨ taskId ∉ s.tasks.map (·.taskid) := by
        rw [not_and_or, Bool.not_eq_true] at hpaid
        exact hpaid
      obtain ⟨hcount, hgift⟩ := ih (completeTask cfg s taskId)
      rw [hcount, hgift, paidTasks_cons_unpaid cfg hnot, completeTask_unpaid cfg hnot]
      simp

/-- the tasks the loop leaves, when their ids are different -/
theorem completion_tasks (completeTasks : List ℤ) (s : Completion) (hs : (s.tasks.map (·.taskid)).Nodup) :
    (completeTasks.foldl (completeTask cfg) s).tasks =
      s.tasks.filter fun t => t.taskid ∉ paidTasks cfg (s.tasks.map (·.taskid)) completeTasks := by
  induction completeTasks generalizing s with
  | nil => simp [paidTasks]
  | cons taskId completeTasks ih =>
    rw [List.foldl_cons]
    by_cases hpaid : (cfg.getMapTask taskId).isSome = true ∧ taskId ∈ s.tasks.map (·.taskid)
    · have hrest : ((completeTask cfg s taskId).tasks.map (·.taskid)).Nodup := by
        rw [completeTask_paid cfg hpaid.1 hpaid.2, map_key_eraseP]
        exact hs.erase taskId
      rw [ih _ hrest, paidTasks_cons_paid cfg hpaid.1 hpaid.2, completeTask_paid cfg hpaid.1 hpaid.2, map_key_eraseP,
        eraseP_eq_filter hs, List.filter_filter]
      apply List.filter_congr
      intro t _
      simp [Bool.and_comm]
    · have hnot : (cfg.getMapTask taskId).isSome = false ∨ taskId ∉ s.tasks.map (·.taskid) := by
        rw [not_and_or, Bool.not_eq_true] at hpaid
        exact hpaid
      rw [ih _ (by rw [completeTask_unpaid cfg hnot]; exact hs), paidTasks_cons_unpaid cfg hnot,
        completeTask_unpaid cfg hnot]

/-! ## The settlement in closed form -/

/-- the ids of `complete_tasks` that are held and configured -/
def completed (h : DreamHero) (msg : MsgC2SReqExitGame) : Finset ℤ :=
  msg.completeTasks.toFinset.filter fun id => id ∈ h.info.tasks.map (·.taskid) ∧ (cfg.getMapTask id).isSome

/-- the last entry of `task_infos` with the id of the task -/
def overwritten (msg : MsgC2SReqExitGame) (task : MsgTaskInfo) : MsgTaskInfo :=
  (lastOf (·.taskid) msg.taskInfos task.taskid).getD task

structure Settled (h : DreamHero) (msg : MsgC2SReqExitGame) (h' : DreamHero) : Prop where
  gold : h'.info.gold = max h.info.gold 0 + msg.gold + ∑ id ∈ completed cfg h msg, giftGold cfg id
  completeTaskCount : h'.info.completeTaskCount = h.info.completeTaskCount + (completed cfg h msg).card
  tasks : h'.info.tasks = (h.info.tasks.map (overwritten msg)).filter fun t => t.taskid ∉ completed cfg h msg
  kills : ∃ added,
    h'.specialKills[(msg.chapterId, msg.sectionId)]? =
        some (h.specialKills.getD (msg.chapterId, msg.sectionId) [] ++ added) ∧
      added.Nodup ∧ added.Sublist msg.specialKillList ∧
      ∀ kill, kill ∈ added ↔ kill ∈ msg.specialKillList ∧ kill ∉ h.specialKills.getD (msg.chapterId, msg.sectionId) []
  otherKills : ∀ key : ℤ × ℤ, key ≠ (msg.chapterId, msg.sectionId) → h'.specialKills[key]? = h.specialKills[key]?
  creatures : ∀ key : ℤ,
    h'.specialCreatures[key]? =
      ((lastOf Prod.fst msg.specialCreatures key).map Prod.snd).or h.specialCreatures[key]?
  lotions : h'.info.lotions = h.info.lotions.filter fun lotion => lotion ∉ msg.useLotions
  records : h'.info.records =
    if msg.success then h.info.records.map (passSection msg.chapterId msg.sectionId) else h.info.records
  /-- everything else is as it was, and the entry is taken away -/
  rest : h' = { h with
    info := { h.info with gold := h'.info.gold, completeTaskCount := h'.info.completeTaskCount, tasks := h'.info.tasks,
                          lotions := h'.info.lotions, records := h'.info.records },
    specialKills := h'.specialKills, specialCreatures := h'.specialCreatures, currentChapter := -1,
    currentSection := -1 }

variable {cfg} {h : DreamHero} {msg : MsgC2SReqExitGame}

theorem exitError_eq_no (hno : exitError h msg = .no) :
    msg.chapterId = h.currentChapter ∧ msg.sectionId = h.currentSection ∧
      ¬ (h.currentChapter = -1 ∧ h.currentSection = -1) ∧ ∀ lotion ∈ msg.useLotions, lotion ∈ h.info.lotions := by
  rw [exitError] at hno
  split_ifs at hno with hentry hlotions
  push Not at hlotions
  rw [not_or, not_or, not_not, not_not] at hentry
  obtain ⟨hsentinel, hchapter, hsection⟩ := hentry
  exact ⟨hchapter, hsection, hchapter ▸ hsection ▸ hsentinel, hlotions⟩

theorem reqExitGame_error : (reqExitGame cfg h msg).2.error = exitError h msg := by
  rw [reqExitGame]
  cases exitError h msg <;> rfl

theorem reqExitGame_accepted (hno : exitError h msg = .no) :
    (reqExitGame cfg h msg).1 = { (settle cfg h msg).1 with currentChapter := -1, currentSection := -1 } := by
  rw [reqExitGame, hno]

theorem reqExitGame_rejected (herr : exitError h msg ≠ .no) :
    (reqExitGame cfg h msg).1 = { h with currentChapter := -1, currentSection := -1 } := by
  rw [reqExitGame]
  cases he : exitError h msg <;> first | rfl | exact absurd he herr

variable (cfg h msg) in
/-- what is paid, whatever tasks the hero holds -/
theorem settle_gold :
    (settle cfg h msg).1.info.gold =
      max h.info.gold 0 + msg.gold +
        ((paidTasks cfg (h.info.tasks.map (·.taskid)) msg.completeTasks).map (giftGold cfg)).sum := by
  simp only [settle, completion_pays, map_key_foldl_replaceFirst, List.map_nil, List.sum_nil, zero_add]

theorem settle_count :
    (settle cfg h msg).1.info.completeTaskCount =
      h.info.completeTaskCount + (paidTasks cfg (h.info.tasks.map (·.taskid)) msg.completeTasks).length := by
  simp only [settle, completion_pays, map_key_foldl_replaceFirst]

variable (cfg msg) in
/-- with different ids, an id is paid once and the paid ids are the completed ones -/
theorem paidTasks_toFinset (hdistinct : (h.info.tasks.map (·.taskid)).Nodup) :
    (paidTasks cfg (h.info.tasks.map (·.taskid)) msg.completeTasks).Nodup ∧
      (paidTasks cfg (h.info.tasks.map (·.taskid)) msg.completeTasks).toFinset = completed cfg h msg := by
  refine ⟨hdistinct.bagInter_left, ?_⟩
  ext id
  simp [paidTasks, completed, List.mem_bagInter, and_assoc, and_comm]

theorem settle_tasks (hdistinct : (h.info.tasks.map (·.taskid)).Nodup) :
    (settle cfg h msg).1.info.tasks =
      (h.info.tasks.map (overwritten msg)).filter fun t => t.taskid ∉ completed cfg h msg := by
  have hids := map_key_foldl_replaceFirst (fun t : MsgTaskInfo => t.taskid) msg.taskInfos h.info.tasks
  have hpaid := (paidTasks_toFinset cfg msg hdistinct).2
  simp only [settle]
  rw [completion_tasks cfg _ _ (by rw [hids]; exact hdistinct), hids, foldl_replaceFirst hdistinct]
  simp only [← hpaid, List.mem_toFinset]
  rfl

theorem settle_lotions :
    (settle cfg h msg).1.info.lotions = h.info.lotions.filter fun lotion => lotion ∉ msg.useLotions := by
  simp only [settle]
  split_ifs with hnone
  · simp [hnone]
  · rfl

theorem settle_settled (hdistinct : (h.info.tasks.map (·.taskid)).Nodup) (hno : exitError h msg = .no) :
    Settled cfg h msg { (settle cfg h msg).1 with currentChapter := -1, currentSection := -1 } := by
  obtain ⟨hchapter, hsection, -, -⟩ := exitError_eq_no hno
  obtain ⟨hnodup, hfinset⟩ := paidTasks_toFinset cfg msg hdistinct
  have hkey : (msg.chapterId, msg.sectionId) = (h.currentChapter, h.currentSection) := by rw [hchapter, hsection]
  constructor
  case gold => rw [settle_gold, ← hfinset, List.sum_toFinset _ hnodup]
  case completeTaskCount => rw [settle_count, ← hfinset, List.toFinset_card_of_nodup hnodup]
  case tasks => exact settle_tasks hdistinct
  case kills =>
    obtain ⟨added, heq, hrest⟩ :=
      foldl_addNew (h.specialKills.getD (h.currentChapter, h.currentSection) []) msg.specialKillList
    refine ⟨added, ?_, ?_⟩
    · simp only [settle, hkey, get_insert, if_true, heq]
    · rw [hkey]
      exact hrest
  case otherKills =>
    intro key hne
    simp only [settle, get_insert]
    rw [if_neg (hkey ▸ hne)]
  case creatures => exact get_insertLast h.specialCreatures msg.specialCreatures
  case lotions => exact settle_lotions
  case records => rfl
  case rest => rfl

variable (cfg h msg)

/-- **Settlement.** For a hero whose tasks have different ids, a request that is answered with `Error_NO` leaves what
`Settled` says, and any other leaves everything but the entry as it was. -/
theorem reqExitGame_settles (hdistinct : (h.info.tasks.map (·.taskid)).Nodup) :
    ((reqExitGame cfg h msg).2.error = .no → Settled cfg h msg (reqExitGame cfg h msg).1) ∧
      ((reqExitGame cfg h msg).2.error ≠ .no →
        (reqExitGame cfg h msg).1 = { h with currentChapter := -1, currentSection := -1 }) := by
  rw [reqExitGame_error]
  constructor
  · intro hno
    rw [reqExitGame_accepted hno]
    exact settle_settled hdistinct hno
  · intro herr
    exact reqExitGame_rejected herr

/-- two held tasks, of which one is configured and completed twice: it is paid once -/
theorem reqExitGame_settles_twice :
    let cfg : GameConfig := { tasks := Std.TreeMap.empty.insert 7 { taskid := 7, giftGold := 50 } }
    let h : DreamHero :=
      { currentChapter := 1, currentSection := 2,
        info := { gold := 10, tasks := [{ taskid := 7, argument1 := 0, usetime := 0 },
                                        { taskid := 8, argument1 := 0, usetime := 0 }] } }
    let msg : MsgC2SReqExitGame := { chapterId := 1, sectionId := 2, gold := 5, completeTasks := [7, 7, 8] }
    (reqExitGame cfg h msg).2.error = .no ∧ Settled cfg h msg (reqExitGame cfg h msg).1 ∧
      (reqExitGame cfg h msg).1.info.gold = 65 ∧ (reqExitGame cfg h msg).1.info.tasks.map (·.taskid) = [8] := by
  intro cfg h msg
  have hno : (reqExitGame cfg h msg).2.error = .no := by decide
  exact ⟨hno, (reqExitGame_settles cfg h msg (by decide)).1 hno, by decide, by decide⟩

end DreamHeroes.Hero.Requests

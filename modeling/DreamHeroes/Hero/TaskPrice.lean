/-
What a refresh of a task costs, what is recorded of it, and which task it gives (`DreamHero::RefreshTask`).

- `TaskRecord`, `refreshTaskRecords`: the records of the request, as `RecordManager` gets them.
- `givenTasks`: the tasks in the answer.
- `FairRefresh`: the price is paid for the flag and a task, the record says what was paid, the given-up task is gone,
  and the new one is another one.
- `offeredTasks`, `atIndex`: what `RadnomTaskInfo` draws from when the given-up task is off the list, and the id at the
  index drawn.
- `RefreshMeets`: what the request must find. The price is taken whatever the flag says, only one of the given-up tasks
  is erased, and its id is left out of the draw by the loop over the other tasks (`drawnTask_ne`).
- `refresh_price_iff`: an accepted request is fair exactly when it finds that. `free_task_is_paid` is one without the
  flag.
-/
import Mathlib.Tactic
import DreamHeroes.Hero.Solvency
import DreamHeroes.Hero.TaskList

namespace DreamHeroes.Hero.Requests

open DreamHeroes.Config

/-! ## Records and answers -/

/-- the records with their values; the first is a `GoldModify_AcceptTask` -/
inductive TaskRecord where
  | goldModify (account : ℕ) (nickName : String) (gold currentGold : ℤ)
  | taskAccepte (account : ℕ) (nickName : String) (gold currentGold taskId : ℤ)
  | taskGiveUp (account : ℕ) (nickName : String) (taskId : ℤ)
deriving DecidableEq, Repr

def Ack.infos : Ack → List MsgTaskConfigInfo
  | .advertisementRefreshTask _ infos _ _ => infos
  | .advertisementApplyTask infos _ _ => infos
  | _ => []

variable (cfg : GameConfig) (env : Env) (h : DreamHero) (giveUpTaskId : ℤ) (gold : Bool)

/-- what `RefreshTask` records -/
def refreshTaskRecords : List TaskRecord :=
  let prepared := prepareTask cfg env h giveUpTaskId gold
  let infoTaskConfig := radnomTaskInfo cfg env prepared.1 giveUpTaskId
  let refreshGold := if gold then cfg.globalConfig.refreshTaskGold else 0
  let currentGold := prepared.1.info.gold - cfg.globalConfig.refreshTaskGold
  (if infoTaskConfig.taskid ≠ 0 ∧ prepared.2 = .no then
    [.goldModify prepared.1.account prepared.1.info.name (-refreshGold) currentGold,
      .taskAccepte prepared.1.account prepared.1.info.name refreshGold currentGold infoTaskConfig.taskid]
  else []) ++
  if giveUpTaskId ≠ 0 then [.taskGiveUp prepared.1.account prepared.1.info.name giveUpTaskId] else []

/-- the ids of the tasks in the answer -/
def givenTasks : List ℤ := ((refreshTask cfg env h giveUpTaskId gold).2.flatMap Ack.infos).map (·.taskid)

structure FairRefresh : Prop where
  price : (refreshTask cfg env h giveUpTaskId gold).1.info.gold =
    h.info.gold - if gold = true ∧ givenTasks cfg env h giveUpTaskId gold ≠
    [] then cfg.globalConfig.refreshTaskGold else 0
  record : ∀ account nickName amount currentGold,
    .goldModify account nickName amount currentGold ∈ refreshTaskRecords cfg env h giveUpTaskId gold →
      amount = (refreshTask cfg env h giveUpTaskId gold).1.info.gold - h.info.gold
  givenUp : giveUpTaskId ≠ 0 → giveUpTaskId ∉ taskIds (refreshTask cfg env h giveUpTaskId gold).1
  another : ∀ id ∈ givenTasks cfg env h giveUpTaskId gold, id ≠ giveUpTaskId ∧ id ∉ taskIds h

/-! ## An accepted request -/

/-- the id of the task that is drawn, 0 when there is none -/
def drawnTask : ℤ :=
  (radnomTaskInfo cfg env { h with info := { h.info with tasks := keptTasks h giveUpTaskId } } giveUpTaskId).taskid

def keptIds : List ℤ := (keptTasks h giveUpTaskId).map (·.taskid)

variable {cfg env h giveUpTaskId gold}

/-- the answer carries the error of the tests -/
theorem prepareTask_no_of_answer (hno : ∀ ack ∈ (refreshTask cfg env h giveUpTaskId gold).2, ack.error = .no) :
    (prepareTask cfg env h giveUpTaskId gold).2 = .no := by
  revert hno
  rw [refreshTask]
  split_ifs <;> simp [Ack.error]

theorem refreshTask_of_no (hno : (prepareTask cfg env h giveUpTaskId gold).2 = .no) :
    (givenTasks cfg env h giveUpTaskId gold =
        if drawnTask cfg env h giveUpTaskId ≠ 0 then [drawnTask cfg env h giveUpTaskId] else []) ∧
      taskIds (refreshTask cfg env h giveUpTaskId gold).1 =
        keptIds h giveUpTaskId ++ givenTasks cfg env h giveUpTaskId gold ∧
      (refreshTask cfg env h giveUpTaskId gold).1.info.gold =
        h.info.gold - if drawnTask cfg env h giveUpTaskId ≠ 0 then cfg.globalConfig.refreshTaskGold else 0 := by
  have hprepared := prepareTask_of_no hno
  have hdrawn : (radnomTaskInfo cfg env (prepareTask cfg env h giveUpTaskId gold).1 giveUpTaskId).taskid =
      drawnTask cfg env h giveUpTaskId := by
    rw [hprepared]
    rfl
  have hkept : taskIds (prepareTask cfg env h giveUpTaskId gold).1 = keptIds h giveUpTaskId := by
    rw [hprepared]
    rfl
  have hgold : (prepareTask cfg env h giveUpTaskId gold).1.info.gold = h.info.gold := by rw [hprepared]
  rw [givenTasks, refreshTask]
  by_cases hnone : drawnTask cfg env h giveUpTaskId = 0
  · have htest : ¬((radnomTaskInfo cfg env (prepareTask cfg env h giveUpTaskId gold).1 giveUpTaskId).taskid ≠ 0 ∧
        (prepareTask cfg env h giveUpTaskId gold).2 = .no) := fun hboth => hboth.1 (hdrawn.trans hnone)
    simp only [hnone, htest, if_false, ne_eq, not_true_eq_false, hkept, hgold, sub_zero]
    split_ifs <;> simp [Ack.infos]
  · have htest : (radnomTaskInfo cfg env (prepareTask cfg env h giveUpTaskId gold).1 giveUpTaskId).taskid ≠ 0 ∧
        (prepareTask cfg env h giveUpTaskId gold).2 = .no := ⟨fun hzero => hnone (hdrawn.symm.trans hzero), hno⟩
    have hids (entry : MsgTaskInfo) (currentGold : ℤ) :
        taskIds { (prepareTask cfg env h giveUpTaskId gold).1 with
          info := { (prepareTask cfg env h giveUpTaskId gold).1.info with
            tasks := (prepareTask cfg env h giveUpTaskId gold).1.info.tasks ++ [entry], gold := currentGold } } =
          keptIds h giveUpTaskId ++ [entry.taskid] := by
      rw [← hkept]
      simp [taskIds]
    simp only [htest, hnone, if_true, ne_eq, not_false_eq_true, and_self, hids, hgold, hdrawn]
    split_ifs <;> simp [Ack.infos, hdrawn]

theorem refreshTaskRecords_of_no (hno : (prepareTask cfg env h giveUpTaskId gold).2 = .no)
    (account : ℕ) (nickName : String) (amount currentGold : ℤ) :
    .goldModify account nickName amount currentGold ∈ refreshTaskRecords cfg env h giveUpTaskId gold ↔
      drawnTask cfg env h giveUpTaskId ≠ 0 ∧ account = h.account ∧ nickName = h.info.name ∧
        amount = -(if gold then cfg.globalConfig.refreshTaskGold else 0) ∧
          currentGold = h.info.gold - cfg.globalConfig.refreshTaskGold := by
  have hdrawn : (radnomTaskInfo cfg env (prepareTask cfg env h giveUpTaskId gold).1 giveUpTaskId).taskid =
      drawnTask cfg env h giveUpTaskId := by
    rw [prepareTask_of_no hno]
    rfl
  have haccount : (prepareTask cfg env h giveUpTaskId gold).1.account = h.account := by rw [prepareTask_of_no hno]
  have hname : (prepareTask cfg env h giveUpTaskId gold).1.info.name = h.info.name := by rw [prepareTask_of_no hno]
  have hgold : (prepareTask cfg env h giveUpTaskId gold).1.info.gold = h.info.gold := by rw [prepareTask_of_no hno]
  have hgiveUp : .goldModify account nickName amount currentGold ∉
      (if giveUpTaskId ≠ 0 then [TaskRecord.taskGiveUp h.account h.info.name giveUpTaskId] else []) := by
    split_ifs <;> simp
  simp only [refreshTaskRecords, hdrawn, hno, haccount, hname, hgold, and_true, List.mem_append, hgiveUp, or_false]
  by_cases hid : drawnTask cfg env h giveUpTaskId = 0
  · simp [hid]
  · simp [hid]

/-! ## The draw -/

theorem keptIds_eq : keptIds h giveUpTaskId = if giveUpTaskId = 0 then taskIds h
    else (taskIds h).erase giveUpTaskId := by
  rw [keptIds, keptTasks]
  split_ifs
  · rfl
  · rw [taskIds]
    induction h.info.tasks with
    | nil => rfl
    | cons t tasks ih =>
      by_cases ht : t.taskid = giveUpTaskId
      · simp [ht]
      · simp [ht, ih]

/-- one of the given-up tasks is erased, so it is gone when there was one -/
theorem giveUp_mem_keptIds_iff (hgive : giveUpTaskId ≠ 0) :
    giveUpTaskId ∈ keptIds h giveUpTaskId ↔ ¬(taskIds h).count giveUpTaskId ≤ 1 := by
  rw [keptIds_eq, if_neg hgive, ← List.count_pos_iff, List.count_erase_self]
  omega

/-- what is drawn is none of the tasks that are kept -/
theorem drawnTask_not_kept (hkeyed : TasksKeyed cfg) (hid : drawnTask cfg env h giveUpTaskId ≠ 0) :
    drawnTask cfg env h giveUpTaskId ∉ keptIds h giveUpTaskId :=
  (not_held_of_offered hkeyed (radnomTaskInfo_mem hkeyed hid)).1

/-- beside another task, the given-up one is not drawn -/
theorem drawnTask_ne (hkeyed : TasksKeyed cfg) (hgive : giveUpTaskId ≠ 0) (hother : keptTasks h giveUpTaskId ≠ []) :
    drawnTask cfg env h giveUpTaskId ≠ giveUpTaskId := by
  intro hsame
  have hid : drawnTask cfg env h giveUpTaskId ≠ 0 := hsame.trans_ne hgive
  obtain ⟨task, hconfig, hopen⟩ := (mem_offered hkeyed).1 (radnomTaskInfo_mem hkeyed hid)
  have htask : giveUpTaskId = task.taskid := hsame.symm.trans (hkeyed _ task hconfig).symm
  obtain ⟨t, ht⟩ := List.exists_mem_of_ne_nil _ hother
  have hany :
    ((keptTasks h giveUpTaskId).any fun t' => t'.taskid == task.taskid || giveUpTaskId == task.taskid) = true :=
    List.any_eq_true.2 ⟨t, ht, by simp [htask]⟩
  simp [taskOpen, hany] at hopen

/-- a list without a task twice -/
theorem TaskList.once (ht : TaskList cfg h) : (taskIds h).count giveUpTaskId ≤ 1 :=
  List.nodup_iff_count_le_one.1 ht.distinct giveUpTaskId

/-! ## The condition -/

variable (cfg h giveUpTaskId) in
/-- the ids that are drawn from once the task is given up -/
def offeredTasks : List ℤ :=
  offered cfg { h with info := { h.info with tasks := keptTasks h giveUpTaskId } } giveUpTaskId

variable (cfg env h giveUpTaskId) in
/-- the id at the index of the draw -/
def atIndex : Option ℤ :=
  (offeredTasks cfg h giveUpTaskId)[env.rand 0 % (offeredTasks cfg h giveUpTaskId).length]?

variable (cfg env h giveUpTaskId gold) in
/-- the id 0 stands for no task -/
structure RefreshMeets : Prop where
  price : offeredTasks cfg h giveUpTaskId = [] ∨ atIndex cfg env h giveUpTaskId = some 0 ∨ gold = true ∨
    cfg.globalConfig.refreshTaskGold = 0
  once : giveUpTaskId ≠ 0 → (taskIds h).count giveUpTaskId ≤ 1
  another : giveUpTaskId ≠ 0 → keptTasks h giveUpTaskId ≠ [] ∨ atIndex cfg env h giveUpTaskId ≠ some giveUpTaskId

theorem drawnTask_eq (hkeyed : TasksKeyed cfg) :
    drawnTask cfg env h giveUpTaskId = (atIndex cfg env h giveUpTaskId).getD 0 := by
  have hdraw : drawnTask cfg env h giveUpTaskId = ((atIndex cfg env h giveUpTaskId).elim {} fun idTask =>
      (cfg.getMapTask idTask).getD {}).taskid := by
    rw [drawnTask, radnomTaskInfo_eq]
    rfl
  rw [hdraw]
  cases hid : atIndex cfg env h giveUpTaskId with
  | none => rfl
  | some id =>
    obtain ⟨task, hconfig, -⟩ := (mem_offered hkeyed).1 (List.mem_of_getElem? hid)
    rw [Option.elim_some, hconfig, Option.getD_some, Option.getD_some, hkeyed id task hconfig]

theorem atIndex_eq_none_iff : atIndex cfg env h giveUpTaskId = none ↔ offeredTasks cfg h giveUpTaskId = [] := by
  rw [atIndex, List.getElem?_eq_none_iff]
  constructor
  · intro hlen
    rcases Nat.eq_zero_or_pos (offeredTasks cfg h giveUpTaskId).length with hzero | hpos
    · exact List.length_eq_zero_iff.1 hzero
    · exact absurd (Nat.mod_lt (env.rand 0) hpos) (Nat.not_lt.2 hlen)
  · intro hnil
    rw [hnil]
    exact Nat.zero_le _

theorem drawnTask_eq_zero_iff (hkeyed : TasksKeyed cfg) : drawnTask cfg env h giveUpTaskId = 0 ↔
    offeredTasks cfg h giveUpTaskId = [] ∨ atIndex cfg env h giveUpTaskId = some 0 := by
  rw [drawnTask_eq hkeyed, ← @atIndex_eq_none_iff cfg env h]
  cases atIndex cfg env h giveUpTaskId <;> simp

theorem drawnTask_eq_giveUp_iff (hkeyed : TasksKeyed cfg) (hgive : giveUpTaskId ≠ 0) :
    drawnTask cfg env h giveUpTaskId = giveUpTaskId ↔ atIndex cfg env h giveUpTaskId = some giveUpTaskId := by
  rw [drawnTask_eq hkeyed]
  cases atIndex cfg env h giveUpTaskId with
  | none => simpa using hgive.symm
  | some id => simp

/-- the condition by the task drawn: beside another task the given-up one is never drawn -/
theorem refreshMeets_iff (hkeyed : TasksKeyed cfg) : RefreshMeets cfg env h giveUpTaskId gold ↔
    (drawnTask cfg env h giveUpTaskId = 0 ∨ gold = true ∨ cfg.globalConfig.refreshTaskGold = 0) ∧
      (giveUpTaskId ≠ 0 → (taskIds h).count giveUpTaskId ≤ 1) ∧
      (giveUpTaskId ≠ 0 → drawnTask cfg env h giveUpTaskId ≠ giveUpTaskId) := by
  rw [drawnTask_eq_zero_iff hkeyed, or_assoc]
  constructor
  · intro hmeets
    refine ⟨hmeets.price, hmeets.once, fun hgive => ?_⟩
    rcases hmeets.another hgive with hother | hindex
    · exact drawnTask_ne hkeyed hgive hother
    · rwa [Ne, drawnTask_eq_giveUp_iff hkeyed hgive]
  · rintro ⟨hprice, honce, hother⟩
    refine ⟨hprice, honce, fun hgive => Or.inr ?_⟩
    rw [Ne, ← drawnTask_eq_giveUp_iff hkeyed hgive]
    exact hother hgive

/-- a task that is drawn and not the one given up is a new one -/
theorem drawnTask_another (hkeyed : TasksKeyed cfg) (hid : drawnTask cfg env h giveUpTaskId ≠ 0)
    (hredrawn : giveUpTaskId ≠ 0 → drawnTask cfg env h giveUpTaskId ≠ giveUpTaskId) :
    drawnTask cfg env h giveUpTaskId ≠ giveUpTaskId ∧ drawnTask cfg env h giveUpTaskId ∉ taskIds h := by
  have hkept := drawnTask_not_kept hkeyed hid
  rw [keptIds_eq] at hkept
  split_ifs at hkept with hgive
  · exact ⟨hgive ▸ hid, hkept⟩
  · have hne := hredrawn hgive
    exact ⟨hne, fun hheld => hkept ((List.mem_erase_of_ne hne).2 hheld)⟩

/-- **Price and target of a task refresh.** When the answer is `Error_NO`, the refresh is fair exactly when no task is
offered, the flag is set or the price is zero, and a task that is given up was held once, and another task is kept
beside it or it is not the one at the index drawn. -/
theorem refresh_price_iff (cfg : GameConfig) (hkeyed : TasksKeyed cfg) (env : Env) (h : DreamHero) (giveUpTaskId : ℤ)
    (gold : Bool) (hno : ∀ ack ∈ (refreshTask cfg env h giveUpTaskId gold).2, ack.error = .no) :
    FairRefresh cfg env h giveUpTaskId gold ↔ RefreshMeets cfg env h giveUpTaskId gold := by
  have hprepared := prepareTask_no_of_answer hno
  obtain ⟨hgiven, hids, hgold⟩ := refreshTask_of_no hprepared
  have hrecords := refreshTaskRecords_of_no hprepared
  have hassigned : givenTasks cfg env h giveUpTaskId gold ≠ [] ↔ drawnTask cfg env h giveUpTaskId ≠ 0 := by
    rw [hgiven]
    split_ifs with hid <;> simp [hid]
  rw [refreshMeets_iff hkeyed]
  constructor
  · intro hfair
    refine ⟨?_, ?_, ?_⟩
    · have hprice := hfair.price
      simp only [hgold, hassigned] at hprice
      by_cases hid : drawnTask cfg env h giveUpTaskId = 0
      · exact .inl hid
      · rcases Bool.eq_false_or_eq_true gold with hflag | hflag
        · exact .inr (.inl hflag)
        · refine .inr (.inr ?_)
          simp only [hid, hflag, ne_eq, not_false_eq_true, if_true, reduceCtorEq, false_and, if_false] at hprice
          omega
    · intro hgive
      have hgone := hfair.givenUp hgive
      rw [hids, List.mem_append, not_or, giveUp_mem_keptIds_iff hgive, not_not] at hgone
      exact hgone.1
    · intro hgive hsame
      have hid : drawnTask cfg env h giveUpTaskId ≠ 0 := hsame.trans_ne hgive
      have hmem : drawnTask cfg env h giveUpTaskId ∈ givenTasks cfg env h giveUpTaskId gold := by
        rw [hgiven, if_pos hid]
        exact List.mem_singleton_self _
      exact (hfair.another _ hmem).1 hsame
  · rintro ⟨hpriced, honce, hredrawn⟩
    have hanother : ∀ id ∈ givenTasks cfg env h giveUpTaskId gold, id ≠ giveUpTaskId ∧ id ∉ taskIds h := by
      intro id hmem
      have hid : drawnTask cfg env h giveUpTaskId ≠ 0 := hassigned.1 (List.ne_nil_of_mem hmem)
      rw [hgiven, if_pos hid, List.mem_singleton] at hmem
      rw [hmem]
      exact drawnTask_another hkeyed hid hredrawn
    refine ⟨?_, ?_, ?_, hanother⟩
    · simp only [hgold, hassigned]
      rcases hpriced with hid | hflag | hprice
      · simp [hid]
      · simp [hflag]
      · simp [hprice]
    · intro account nickName amount currentGold hrecord
      obtain ⟨hid, -, -, hamount, -⟩ := (hrecords account nickName amount currentGold).1 hrecord
      rw [hgold, if_pos hid, hamount]
      rcases hpriced with hzero | hflag | hprice
      · exact absurd hzero hid
      · rw [hflag, if_pos rfl]
        omega
      · rw [hprice]
        simp
    · intro hgive
      rw [hids, List.mem_append, not_or, giveUp_mem_keptIds_iff hgive, not_not]
      exact ⟨honce hgive, fun hmem => (hanother _ hmem).1 rfl⟩

/-! ## A task without the flag -/

/-- two tasks, of which one may be held, for 100 gold -/
def pricedTasks : GameConfig :=
  { twoTasks with globalConfig := { heroMaxTasksCount := 1, refreshTaskGold := 100 } }

/-- a hero with 100 gold gives task 1 up for task 2 -/
theorem refresh_price_paid :
    let h : DreamHero := { info := { gold := 100, tasks := [{ taskid := 1, argument1 := 0, usetime := 0 }] } }
    FairRefresh pricedTasks { rand := fun _ => 1 } h 1 true ↔
    RefreshMeets pricedTasks { rand := fun _ => 1 } h 1 true := by
  intro h
  refine refresh_price_iff pricedTasks (fun id task hconfig => twoTasks_keyed id task hconfig)
    { rand := fun _ => 1 } h 1 true ?_
  decide

/-- a hero without gold and without the flag ends at -100 gold, and the record says that nothing was paid -/
theorem free_task_is_paid :
    ¬ ∀ (cfg : GameConfig) (env : Env) (h : DreamHero) (giveUpTaskId : ℤ) (gold : Bool), TasksKeyed cfg →
      (∀ ack ∈ (refreshTask cfg env h giveUpTaskId gold).2, ack.error = .no) →
        FairRefresh cfg env h giveUpTaskId gold := by
  intro hall
  have hfair := hall pricedTasks {} {} 0 false (fun id task hconfig => twoTasks_keyed id task hconfig) (by decide)
  have hprice := hfair.price
  revert hprice
  decide

end DreamHeroes.Hero.Requests

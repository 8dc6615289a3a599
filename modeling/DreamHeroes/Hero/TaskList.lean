/-
The tasks a hero holds: not more than `hero_max_tasks_count_`, of different ids, all of them configured.

- `TaskList`: the three together. `TaskOp`, `taskStep`: the four handlers that change the list.
- `offered`: the tasks that `RadnomTaskInfo` draws from, configured and not held.
- `Fits`: `ReqReplaceTask` compares a `size_t` with the count, so a negative count draws until no task is left. It fits
  when no more tasks are open to a hero who holds none than may be held.
- `task_list_iff`: along a run the list stays one exactly when every replacement fits. `replaced_below_zero` holds two
  tasks where one is allowed.
-/
import Mathlib.Tactic
import DreamHeroes.Lib.Machine
import DreamHeroes.Hero.HeroRun
import DreamHeroes.Hero.Solvency

namespace DreamHeroes.Hero.Requests

open DreamHeroes.Lib DreamHeroes.Config DreamHeroes.Rank

def taskIds (h : DreamHero) : List ℤ := h.info.tasks.map (·.taskid)

structure TaskList (cfg : GameConfig) (h : DreamHero) : Prop where
  size : (h.info.tasks.length : ℤ) ≤ cfg.globalConfig.heroMaxTasksCount
  distinct : (taskIds h).Nodup
  configured : ∀ id ∈ taskIds h, (cfg.getMapTask id).isSome = true

/-- `GameConfig::Load` files each task under its own id -/
def TasksKeyed (cfg : GameConfig) : Prop := ∀ id task, cfg.getMapTask id = some task → task.taskid = id

variable {cfg : GameConfig} {env : Env} {h h' : DreamHero}

theorem TaskList.sublist (ht : TaskList cfg h) (hids : (taskIds h').Sublist (taskIds h)) : TaskList cfg h' := by
  have hlen := hids.length_le
  rw [taskIds, taskIds, List.length_map, List.length_map] at hlen
  exact ⟨(Int.ofNat_le.2 hlen).trans ht.size, ht.distinct.sublist hids,
    fun id hid => ht.configured id (hids.subset hid)⟩

/-! ## Drawing a task -/

/-- the requirements of a task, whatever tasks are held -/
def unlocked (h : DreamHero) (task : MsgTaskConfigInfo) : Bool :=
  taskOpen { h with info := { h.info with tasks := [] } } 0 task

theorem taskOpen_iff (task : MsgTaskConfigInfo) :
    taskOpen h 0 task = true ↔
      unlocked h task = true ∧ task.taskid ∉ taskIds h ∧ (h.info.tasks = [] ∨ task.taskid ≠ 0) := by
  have hany : (h.info.tasks.any fun t => t.taskid == task.taskid || 0 == task.taskid) = false ↔
      task.taskid ∉ taskIds h ∧ (h.info.tasks = [] ∨ task.taskid ≠ 0) := by
    cases htasks : h.info.tasks with
    | nil => simp [taskIds, htasks]
    | cons t tasks =>
      simp only [taskIds, htasks, List.any_eq_false, List.mem_map, Bool.or_eq_true, beq_iff_eq, not_or, not_exists,
        not_and, reduceCtorEq, false_or]
      constructor
      · intro hall
        exact ⟨fun t' ht' => (hall t' ht').1, fun hzero => (hall t List.mem_cons_self).2 hzero.symm⟩
      · rintro ⟨hids, hzero⟩ t' ht'
        exact ⟨hids t' ht', Ne.symm hzero⟩
  simp only [taskOpen, unlocked, Bool.and_eq_true, Bool.not_eq_true', hany, List.any_nil, Bool.not_false, true_and,
    and_assoc]
  tauto

/-- the ids `RadnomTaskInfo` draws from -/
def offered (cfg : GameConfig) (h : DreamHero) (giveUpTaskId : ℤ) : List ℤ :=
  ((cfg.tasks.toList.map Prod.snd).filter (taskOpen h giveUpTaskId)).map (·.taskid)

theorem mem_offered (hkeyed : TasksKeyed cfg) {giveUpTaskId id : ℤ} :
    id ∈ offered cfg h giveUpTaskId ↔
      ∃ task, cfg.getMapTask id = some task ∧ taskOpen h giveUpTaskId task = true := by
  simp only [offered, List.mem_map, List.mem_filter]
  constructor
  · rintro ⟨_, ⟨⟨⟨key, task⟩, hentry, rfl⟩, hopen⟩, rfl⟩
    have hconfig : cfg.getMapTask key = some task := Std.TreeMap.mem_toList_iff_getElem?_eq_some.1 hentry
    dsimp only
    rw [hkeyed key task hconfig]
    exact ⟨task, hconfig, hopen⟩
  · rintro ⟨task, hconfig, hopen⟩
    refine ⟨task, ⟨⟨(id, task), ?_, rfl⟩, hopen⟩, hkeyed id task hconfig⟩
    exact Std.TreeMap.mem_toList_iff_getElem?_eq_some.2 hconfig

theorem radnomTaskInfo_eq (giveUpTaskId : ℤ) : radnomTaskInfo cfg env h giveUpTaskId =
    (offered cfg h giveUpTaskId)[env.rand 0 % (offered cfg h giveUpTaskId).length]?.elim {} fun idTask =>
      (cfg.getMapTask idTask).getD {} := by
  simp only [radnomTaskInfo, offered]
  split
  · rename_i idTask hget
    rw [hget, Option.elim_some]
  · rename_i hget
    rw [hget, Option.elim_none]

variable (env) in
/-- a draw: nothing when nothing is offered, otherwise the configuration of an offered task -/
theorem radnomTaskInfo_cases (hkeyed : TasksKeyed cfg) (giveUpTaskId : ℤ) :
    offered cfg h giveUpTaskId = [] ∧ radnomTaskInfo cfg env h giveUpTaskId = {} ∨
      (radnomTaskInfo cfg env h giveUpTaskId).taskid ∈ offered cfg h giveUpTaskId := by
  rcases List.eq_nil_or_concat (offered cfg h giveUpTaskId) with hnil | ⟨init, last, hlast⟩
  · left
    rw [radnomTaskInfo_eq, hnil]
    exact ⟨rfl, rfl⟩
  · right
    have hpos : 0 < (offered cfg h giveUpTaskId).length := by
      rw [hlast]
      simp
    have hindex := List.getElem?_eq_getElem (Nat.mod_lt (env.rand 0) hpos)
    have hmem := List.mem_of_getElem? hindex
    obtain ⟨task, hconfig, _⟩ := (mem_offered hkeyed).1 hmem
    rw [radnomTaskInfo_eq, hindex]
    simp only [Option.elim_some, hconfig, Option.getD_some]
    rw [hkeyed _ task hconfig]
    exact hmem

theorem radnomTaskInfo_mem (hkeyed : TasksKeyed cfg) {giveUpTaskId : ℤ}
    (hne : (radnomTaskInfo cfg env h giveUpTaskId).taskid ≠ 0) :
    (radnomTaskInfo cfg env h giveUpTaskId).taskid ∈ offered cfg h giveUpTaskId := by
  rcases radnomTaskInfo_cases env hkeyed giveUpTaskId with ⟨_, hnone⟩ | hmem
  · rw [hnone] at hne
    exact absurd rfl hne
  · exact hmem

/-- what is offered is not held, also when a task is given up -/
theorem not_held_of_offered (hkeyed : TasksKeyed cfg) {giveUpTaskId id : ℤ} (hid : id ∈ offered cfg h giveUpTaskId) :
    id ∉ taskIds h ∧ (cfg.getMapTask id).isSome = true := by
  obtain ⟨task, hconfig, hopen⟩ := (mem_offered hkeyed).1 hid
  refine ⟨?_, by rw [hconfig, Option.isSome_some]⟩
  rw [taskIds, List.mem_map]
  rintro ⟨t, ht, rfl⟩
  have hany : (h.info.tasks.any fun t' => t'.taskid == task.taskid || giveUpTaskId == task.taskid) = true :=
    List.any_eq_true.2 ⟨t, ht, by simp [hkeyed _ task hconfig]⟩
  simp [taskOpen, hany] at hopen

/-! ## Taking a task -/

def withTask (h : DreamHero) (taskid : ℤ) : DreamHero :=
  { h with info := { h.info with tasks := h.info.tasks ++ [{ taskid := taskid, argument1 := 0, usetime := 0 }] } }

@[simp] theorem taskIds_withTask (taskid : ℤ) : taskIds (withTask h taskid) = taskIds h ++ [taskid] := by
  simp [taskIds, withTask]

theorem TaskList.withTask (ht : TaskList cfg h) (hkeyed : TasksKeyed cfg) {giveUpTaskId id : ℤ}
    (hid : id ∈ offered cfg h giveUpTaskId)
    (hroom : (h.info.tasks.length : ℤ) + 1 ≤ cfg.globalConfig.heroMaxTasksCount) : TaskList cfg (withTask h id) := by
  obtain ⟨hnew, hconfig⟩ := not_held_of_offered hkeyed hid
  constructor
  case size => simpa [Requests.withTask] using hroom
  case distinct =>
    rw [taskIds_withTask]
    exact ht.distinct.append (List.nodup_singleton id) (List.disjoint_singleton.2 hnew)
  case configured =>
    intro id' hid'
    rw [taskIds_withTask, List.mem_append, List.mem_singleton] at hid'
    rcases hid' with hid' | rfl
    · exact ht.configured id' hid'
    · exact hconfig

/-- a task is drawn and taken, when there is one -/
def takeTask (cfg : GameConfig) (env : Env) (h : DreamHero) : DreamHero :=
  if (radnomTaskInfo cfg env h 0).taskid ≠ 0 then withTask h (radnomTaskInfo cfg env h 0).taskid else h

theorem TaskList.takeTask (ht : TaskList cfg h) (hkeyed : TasksKeyed cfg)
    (hroom : (h.info.tasks.length : ℤ) + 1 ≤ cfg.globalConfig.heroMaxTasksCount) :
    TaskList cfg (takeTask cfg env h) := by
  rw [Requests.takeTask]
  split_ifs with hdrawn
  · exact ht.withTask hkeyed (radnomTaskInfo_mem hkeyed hdrawn) hroom
  · exact ht

/-! ## The day refresh, the request for a task and the exit -/

theorem TaskList.dayRefresh (ht : TaskList cfg h) (hkeyed : TasksKeyed cfg) : TaskList cfg (dayRefresh cfg env h) := by
  have hrefresh : TaskList cfg (refreshTasks cfg env h) := by
    have htaken : refreshTasks cfg env h =
        if (h.info.tasks.length : ℤ) < cfg.globalConfig.heroMaxTasksCount then
          Requests.takeTask cfg env { h with currentTaskCount := 0 }
        else { h with currentTaskCount := 0 } := rfl
    rw [htaken]
    have hcleared : TaskList cfg { h with currentTaskCount := 0 } := ht.sublist (List.Sublist.refl _)
    split_ifs with hroom
    · exact hcleared.takeTask hkeyed hroom
    · exact hcleared
  have hfirst : TaskList cfg (if canRefresh cfg env h.lastTaskAdvertisementTime then refreshTasks cfg env h
    else h) := by
    split_ifs
    · exact hrefresh
    · exact ht
  rw [Requests.dayRefresh]
  dsimp only
  split_ifs at hfirst ⊢ <;> exact hfirst.sublist (List.Sublist.refl _)

theorem prepareTask_tasks (giveUpTaskId : ℤ) (gold : Bool) :
    (prepareTask cfg env h giveUpTaskId gold).1.info.tasks.Sublist h.info.tasks := by
  rw [prepareTask]
  cases refreshTaskError cfg env h gold with
  | no =>
    rw [giveUpTask]
    split_ifs
    · rw [countTask_info]
    · rw [countTask_info]
      exact List.eraseP_sublist
    · exact List.Sublist.refl _
  | _ => exact List.Sublist.refl _

theorem TaskList.refreshTask (ht : TaskList cfg h) (hkeyed : TasksKeyed cfg) (giveUpTaskId : ℤ) (gold : Bool) :
    TaskList cfg (refreshTask cfg env h giveUpTaskId gold).1 := by
  have hprepared : TaskList cfg (prepareTask cfg env h giveUpTaskId gold).1 :=
    ht.sublist ((prepareTask_tasks giveUpTaskId gold).map _)
  rw [Requests.refreshTask]
  dsimp only
  split
  case isTrue htaken =>
    have hroom := ((prepareTask_eq_no_iff giveUpTaskId gold).1 htaken.2).2.2
    have hprep := prepareTask_of_no htaken.2
    have hlen : (prepareTask cfg env h giveUpTaskId gold).1.info.tasks = keptTasks h giveUpTaskId := by rw [hprep]
    refine TaskList.sublist (hprepared.withTask hkeyed (radnomTaskInfo_mem hkeyed htaken.1) ?_) (List.Sublist.refl _)
    rw [hlen]
    omega
  case isFalse => exact hprepared

variable (cfg) in
theorem completion_ids (completeTasks : List ℤ) (s : Completion) :
    ((completeTasks.foldl (completeTask cfg) s).tasks.map (·.taskid)).Sublist (s.tasks.map (·.taskid)) := by
  induction completeTasks generalizing s with
  | nil => exact List.Sublist.refl _
  | cons id completeTasks ih =>
    refine (ih (completeTask cfg s id)).trans ?_
    rw [completeTask]
    cases cfg.getMapTask id with
    | none => exact List.Sublist.refl _
    | some config =>
      dsimp only
      split_ifs
      · exact List.eraseP_sublist.map _
      · exact List.Sublist.refl _

/-- an exit overwrites tasks and takes tasks away -/
theorem TaskList.reqExitGame (ht : TaskList cfg h) (msg : MsgC2SReqExitGame) :
    TaskList cfg (reqExitGame cfg h msg).1 := by
  by_cases hno : exitError h msg = .no
  · rw [reqExitGame_accepted hno]
    refine ht.sublist ?_
    have hids := completion_ids cfg msg.completeTasks
      { tasks := msg.taskInfos.foldl (fun tasks entry => replaceFirst (·.taskid) entry tasks) h.info.tasks,
        completeTaskCount := h.info.completeTaskCount }
    rw [map_key_foldl_replaceFirst] at hids
    exact hids
  · rw [reqExitGame_rejected hno]
    exact ht.sublist (List.Sublist.refl _)

/-! ## The replacement -/

theorem replaceTasks_succ (n : ℕ) :
    replaceTasks cfg env h (n + 1) = takeTask cfg { env with rand := fun _ => env.rand n }
      (replaceTasks cfg env h n) := by
  rw [replaceTasks, List.range_succ, List.foldl_append, List.foldl_cons, List.foldl_nil, takeTask]
  rfl

/-- the tasks open to the hero when it holds none -/
def openTasks (cfg : GameConfig) (h : DreamHero) : List ℤ :=
  offered cfg { h with info := { h.info with tasks := [] } } 0

theorem openTasks_nodup (hkeyed : TasksKeyed cfg) : (openTasks cfg h).Nodup := by
  have hids : cfg.tasks.toList.map (fun e => e.2.taskid) = cfg.tasks.toList.map Prod.fst := by
    apply List.map_congr_left
    rintro ⟨key, task⟩ hentry
    exact hkeyed key task (Std.TreeMap.mem_toList_iff_getElem?_eq_some.1 hentry)
  have hall : ((cfg.tasks.toList.map Prod.snd).map (·.taskid)).Nodup := by
    rw [List.map_map]
    exact hids ▸ toList_keys_nodup cfg.tasks
  exact hall.sublist (List.filter_sublist.map _)

/-- what a round of the loop keeps -/
structure Replaced (cfg : GameConfig) (h h' : DreamHero) : Prop where
  unlocked : ∀ task, unlocked h' task = unlocked h task
  distinct : (taskIds h').Nodup
  within : ∀ id ∈ taskIds h', id ∈ openTasks cfg h

theorem Replaced.mem_offered (hr : Replaced cfg h h') (hkeyed : TasksKeyed cfg) {id : ℤ} :
    id ∈ offered cfg h' 0 ↔ id ∈ openTasks cfg h ∧ id ∉ taskIds h' ∧ (h'.info.tasks = [] ∨ id ≠ 0) := by
  rw [openTasks, Requests.mem_offered hkeyed, Requests.mem_offered hkeyed]
  constructor
  · rintro ⟨task, hconfig, hopen⟩
    obtain ⟨hunlocked, hheld, hzero⟩ := (taskOpen_iff task).1 hopen
    rw [hkeyed id task hconfig] at hheld hzero
    exact ⟨⟨task, hconfig, (hr.unlocked task).symm.trans hunlocked⟩, hheld, hzero⟩
  · rintro ⟨⟨task, hconfig, hopen⟩, hheld, hzero⟩
    refine ⟨task, hconfig, (taskOpen_iff task).2 ⟨(hr.unlocked task).trans hopen, ?_⟩⟩
    rw [hkeyed id task hconfig]
    exact ⟨hheld, hzero⟩

theorem Replaced.takeTask (hr : Replaced cfg h h') (hkeyed : TasksKeyed cfg) :
    Replaced cfg h (takeTask cfg env h') := by
  rw [Requests.takeTask]
  split_ifs with hdrawn
  · have hmem := radnomTaskInfo_mem hkeyed hdrawn
    obtain ⟨hopen, hheld, _⟩ := (hr.mem_offered hkeyed).1 hmem
    refine ⟨hr.unlocked, ?_, ?_⟩
    · rw [taskIds_withTask]
      exact hr.distinct.append (List.nodup_singleton _) (List.disjoint_singleton.2 hheld)
    · intro id hid
      rw [taskIds_withTask, List.mem_append, List.mem_singleton] at hid
      rcases hid with hid | rfl
      · exact hr.within id hid
      · exact hopen
  · exact hr

variable (cfg env h) in
theorem replaceTasks_replaced (hkeyed : TasksKeyed cfg) (n : ℕ) : Replaced cfg h (replaceTasks cfg env h n) := by
  induction n with
  | zero => exact ⟨fun _ => rfl, List.nodup_nil, fun id hid => absurd hid List.not_mem_nil⟩
  | succ n ih =>
    rw [replaceTasks_succ]
    exact ih.takeTask hkeyed

theorem Replaced.length_le (hr : Replaced cfg h h') : h'.info.tasks.length ≤ (openTasks cfg h).length := by
  have hle := (hr.distinct.subperm hr.within).length_le
  rwa [taskIds, List.length_map] at hle

/-- while a task is left, a round takes one, unless the task 0 can be drawn -/
theorem Replaced.takeTask_length (hr : Replaced cfg h h') (hkeyed : TasksKeyed cfg) (hzero : cfg.getMapTask 0 = none)
    (hlt : h'.info.tasks.length < (openTasks cfg h).length) :
    (Requests.takeTask cfg env h').info.tasks.length = h'.info.tasks.length + 1 := by
  have hne {id : ℤ} (hid : id ∈ openTasks cfg h) : id ≠ 0 := by
    rintro rfl
    obtain ⟨task, hconfig, _⟩ := (Requests.mem_offered hkeyed).1 hid
    rw [hzero] at hconfig
    cases hconfig
  have hleft : ∃ id ∈ openTasks cfg h, id ∉ taskIds h' := by
    by_contra hnone
    push Not at hnone
    have hle := ((openTasks_nodup hkeyed).subperm hnone).length_le
    rw [taskIds, List.length_map] at hle
    omega
  obtain ⟨id, hopen, hheld⟩ := hleft
  have hoffered : id ∈ offered cfg h' 0 := (hr.mem_offered hkeyed).2 ⟨hopen, hheld, .inr (hne hopen)⟩
  have hdrawn : (radnomTaskInfo cfg env h' 0).taskid ≠ 0 := by
    rcases radnomTaskInfo_cases env hkeyed 0 with ⟨hnil, _⟩ | hmem
    · rw [hnil] at hoffered
      exact absurd hoffered List.not_mem_nil
    · exact hne ((hr.mem_offered hkeyed).1 hmem).1
  rw [Requests.takeTask, if_pos hdrawn]
  simp [withTask]

variable (cfg env h) in
theorem replaceTasks_length_le (hkeyed : TasksKeyed cfg) (n : ℕ) :
    (replaceTasks cfg env h n).info.tasks.length ≤ min n (openTasks cfg h).length := by
  refine le_min ?_ (replaceTasks_replaced cfg env h hkeyed n).length_le
  induction n with
  | zero => exact le_rfl
  | succ n ih =>
    rw [replaceTasks_succ, takeTask]
    split_ifs
    · simpa [withTask] using ih
    · exact ih.trans (Nat.le_succ n)

variable (cfg env h) in
/-- the loop draws until its rounds are over or no task is left -/
theorem replaceTasks_length (hkeyed : TasksKeyed cfg) (hzero : cfg.getMapTask 0 = none) (n : ℕ) :
    (replaceTasks cfg env h n).info.tasks.length = min n (openTasks cfg h).length := by
  induction n with
  | zero => simp [replaceTasks]
  | succ n ih =>
    have hr := replaceTasks_replaced cfg env h hkeyed n
    have hr' := replaceTasks_replaced cfg env h hkeyed (n + 1)
    rcases Nat.lt_or_ge (replaceTasks cfg env h n).info.tasks.length (openTasks cfg h).length with hlt | hge
    · rw [replaceTasks_succ, hr.takeTask_length hkeyed hzero hlt]
      omega
    · apply le_antisymm (replaceTasks_length_le cfg env h hkeyed (n + 1))
      have hgrow :
        (replaceTasks cfg env h n).info.tasks.length ≤ (replaceTasks cfg env h (n + 1)).info.tasks.length := by
        rw [replaceTasks_succ, takeTask]
        split_ifs
        · simp [withTask]
        · exact le_rfl
      omega

/-! ## Runs -/

inductive TaskOp where
  | refreshTask (env : Env) (giveUpTaskId : ℤ) (gold : Bool)
  | dayRefresh (env : Env)
  | replaceTask (env : Env) (taskCount : ℤ)
  | exitGame (msg : MsgC2SReqExitGame)

def taskStep (cfg : GameConfig) (h : DreamHero) : TaskOp → DreamHero
  | .refreshTask env giveUpTaskId gold => (refreshTask cfg env h giveUpTaskId gold).1
  | .dayRefresh env => dayRefresh cfg env h
  | .replaceTask env taskCount => reqReplaceTask cfg env h taskCount
  | .exitGame msg => (reqExitGame cfg h msg).1

/-- the rounds of the loop, or the tasks there are to draw, are no more than may be held -/
def Fits (cfg : GameConfig) (h : DreamHero) : TaskOp → Prop
  | .replaceTask _ taskCount =>
    (min (toSizeT (min taskCount cfg.globalConfig.heroMaxTasksCount)) (openTasks cfg h).length : ℕ) ≤
      cfg.globalConfig.heroMaxTasksCount
  | _ => True

/-- a count that is not negative fits -/
theorem fits_of_nonneg (hmax : 0 ≤ cfg.globalConfig.heroMaxTasksCount) (env : Env) {taskCount : ℤ}
    (hcount : 0 ≤ taskCount) :
    Fits cfg h (.replaceTask env taskCount) := by
  have hpos : 0 ≤ min taskCount cfg.globalConfig.heroMaxTasksCount := le_min hcount hmax
  have hle : min taskCount cfg.globalConfig.heroMaxTasksCount % 2 ^ 64 ≤
      min taskCount cfg.globalConfig.heroMaxTasksCount := by
    omega
  have hmin := min_le_right taskCount cfg.globalConfig.heroMaxTasksCount
  simp only [Fits, toSizeT]
  omega

theorem taskStep_fits (hkeyed : TasksKeyed cfg) (h : DreamHero) (o : TaskOp) (ht : TaskList cfg h) (ho : Fits cfg h o) :
    TaskList cfg (taskStep cfg h o) := by
  cases o with
  | refreshTask env giveUpTaskId gold => exact ht.refreshTask hkeyed giveUpTaskId gold
  | dayRefresh env => exact ht.dayRefresh hkeyed
  | exitGame msg => exact ht.reqExitGame msg
  | replaceTask env taskCount =>
    have hr := replaceTasks_replaced cfg env h hkeyed (toSizeT (min taskCount cfg.globalConfig.heroMaxTasksCount))
    have hlen := replaceTasks_length_le cfg env h hkeyed (toSizeT (min taskCount cfg.globalConfig.heroMaxTasksCount))
    refine ⟨(Int.ofNat_le.2 hlen).trans ho, hr.distinct, ?_⟩
    intro id hid
    exact (not_held_of_offered hkeyed (hr.within id hid)).2

theorem fits_of_taskStep (hkeyed : TasksKeyed cfg) (hzero : cfg.getMapTask 0 = none) (h : DreamHero) (o : TaskOp)
    (ht : TaskList cfg (taskStep cfg h o)) : Fits cfg h o := by
  cases o with
  | replaceTask env taskCount =>
    have hlen := replaceTasks_length cfg env h hkeyed hzero (toSizeT (min taskCount cfg.globalConfig.heroMaxTasksCount))
    rw [Fits, ← hlen]
    exact ht.size
  | _ => trivial

/-- **The task list.** From a hero whose task list is one, and for tasks filed under their ids: along a run in which
every replacement fits, it is one in every state. When no task has the id 0, which stands for no task, it is one in
every state of no other run. -/
theorem task_list_iff (cfg : GameConfig) (hkeyed : TasksKeyed cfg) (h : DreamHero) (h0 : TaskList cfg h)
    (ops : List TaskOp) :
    (Along (taskStep cfg) (Fits cfg) h ops → ∀ pre, pre <+: ops → TaskList cfg (run (taskStep cfg) h pre)) ∧
      (cfg.getMapTask 0 = none → (∀ pre, pre <+: ops → TaskList cfg (run (taskStep cfg) h pre)) →
        Along (taskStep cfg) (Fits cfg) h ops) := by
  constructor
  · rintro hops pre ⟨post, rfl⟩
    exact inv_run (fun h o ht ho => taskStep_fits hkeyed h o ht ho) h0 ((along_append _ _ _ _ _).1 hops).1
  · intro hzero hall
    refine (along_iff (I := TaskList cfg) ?_ h0).2 hall
    exact fun h o _ ht => ⟨taskStep_fits hkeyed h o ht, fits_of_taskStep hkeyed hzero h o⟩

/-- two tasks, of which one may be held -/
def twoTasks : GameConfig where
  globalConfig := { heroMaxTasksCount := 1 }
  tasks := (Std.TreeMap.empty.insert 1 { taskid := 1 }).insert 2 { taskid := 2 }

theorem twoTasks_keyed : TasksKeyed twoTasks := by
  intro id task hconfig
  simp only [twoTasks, GameConfig.getMapTask, get_insert] at hconfig
  split_ifs at hconfig with h2 h1
  · cases hconfig
    exact h2.symm
  · cases hconfig
    exact h1.symm
  · simp at hconfig

/-- a task is taken, given up for the other one, and completed -/
theorem task_list_refreshed :
    let ops : List TaskOp :=
      [.refreshTask {} 0 false, .refreshTask {} 1 false,
        .exitGame { chapterId := 1, sectionId := 1, completeTasks := [2] }]
    let h : DreamHero := {}
    (Along (taskStep twoTasks) (Fits twoTasks) h ops →
        ∀ pre, pre <+: ops → TaskList twoTasks (run (taskStep twoTasks) h pre)) ∧
      (twoTasks.getMapTask 0 = none → (∀ pre, pre <+: ops → TaskList twoTasks (run (taskStep twoTasks) h pre)) →
        Along (taskStep twoTasks) (Fits twoTasks) h ops) := by
  intro ops h
  exact task_list_iff twoTasks twoTasks_keyed h ⟨by decide, by decide, by decide⟩ ops

/-- the count -1 gives both tasks to a hero that may hold one -/
theorem replaced_below_zero :
    ¬ TaskList twoTasks (run (taskStep twoTasks) {} [.replaceTask {} (-1)]) := by
  intro ht
  rw [run_cons, run_nil] at ht
  have hfits := fits_of_taskStep twoTasks_keyed (by decide) _ _ ht
  have hopen : (openTasks twoTasks {}).length = 2 := by decide
  have hcount : toSizeT (min (-1) twoTasks.globalConfig.heroMaxTasksCount) = 2 ^ 64 - 1 := by decide
  rw [Fits, hopen, hcount] at hfits
  exact absurd hfits (by decide)

end DreamHeroes.Hero.Requests

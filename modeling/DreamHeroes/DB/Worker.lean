/-
The database workers (`common/database.cpp`): tasks are queued by type, every type has threads of its own, and what a
thread has finished waits in one list until the main thread calls it back.

- `addThread`, `addRealTask`: a type gets its queue and its threads when its first task comes; only
  `_NORMAL_THREAD` gets more than one (`oneThread_step`).
- `attempt`: one turn of the loop of `db_thread::work` on a task, with every way it can end. An exception either ends
  the task with `_error_` or leaves it with the thread, which tries it again (`Exn.kept`).
- `work`: the turn of one thread of one type.
- `EveryTask`: a property of the tasks of a type, wherever they are; it is kept when the turns keep it
  (`everyTask_work`).

What a task asks of the server is its `job`, and `exec` says what the server does for it; both are parameters.
-/
import Mathlib.Tactic
import DreamHeroes.Lib.Machine

namespace DreamHeroes.DB

/-! ## Tasks -/

inductive Store where
  | storeQuery
  | useQuery
  | tranceQuery
  | batchQuery
  | other
deriving DecidableEq, Repr

inductive TaskState where
  | doing
  | done
  | error
deriving DecidableEq, Repr

/-- statement, callback and parameters are the `job` -/
structure DBTask (J R : Type*) where
  store : Store
  job : J
  result : Option R := none
  state : TaskState := .doing
deriving DecidableEq, Repr

/-- what a turn may throw; every other class of `mysqlpp` is an `exception` -/
inductive Exn where
  | badQuery (errnum : ℕ)
  | badConversion
  | exception
  | stdException
  | unknown
deriving DecidableEq, Repr

/-- the `catch` branches that leave the task with the thread: a lost connection (2013, 2006), and what is not from
`mysqlpp` -/
def Exn.kept : Exn → Bool
  | .badQuery n => n = 2013 ∨ n = 2006
  | .badConversion => false
  | .exception => false
  | .stdException => true
  | .unknown => true

/-- `_connect` after the exception -/
def Exn.connect : Exn → Bool
  | .badQuery _ => false
  | _ => true

/-- how a turn goes -/
inductive Attempt where
  /-- `_mysql->connected()` is false -/
  | disconnected
  | done
  /-- the query throws, before the server has executed it or after -/
  | raised (executed : Bool) (e : Exn)
  /-- the result is stored, and `FREESTOREPROCEDURE` throws -/
  | freed (e : Exn)
deriving DecidableEq, Repr

/-- what a turn leaves behind: the server, the task, whether it goes to the results, and the connection flag -/
structure Turn (J R D : Type*) where
  db : D
  task : DBTask J R
  ended : Bool
  connect : Bool

variable {J R D : Type*} (exec : J → D → D × R)

/-- the `switch` over the kind of the task, when nothing is thrown -/
def execute (d : D) (t : DBTask J R) : Turn J R D :=
  match t.store with
  | .storeQuery => ⟨(exec t.job d).1, { t with result := some (exec t.job d).2, state := .done }, true, true⟩
  | .useQuery => ⟨(exec t.job d).1, { t with result := some (exec t.job d).2, state := .done }, true, true⟩
  | .tranceQuery => ⟨(exec t.job d).1, { t with state := .done }, true, true⟩
  | .batchQuery => ⟨(exec t.job d).1, { t with state := .done }, true, true⟩
  | .other => ⟨d, { t with state := .error }, true, true⟩

/-- the `catch` branches -/
def caught (d : D) (t : DBTask J R) (e : Exn) : Turn J R D :=
  if e.kept then ⟨d, t, false, e.connect⟩ else ⟨d, { t with state := .error }, true, e.connect⟩

/-- one turn of the loop of `db_thread::work` on the task the thread holds -/
def attempt (d : D) (t : DBTask J R) : Attempt → Turn J R D
  | .disconnected => ⟨d, t, false, true⟩
  | .done => execute exec d t
  | .raised executed e => caught (if executed then (exec t.job d).1 else d) t e
  | .freed e => caught (exec t.job d).1 { t with result := some (exec t.job d).2 } e

@[simp] theorem attempt_job (d : D) (t : DBTask J R) (a : Attempt) : (attempt exec d t a).task.job = t.job := by
  cases a with
  | disconnected => rfl
  | done => simp only [attempt, execute]; split <;> rfl
  | raised executed e => simp only [attempt, caught]; split_ifs <;> rfl
  | freed e => simp only [attempt, caught]; split_ifs <;> rfl

@[simp] theorem attempt_store (d : D) (t : DBTask J R) (a : Attempt) : (attempt exec d t a).task.store = t.store := by
  cases a with
  | disconnected => rfl
  | done => simp only [attempt, execute]; split <;> rfl
  | raised executed e => simp only [attempt, caught]; split_ifs <;> rfl
  | freed e => simp only [attempt, caught]; split_ifs <;> rfl

/-- the server executes a task or does not -/
theorem attempt_db (d : D) (t : DBTask J R) (a : Attempt) :
    (attempt exec d t a).db = d ∨ (attempt exec d t a).db = (exec t.job d).1 := by
  cases a with
  | disconnected => exact Or.inl rfl
  | done =>
    simp only [attempt, execute]
    split
    · exact Or.inr rfl
    · exact Or.inr rfl
    · exact Or.inr rfl
    · exact Or.inr rfl
    · exact Or.inl rfl
  | raised executed e =>
    simp only [attempt, caught]
    cases executed with
    | true => right; simp only [if_true]; split_ifs <;> rfl
    | false => left; simp only [Bool.false_eq_true, if_false]; split_ifs <;> rfl
  | freed e =>
    simp only [attempt, caught]
    right; split_ifs <;> rfl

/-! ## Threads and queues -/

structure DBThread (J R : Type*) where
  connect : Bool := false
  task : Option (DBTask J R) := none
deriving DecidableEq, Repr

/-- `db_thread_task_manager`, with the threads that take their tasks from it -/
structure TaskManager (J R : Type*) where
  works : List (DBTask J R) := []
  threads : List (DBThread J R)
deriving DecidableEq, Repr

structure Database (J R : Type*) where
  tasks : ℕ → Option (TaskManager J R) := fun _ => none
  results : List (DBTask J R) := []

def normalThread : ℕ := 0

def addThread (s : Database J R) (ntype : ℕ) (count : ℕ := 1) : Database J R :=
  let threads := if ntype ≠ normalThread then [{}] else List.replicate count {}
  { s with tasks := Function.update s.tasks ntype (some { threads := threads }) }

/-- `db_thread_task_manager::addTask` -/
def TaskManager.addTask (m : TaskManager J R) (t : DBTask J R) : TaskManager J R := { m with works := m.works ++ [t] }

def Database.modify (s : Database J R) (ntype : ℕ) (f : TaskManager J R → TaskManager J R) : Database J R :=
  { s with tasks := Function.update s.tasks ntype ((s.tasks ntype).map f) }

def addRealTask (s : Database J R) (ntype : ℕ) (t : DBTask J R) : Database J R :=
  match s.tasks ntype with
  | some _ => s.modify ntype (·.addTask t)
  | none => (addThread s ntype).modify ntype (·.addTask t)

/-- `initDatabase` -/
def initDatabase (count : ℕ) : Database J R := addThread {} normalThread count

/-- `realConnect` has succeeded -/
def TaskManager.realConnect (m : TaskManager J R) (i : ℕ) : TaskManager J R :=
  { m with threads := m.threads.modify i fun th => { th with connect := true } }

/-- the task the thread works on: its own, or the first of the queue -/
def TaskManager.getTask (m : TaskManager J R) (th : DBThread J R) : Option (DBTask J R × List (DBTask J R)) :=
  match th.task with
  | some t => some (t, m.works)
  | none =>
    match m.works with
    | [] => none
    | t :: rest => some (t, rest)

/-- the thread after a turn -/
def TaskManager.after (m : TaskManager J R) (i : ℕ) (rest : List (DBTask J R)) (u : Turn J R D) : TaskManager J R :=
  { works := rest
    threads := m.threads.set i { connect := u.connect, task := if u.ended then none else some u.task } }

/-- the task a thread that is connected turns to -/
def Database.next (s : Database J R) (ntype i : ℕ) : Option (TaskManager J R × DBTask J R × List (DBTask J R)) :=
  match s.tasks ntype with
  | none => none
  | some m =>
    match m.threads[i]? with
    | none => none
    | some th => if th.connect then (m.getTask th).map fun q => (m, q) else none

/-- one turn of thread `i` of a type; `addDone` when the task has ended -/
def work (s : Database J R) (d : D) (ntype i : ℕ) (a : Attempt) : Database J R × D :=
  match s.next ntype i with
  | none => (s, d)
  | some (m, t, rest) =>
    let u := attempt exec d t a
    ({ tasks := Function.update s.tasks ntype (some (m.after i rest u))
       results := if u.ended then s.results ++ [u.task] else s.results }, u.db)

/-- what `Database::run` takes from the workers -/
def takeResults (s : Database J R) : Database J R := { s with results := [] }

theorem addRealTask_ne (s : Database J R) {n n' : ℕ} (t : DBTask J R) (h : n' ≠ n) :
    (addRealTask s n t).tasks n' = s.tasks n' := by
  unfold addRealTask
  split
  · simp [Database.modify, Function.update_of_ne h]
  · simp [Database.modify, addThread, Function.update_of_ne h]

/-- the queue of a type after a new task, with the one thread it gets when this is its first -/
theorem addRealTask_self (s : Database J R) {n : ℕ} (t : DBTask J R) (hn : n ≠ normalThread) :
    (addRealTask s n t).tasks n =
      some (match s.tasks n with
        | some m => m.addTask t
        | none => { works := [t], threads := [{}] }) := by
  unfold addRealTask
  split
  · rename_i m hm
    simp [Database.modify, hm]
  · rename_i hm
    simp [Database.modify, addThread, TaskManager.addTask, hn]

/-! ## A property of every task -/

/-- `P n` of every task of the type `n` that is in the queue or with a thread, `F` of the finished ones -/
structure EveryTask (P : ℕ → DBTask J R → Prop) (F : DBTask J R → Prop) (s : Database J R) : Prop where
  works : ∀ n m, s.tasks n = some m → ∀ t ∈ m.works, P n t
  held : ∀ n m, s.tasks n = some m → ∀ th ∈ m.threads, ∀ t, th.task = some t → P n t
  finished : ∀ t ∈ s.results, F t

variable {P : ℕ → DBTask J R → Prop} {F : DBTask J R → Prop}

theorem EveryTask.imp {P' : ℕ → DBTask J R → Prop} {F' : DBTask J R → Prop} {s : Database J R}
    (h : EveryTask P F s) (hP : ∀ n t, P n t → P' n t) (hF : ∀ t, F t → F' t) : EveryTask P' F' s :=
  ⟨fun n m hm t ht => hP n t (h.works n m hm t ht), fun n m hm th hth t ht => hP n t (h.held n m hm th hth t ht),
    fun t ht => hF t (h.finished t ht)⟩

theorem everyTask_addThread {s : Database J R} (h : EveryTask P F s) (n count : ℕ) :
    EveryTask P F (addThread s n count) := by
  refine ⟨?_, ?_, h.finished⟩
  · intro n' m hm t ht
    rcases eq_or_ne n' n with rfl | hn
    · simp only [addThread, Function.update_self, Option.some.injEq] at hm
      subst hm
      exact absurd ht List.not_mem_nil
    · simp only [addThread, Function.update_of_ne hn] at hm
      exact h.works n' m hm t ht
  · intro n' m hm th hth t ht
    rcases eq_or_ne n' n with rfl | hn
    · simp only [addThread, Function.update_self, Option.some.injEq] at hm
      subst hm
      have hidle : th = {} := by
        dsimp only at hth
        split_ifs at hth
        · exact List.mem_singleton.1 hth
        · exact List.eq_of_mem_replicate hth
      rw [hidle] at ht
      exact absurd ht (Option.some_ne_none t).symm
    · simp only [addThread, Function.update_of_ne hn] at hm
      exact h.held n' m hm th hth t ht

theorem everyTask_addTask {s : Database J R} (h : EveryTask P F s) {n : ℕ}
    {t : DBTask J R} (ht : P n t) : EveryTask P F (s.modify n (·.addTask t)) := by
  refine ⟨?_, ?_, h.finished⟩
  · intro n' m hm t' ht'
    rcases eq_or_ne n' n with rfl | hn
    · simp only [Database.modify, Function.update_self, Option.map_eq_some_iff] at hm
      obtain ⟨m0, hm0, rfl⟩ := hm
      rcases List.mem_append.1 ht' with ht' | ht'
      · exact h.works n' m0 hm0 t' ht'
      · rw [List.mem_singleton.1 ht']; exact ht
    · simp only [Database.modify, Function.update_of_ne hn] at hm
      exact h.works n' m hm t' ht'
  · intro n' m hm th hth t' ht'
    rcases eq_or_ne n' n with rfl | hn
    · simp only [Database.modify, Function.update_self, Option.map_eq_some_iff] at hm
      obtain ⟨m0, hm0, rfl⟩ := hm
      exact h.held n' m0 hm0 th hth t' ht'
    · simp only [Database.modify, Function.update_of_ne hn] at hm
      exact h.held n' m hm th hth t' ht'

theorem everyTask_addRealTask {s : Database J R} (h : EveryTask P F s) {n : ℕ}
    {t : DBTask J R} (ht : P n t) : EveryTask P F (addRealTask s n t) := by
  unfold addRealTask
  split
  · exact everyTask_addTask h ht
  · exact everyTask_addTask (everyTask_addThread h n 1) ht

theorem everyTask_realConnect {s : Database J R} (h : EveryTask P F s) (n i : ℕ) :
    EveryTask P F (s.modify n (·.realConnect i)) := by
  refine ⟨?_, ?_, h.finished⟩
  · intro n' m hm t' ht'
    rcases eq_or_ne n' n with rfl | hn
    · simp only [Database.modify, Function.update_self, Option.map_eq_some_iff] at hm
      obtain ⟨m0, hm0, rfl⟩ := hm
      exact h.works n' m0 hm0 t' ht'
    · simp only [Database.modify, Function.update_of_ne hn] at hm
      exact h.works n' m hm t' ht'
  · intro n' m hm th hth t' ht'
    rcases eq_or_ne n' n with rfl | hn
    · simp only [Database.modify, Function.update_self, Option.map_eq_some_iff] at hm
      obtain ⟨m0, hm0, rfl⟩ := hm
      obtain ⟨j, hj⟩ := List.mem_iff_getElem?.1 hth
      simp only [TaskManager.realConnect, List.getElem?_modify] at hj
      obtain ⟨th0, hth0, rfl⟩ := Option.map_eq_some_iff.1 hj
      refine h.held n' m0 hm0 th0 (List.mem_of_getElem? hth0) t' ?_
      split_ifs at ht' <;> exact ht'
    · simp only [Database.modify, Function.update_of_ne hn] at hm
      exact h.held n' m hm th hth t' ht'

/-- the task a thread turns to, and where it comes from -/
theorem Database.next_some {s : Database J R} {n i : ℕ} {m : TaskManager J R} {t : DBTask J R}
    {rest : List (DBTask J R)} (h : s.next n i = some (m, t, rest)) :
    s.tasks n = some m ∧ ∃ th, m.threads[i]? = some th ∧ th.connect = true ∧
      ((th.task = some t ∧ rest = m.works) ∨ (th.task = none ∧ m.works = t :: rest)) := by
  unfold Database.next at h
  split at h
  · exact absurd h (Option.some_ne_none _).symm
  · rename_i m' hm
    split at h
    · exact absurd h (Option.some_ne_none _).symm
    · rename_i th hth
      split_ifs at h with hc
      obtain ⟨q, hq, he⟩ := Option.map_eq_some_iff.1 h
      obtain ⟨rfl, rfl⟩ := Prod.mk.inj he
      refine ⟨hm, th, hth, hc, ?_⟩
      unfold TaskManager.getTask at hq
      split at hq
      · rename_i t' ht'
        obtain ⟨rfl, rfl⟩ := Prod.mk.inj (Option.some.inj hq)
        exact Or.inl ⟨ht', rfl⟩
      · rename_i ht'
        split at hq
        · exact absurd hq (Option.some_ne_none _).symm
        · rename_i t' rest' hw
          obtain ⟨rfl, rfl⟩ := Prod.mk.inj (Option.some.inj hq)
          exact Or.inr ⟨ht', hw⟩

theorem everyTask_next {s : Database J R} (h : EveryTask P F s) {n i : ℕ}
    {m : TaskManager J R} {t : DBTask J R} {rest : List (DBTask J R)} (hnext : s.next n i = some (m, t, rest)) :
    P n t := by
  obtain ⟨hm, th, hth, -, ⟨ht, -⟩ | ⟨-, hw⟩⟩ := Database.next_some hnext
  · exact h.held n m hm th (List.mem_of_getElem? hth) t ht
  · exact h.works n m hm t (hw ▸ List.mem_cons_self)

/-- **A property of every task.** What a turn keeps of the task it works on, it keeps of the tasks of all threads; what
it makes of a task it ends holds of all results. -/
theorem everyTask_work {s : Database J R} {d : D} {n i : ℕ} {a : Attempt}
    (h : EveryTask P F s)
    (hP : ∀ m t rest, s.next n i = some (m, t, rest) → P n t → (attempt exec d t a).ended = false →
      P n (attempt exec d t a).task)
    (hF : ∀ m t rest, s.next n i = some (m, t, rest) → P n t → (attempt exec d t a).ended = true →
      F (attempt exec d t a).task) :
    EveryTask P F (work exec s d n i a).1 := by
  unfold work
  split
  · exact h
  · rename_i m t rest hnext
    have ht : P n t := everyTask_next h hnext
    obtain ⟨hm, th, hth, -, hfrom⟩ := Database.next_some hnext
    refine ⟨?_, ?_, ?_⟩
    · intro n' m' hm' t' ht'
      rcases eq_or_ne n' n with rfl | hn
      · simp only [Function.update_self, Option.some.injEq] at hm'
        subst hm'
        apply h.works n' m hm t'
        rcases hfrom with ⟨-, rfl⟩ | ⟨-, hw⟩
        · exact ht'
        · rw [hw]; exact List.mem_cons_of_mem t ht'
      · simp only [Function.update_of_ne hn] at hm'
        exact h.works n' m' hm' t' ht'
    · intro n' m' hm' th' hth' t' ht'
      rcases eq_or_ne n' n with rfl | hn
      · simp only [Function.update_self, Option.some.injEq] at hm'
        subst hm'
        rcases List.mem_or_eq_of_mem_set hth' with hold | rfl
        · exact h.held n' m hm th' hold t' ht'
        · dsimp only at ht'
          split_ifs at ht' with he
          rw [← Option.some.inj ht']
          exact hP m t rest hnext ht (Bool.eq_false_iff.2 he)
      · simp only [Function.update_of_ne hn] at hm'
        exact h.held n' m' hm' th' hth' t' ht'
    · intro t' ht'
      dsimp only at ht'
      split_ifs at ht' with he
      · rcases List.mem_append.1 ht' with ht' | ht'
        · exact h.finished t' ht'
        · rw [List.mem_singleton.1 ht']; exact hF m t rest hnext ht he
      · exact h.finished t' ht'

theorem everyTask_takeResults {s : Database J R} (h : EveryTask P F s) :
    EveryTask P F (takeResults s) := ⟨h.works, h.held, fun _ ht => absurd ht List.not_mem_nil⟩

end DreamHeroes.DB

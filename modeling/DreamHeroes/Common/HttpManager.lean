/-
The HTTP tasks (`common/HttpManager.cpp`): added by the logic thread, executed by the HTTP thread, and handed back.

- `HttpManager`: the three queues, the local one of `logicUpdate`, and where the two threads are. The HTTP thread holds
  `_http_complete_mutex` while it drains `_execute_https`, and `logicUpdate` waits for it (`locked`).
- `update`, `logicUpdate`: the next step of each thread. What is done to a queue under a lock, without a call, is one
  step.
- `Inv`: where each task is, and which calls have been made for it. `inv_step` keeps it.
- `Executed`, `Taken`: nothing is left for the HTTP thread, and for `logicUpdate` to take. `completes`: after a pass of
  each thread without a task added, all tasks are through. `update_ends`, `logicUpdate_ends`: such a pass ends.
- `added_tasks`: what is added is what `addHttpTask` was called with.
- `http_pipeline`: all of it, for every interleaving.

`added`, `excuted`, `returned`, `logicExcuted`, `deleted` and `finished` are bookkeeping, in the order of the events; a
task is its place in `added`.
-/
import Mathlib.Tactic
import DreamHeroes.Lib.Machine

namespace DreamHeroes.Http

open DreamHeroes.Lib

/-! ## The code -/

/-- where the HTTP thread is -/
inductive HttpPhase where
  | idle
  /-- between the two locks -/
  | moved
  /-- at the test of the second loop -/
  | draining
  /-- in `excute` of the front of `_execute_https` -/
  | excuting
deriving DecidableEq, Repr

/-- where the logic thread is -/
inductive LogicPhase where
  | idle
  /-- at the test of the second loop -/
  | draining
  /-- in `logicExcute` of the front of `queue_temp` -/
  | excuting
  /-- before the `delete` -/
  | excuted
  /-- before the `pop` -/
  | deleted
deriving DecidableEq, Repr

structure HttpManager (Task : Type*) where
  https : List Task := []
  executeHttps : List Task := []
  completeTask : List Task := []
  queueTemp : List Task := []
  http : HttpPhase := .idle
  logic : LogicPhase := .idle
  stop : Bool := false
  added : List Task := []
  excuted : List Task := []
  returned : List Task := []
  logicExcuted : List Task := []
  deleted : List Task := []
  finished : List Task := []

variable {Task : Type*}

def addHttpTask (s : HttpManager Task) (task : Task) : HttpManager Task :=
  { s with https := s.https ++ [task], added := s.added ++ [task] }

/-- the next step of the HTTP thread; `HttpProcess` begins no pass after `setStop` -/
def update (s : HttpManager Task) : HttpManager Task :=
  match s.http with
  | .idle => if s.stop then s else { s with executeHttps := s.executeHttps ++ s.https, https := [], http := .moved }
  | .moved => { s with http := .draining }
  | .draining =>
    match s.executeHttps with
    | [] => { s with http := .idle }
    | task :: _ => { s with excuted := s.excuted ++ [task], http := .excuting }
  | .excuting =>
    match s.executeHttps with
    | [] => s
    | task :: rest =>
      { s with
        returned := s.returned ++ [task], completeTask := s.completeTask ++ [task], executeHttps := rest,
        http := .draining }

/-- the HTTP thread holds `_http_complete_mutex` -/
def HttpPhase.locked : HttpPhase → Bool
  | .draining | .excuting => true
  | .idle | .moved => false

/-- the next step of the logic thread -/
def logicUpdate (s : HttpManager Task) : HttpManager Task :=
  match s.logic with
  | .idle =>
    if s.http.locked then s
    else { s with queueTemp := s.queueTemp ++ s.completeTask, completeTask := [], logic := .draining }
  | .draining =>
    match s.queueTemp with
    | [] => { s with logic := .idle }
    | task :: _ => { s with logicExcuted := s.logicExcuted ++ [task], logic := .excuting }
  | .excuting => { s with logic := .excuted }
  | .excuted => { s with deleted := s.deleted ++ s.queueTemp.head?.toList, logic := .deleted }
  | .deleted =>
    { s with finished := s.finished ++ s.queueTemp.head?.toList, queueTemp := s.queueTemp.tail, logic := .draining }

inductive Op (Task : Type*) where
  /-- also from inside `logicExcute` -/
  | addHttpTask (task : Task)
  | update
  | logicUpdate
  | setStop (stop : Bool)

def step (s : HttpManager Task) : Op Task → HttpManager Task
  | .addHttpTask task => addHttpTask s task
  | .update => update s
  | .logicUpdate => logicUpdate s
  | .setStop stop => { s with stop := stop }

/-! ## The invariant -/

/-- the task in `excute` -/
def HttpManager.inExcute (s : HttpManager Task) : List Task :=
  match s.http with
  | .excuting => s.executeHttps.head?.toList
  | _ => []

/-- the task whose `logicExcute` has been called, and that is not popped -/
def HttpManager.inLogic (s : HttpManager Task) : List Task :=
  match s.logic with
  | .excuting | .excuted | .deleted => s.queueTemp.head?.toList
  | _ => []

/-- the task that is deleted and not popped -/
def HttpManager.inDelete (s : HttpManager Task) : List Task :=
  match s.logic with
  | .deleted => s.queueTemp.head?.toList
  | _ => []

structure Inv (s : HttpManager Task) : Prop where
  /-- each task is finished or in one queue -/
  order : s.finished ++ s.queueTemp ++ s.completeTask ++ s.executeHttps ++ s.https = s.added
  returned : s.finished ++ s.queueTemp ++ s.completeTask = s.returned
  excuted : s.returned ++ s.inExcute = s.excuted
  logicExcuted : s.finished ++ s.inLogic = s.logicExcuted
  deleted : s.finished ++ s.inDelete = s.deleted
  httpIdle : s.http = .idle → s.executeHttps = []
  httpExcuting : s.http = .excuting → s.executeHttps ≠ []
  logicIdle : s.logic = .idle → s.queueTemp = []
  logicBusy : s.logic ≠ .idle → s.logic ≠ .draining → s.queueTemp ≠ []

theorem inv_start : Inv ({} : HttpManager Task) := by
  refine ⟨rfl, rfl, rfl, rfl, rfl, fun _ => rfl, ?_, fun _ => rfl, ?_⟩
  · exact nofun
  · exact fun h => absurd rfl h

variable {s : HttpManager Task}

theorem inv_addHttpTask (h : Inv s) (task : Task) : Inv (addHttpTask s task) := by
  refine ⟨?_, h.returned, h.excuted, h.logicExcuted, h.deleted, h.httpIdle, h.httpExcuting, h.logicIdle, h.logicBusy⟩
  rw [addHttpTask, ← h.order]
  simp only [List.append_assoc]

theorem inv_update (h : Inv s) : Inv (update s) := by
  obtain ⟨https, executeHttps, completeTask, queueTemp, http, logic, stop, added, excuted, returned, logicExcuted,
    deleted, finished⟩ := s
  obtain ⟨horder, hreturned, hexcuted, hlogicExcuted, hdeleted, hidle, hexcuting, hlogicIdle, hlogicBusy⟩ := h
  dsimp only [HttpManager.inExcute] at horder hreturned hexcuted hlogicExcuted hdeleted hidle hexcuting
  cases http with
  | idle =>
    rw [update]
    dsimp only
    split_ifs
    · exact ⟨horder, hreturned, hexcuted, hlogicExcuted, hdeleted, hidle, hexcuting, hlogicIdle, hlogicBusy⟩
    · refine ⟨?_, hreturned, hexcuted, hlogicExcuted, hdeleted, ?_, ?_, hlogicIdle, hlogicBusy⟩
      · dsimp only
        rw [← horder]
        simp only [List.append_assoc, List.append_nil]
      · exact nofun
      · exact nofun
  | moved =>
    refine ⟨horder, hreturned, hexcuted, hlogicExcuted, hdeleted, ?_, ?_, hlogicIdle, hlogicBusy⟩
    · exact nofun
    · exact nofun
  | draining =>
    cases executeHttps with
    | nil => exact ⟨horder, hreturned, hexcuted, hlogicExcuted, hdeleted, fun _ => rfl, nofun, hlogicIdle, hlogicBusy⟩
    | cons task rest =>
      refine ⟨horder, hreturned, ?_, hlogicExcuted, hdeleted, ?_, fun _ => List.cons_ne_nil _ _, hlogicIdle, hlogicBusy⟩
      · rw [update]
        dsimp only [HttpManager.inExcute, List.head?_cons, Option.toList_some]
        rw [← hexcuted, List.append_nil]
      · exact nofun
  | excuting =>
    cases executeHttps with
    | nil => exact absurd rfl (hexcuting rfl)
    | cons task rest =>
      dsimp only [List.head?_cons, Option.toList_some] at hexcuted
      refine ⟨?_, ?_, ?_, hlogicExcuted, hdeleted, ?_, ?_, hlogicIdle, hlogicBusy⟩
      · rw [update, ← horder]
        simp only [List.append_assoc, List.cons_append, List.nil_append]
      · rw [update, ← hreturned]
        simp only [List.append_assoc]
      · rw [update]
        dsimp only [HttpManager.inExcute]
        rw [List.append_nil, hexcuted]
      · exact nofun
      · exact nofun

theorem inv_logicUpdate (h : Inv s) : Inv (logicUpdate s) := by
  obtain ⟨https, executeHttps, completeTask, queueTemp, http, logic, stop, added, excuted, returned, logicExcuted,
    deleted, finished⟩ := s
  obtain ⟨horder, hreturned, hexcuted, hlogicExcuted, hdeleted, hidle, hexcuting, hlogicIdle, hlogicBusy⟩ := h
  dsimp only [HttpManager.inLogic, HttpManager.inDelete] at horder hreturned hexcuted hlogicExcuted hdeleted
  cases logic with
  | idle =>
    rw [logicUpdate]
    dsimp only
    split_ifs
    · exact ⟨horder, hreturned, hexcuted, hlogicExcuted, hdeleted, hidle, hexcuting, hlogicIdle, hlogicBusy⟩
    · refine ⟨?_, ?_, hexcuted, hlogicExcuted, hdeleted, hidle, hexcuting, ?_, ?_⟩
      · rw [← horder]
        simp only [List.append_assoc, List.nil_append]
      · rw [← hreturned]
        simp only [List.append_assoc, List.append_nil]
      · exact nofun
      · exact fun _ h => absurd rfl h
  | draining =>
    cases queueTemp with
    | nil =>
      refine ⟨horder, hreturned, hexcuted, hlogicExcuted, hdeleted, hidle, hexcuting, fun _ => rfl, ?_⟩
      exact fun h => absurd rfl h
    | cons task rest =>
      refine ⟨horder, hreturned, hexcuted, ?_, hdeleted, hidle, hexcuting, ?_, fun _ _ => List.cons_ne_nil _ _⟩
      · rw [logicUpdate]
        dsimp only [HttpManager.inLogic, List.head?_cons, Option.toList_some]
        rw [← hlogicExcuted, List.append_nil]
      · exact nofun
  | excuting =>
    have hne : queueTemp ≠ [] := hlogicBusy nofun nofun
    refine ⟨horder, hreturned, hexcuted, hlogicExcuted, hdeleted, hidle, hexcuting, ?_, fun _ _ => hne⟩
    exact nofun
  | excuted =>
    have hne : queueTemp ≠ [] := hlogicBusy nofun nofun
    refine ⟨horder, hreturned, hexcuted, hlogicExcuted, ?_, hidle, hexcuting, ?_, fun _ _ => hne⟩
    · rw [logicUpdate]
      dsimp only [HttpManager.inDelete]
      rw [← hdeleted, List.append_nil]
    · exact nofun
  | deleted =>
    have hne : queueTemp ≠ [] := hlogicBusy nofun nofun
    obtain ⟨task, rest, rfl⟩ := List.exists_cons_of_ne_nil hne
    dsimp only [List.head?_cons, Option.toList_some] at hlogicExcuted hdeleted
    refine ⟨?_, ?_, hexcuted, ?_, ?_, hidle, hexcuting, ?_, ?_⟩
    · rw [logicUpdate, ← horder]
      simp only [List.head?_cons, Option.toList_some, List.tail_cons, List.append_assoc, List.cons_append,
        List.nil_append]
    · rw [logicUpdate, ← hreturned]
      simp only [List.head?_cons, Option.toList_some, List.tail_cons, List.append_assoc, List.cons_append,
        List.nil_append]
    · exact (List.append_nil _).trans hlogicExcuted
    · exact (List.append_nil _).trans hdeleted
    · exact nofun
    · exact fun _ h => absurd rfl h

theorem inv_step (s : HttpManager Task) (op : Op Task) (h : Inv s) : Inv (step s op) := by
  cases op with
  | addHttpTask task => exact inv_addHttpTask h task
  | update => exact inv_update h
  | logicUpdate => exact inv_logicUpdate h
  | setStop stop =>
    exact ⟨h.order, h.returned, h.excuted, h.logicExcuted, h.deleted, h.httpIdle, h.httpExcuting,
      h.logicIdle, h.logicBusy⟩

/-! ## The order of the calls -/

/-- `excute` is called once for each task, in the order in which they were added -/
theorem excuted_prefix (h : Inv s) : s.excuted <+: s.added := by
  have hfront : s.inExcute <+: s.executeHttps ++ s.https := by
    rw [HttpManager.inExcute]
    cases hphase : s.http with
    | excuting =>
      obtain ⟨task, rest, hlist⟩ := List.exists_cons_of_ne_nil (h.httpExcuting hphase)
      rw [hlist]
      exact ⟨rest ++ s.https, rfl⟩
    | _ => exact List.nil_prefix
  rw [← h.excuted, ← h.returned, ← h.order, List.append_assoc (s.finished ++ s.queueTemp ++ s.completeTask)]
  exact (List.prefix_append_right_inj _).2 hfront

theorem inLogic_front (s : HttpManager Task) : s.inLogic <+: s.queueTemp := by
  have hhead : s.queueTemp.head?.toList <+: s.queueTemp := by
    cases s.queueTemp with
    | nil => exact List.nil_prefix
    | cons task rest => exact ⟨rest, rfl⟩
  rw [HttpManager.inLogic]
  cases s.logic <;> first | exact hhead | exact List.nil_prefix

/-- `logicExcute` is called once for each task, in the same order, and after its `excute` has returned -/
theorem logicExcuted_prefix (h : Inv s) : s.logicExcuted <+: s.returned := by
  rw [← h.logicExcuted, ← h.returned, List.append_assoc]
  exact (List.prefix_append_right_inj _).2 ((inLogic_front s).trans (List.prefix_append _ _))

/-- the deletions follow, and at most one is due -/
theorem logicExcuted_deleted (h : Inv s) :
    s.logicExcuted = s.deleted ∨ ∃ task, s.logicExcuted = s.deleted ++ [task] ∧
    (s.logic = .excuting ∨ s.logic = .excuted) := by
  rw [← h.logicExcuted, ← h.deleted, HttpManager.inLogic, HttpManager.inDelete]
  cases hphase : s.logic with
  | excuting =>
    have hne : s.queueTemp ≠ [] := h.logicBusy (by rw [hphase]; decide) (by rw [hphase]; decide)
    obtain ⟨task, rest, hlist⟩ := List.exists_cons_of_ne_nil hne
    exact .inr ⟨task, by simp [hlist], .inl rfl⟩
  | excuted =>
    have hne : s.queueTemp ≠ [] := h.logicBusy (by rw [hphase]; decide) (by rw [hphase]; decide)
    obtain ⟨task, rest, hlist⟩ := List.exists_cons_of_ne_nil hne
    exact .inr ⟨task, by simp [hlist], .inr rfl⟩
  | _ => exact .inl rfl

/-! ## A pass of each thread -/

/-- no task is added -/
def Op.Quiet : Op Task → Prop
  | .addHttpTask _ => False
  | _ => True

theorem https_step {op : Op Task} (hs : s.https = []) (hquiet : op.Quiet) : (step s op).https = [] := by
  cases op with
  | addHttpTask task => exact hquiet.elim
  | setStop stop => exact hs
  | logicUpdate =>
    rw [step, logicUpdate]
    cases s.logic with
    | idle =>
      dsimp only
      split_ifs <;> exact hs
    | draining =>
      dsimp only
      split <;> exact hs
    | _ => exact hs
  | update =>
    rw [step, update]
    cases s.http with
    | idle =>
      dsimp only
      split_ifs
      · exact hs
      · rfl
    | moved => exact hs
    | draining =>
      dsimp only
      split <;> exact hs
    | excuting =>
      dsimp only
      split <;> exact hs

/-- nothing is left for the HTTP thread -/
structure Executed (s : HttpManager Task) : Prop where
  https : s.https = []
  executeHttps : s.executeHttps = []

theorem executed_step {op : Op Task} (hs : Executed s) (hquiet : op.Quiet) : Executed (step s op) := by
  refine ⟨https_step hs.https hquiet, ?_⟩
  have hempty := hs.executeHttps
  cases op with
  | addHttpTask task => exact hempty
  | setStop stop => exact hempty
  | logicUpdate =>
    rw [step, logicUpdate]
    cases s.logic with
    | idle =>
      dsimp only
      split_ifs <;> exact hempty
    | draining =>
      dsimp only
      split <;> exact hempty
    | _ => exact hempty
  | update =>
    rw [step, update]
    cases s.http with
    | idle =>
      dsimp only
      split_ifs
      · exact hempty
      · dsimp only
        rw [hs.https, hempty, List.append_nil]
    | moved => exact hempty
    | draining =>
      dsimp only
      rw [hempty]
    | excuting =>
      dsimp only
      rw [hempty]
      exact hempty

/-- nothing is left for `logicUpdate` to take -/
structure Taken (s : HttpManager Task) : Prop where
  executed : Executed s
  completeTask : s.completeTask = []

theorem taken_step {op : Op Task} (hs : Taken s) (hquiet : op.Quiet) : Taken (step s op) := by
  refine ⟨executed_step hs.executed hquiet, ?_⟩
  have hempty := hs.completeTask
  cases op with
  | addHttpTask task => exact hempty
  | setStop stop => exact hempty
  | logicUpdate =>
    rw [step, logicUpdate]
    cases s.logic with
    | idle =>
      dsimp only
      split_ifs
      · exact hempty
      · rfl
    | draining =>
      dsimp only
      split <;> exact hempty
    | _ => exact hempty
  | update =>
    rw [step, update]
    cases s.http with
    | idle =>
      dsimp only
      split_ifs <;> exact hempty
    | moved => exact hempty
    | draining =>
      dsimp only
      split <;> exact hempty
    | excuting =>
      dsimp only
      rw [hs.executed.executeHttps]
      exact hempty

/-- what the quiet steps keep, quiet steps keep -/
theorem run_quiet {P : HttpManager Task → Prop} (hstep : ∀ s op, P s → op.Quiet → P (step s op)) (h0 : P s)
    {ops : List (Op Task)} (hquiet : ∀ op ∈ ops, op.Quiet) : P (run step s ops) :=
  have hops : Along step (fun _ op => op.Quiet) s ops := Along.of_forall s ops fun _ op hop => hquiet op hop
  inv_run hstep h0 hops

/-- a pass of the HTTP thread leaves it nothing -/
theorem executed_of_update (h : Inv s) (hidle : s.http = .idle) (hgo : s.stop = false) {ops : List (Op Task)}
    (hquiet : ∀ op ∈ ops, op.Quiet) (hback : (run step s (.update :: ops)).http = .idle) :
    Executed (run step s (.update :: ops)) := by
  have hbegin : (step s .update).https = [] := by
    rw [step, update, hidle]
    dsimp only
    rw [hgo]
    rfl
  have hempty : (run step s (.update :: ops)).https = [] :=
    run_quiet (P := fun t => t.https = []) (fun _ _ => https_step) hbegin hquiet
  exact ⟨hempty, (inv_run_all inv_step _ h).httpIdle hback⟩

/-- a pass of the logic thread after it finishes every task -/
theorem finished_of_logicUpdate (h : Inv s) (hs : Executed s) (hidle : s.logic = .idle) (hfree : s.http.locked = false)
    {ops : List (Op Task)} (hquiet : ∀ op ∈ ops, op.Quiet) (hback : (run step s (.logicUpdate :: ops)).logic = .idle) :
    (run step s (.logicUpdate :: ops)).finished = (run step s (.logicUpdate :: ops)).added := by
  have hbegin : Taken (step s .logicUpdate) := by
    refine ⟨executed_step hs trivial, ?_⟩
    rw [step, logicUpdate, hidle]
    dsimp only
    rw [hfree]
    rfl
  have htaken : Taken (run step s (.logicUpdate :: ops)) := run_quiet (fun _ _ => taken_step) hbegin hquiet
  have hinv : Inv (run step s (.logicUpdate :: ops)) := inv_run_all inv_step _ h
  have horder := hinv.order
  rw [hinv.logicIdle hback, htaken.completeTask, htaken.executed.executeHttps, htaken.executed.https] at horder
  simpa using horder

theorem added_step {o : Op Task} (hquiet : o.Quiet) : (step s o).added = s.added := by
  cases o with
  | addHttpTask task => exact hquiet.elim
  | setStop stop => rfl
  | update =>
    rw [step, update]
    cases s.http with
    | idle =>
      dsimp only
      split_ifs <;> rfl
    | moved => rfl
    | _ =>
      dsimp only
      split <;> rfl
  | logicUpdate =>
    rw [step, logicUpdate]
    cases s.logic with
    | idle =>
      dsimp only
      split_ifs <;> rfl
    | draining =>
      dsimp only
      split <;> rfl
    | _ => rfl

/-! ## A pass comes to its end -/

theorem update_drains (hs : s.http = .draining) :
    ∃ n, (run step s (List.replicate n .update)).http = .idle := by
  induction hlist : s.executeHttps generalizing s with
  | nil =>
    refine ⟨1, ?_⟩
    rw [List.replicate_one, run_cons, run_nil, step, update, hs]
    dsimp only
    rw [hlist]
  | cons task rest ih =>
    have hcall : update s = { s with excuted := s.excuted ++ [task], http := .excuting } := by
      rw [update, hs]
      dsimp only
      rw [hlist]
    have hreturn : update (update s) =
        { s with
          excuted := s.excuted ++ [task], returned := s.returned ++ [task], completeTask := s.completeTask ++ [task],
          executeHttps := rest, http := .draining } := by
      rw [hcall, update]
      dsimp only
      rw [hlist]
    have hnext : (update (update s)).http = .draining ∧ (update (update s)).executeHttps = rest := by
      rw [hreturn]
      exact ⟨rfl, rfl⟩
    obtain ⟨n, hn⟩ := ih hnext.1 hnext.2
    exact ⟨n + 2, hn⟩

/-- a pass of the HTTP thread that nobody disturbs ends, when `excute` returns -/
theorem update_ends (h : Inv s) : ∃ n, (run step s (List.replicate n .update)).http = .idle := by
  cases hphase : s.http with
  | idle => exact ⟨0, hphase⟩
  | draining => exact update_drains hphase
  | moved =>
    have hnext : (update s).http = .draining := by rw [update, hphase]
    obtain ⟨n, hn⟩ := update_drains hnext
    exact ⟨n + 1, hn⟩
  | excuting =>
    have hnext : (update s).http = .draining := by
      obtain ⟨task, rest, hlist⟩ := List.exists_cons_of_ne_nil (h.httpExcuting hphase)
      rw [update, hphase]
      dsimp only
      rw [hlist]
    obtain ⟨n, hn⟩ := update_drains hnext
    exact ⟨n + 1, hn⟩

theorem logicUpdate_drains (hs : s.logic = .draining) :
    ∃ n, (run step s (List.replicate n .logicUpdate)).logic = .idle := by
  induction hlist : s.queueTemp generalizing s with
  | nil =>
    refine ⟨1, ?_⟩
    rw [List.replicate_one, run_cons, run_nil, step, logicUpdate, hs]
    dsimp only
    rw [hlist]
  | cons task rest ih =>
    have hcall : logicUpdate s = { s with logicExcuted := s.logicExcuted ++ [task], logic := .excuting } := by
      rw [logicUpdate, hs]
      dsimp only
      rw [hlist]
    have hnext : (logicUpdate (logicUpdate (logicUpdate (logicUpdate s)))).logic = .draining ∧
        (logicUpdate (logicUpdate (logicUpdate (logicUpdate s)))).queueTemp = rest := by
      rw [hcall]
      exact ⟨rfl, congrArg List.tail hlist⟩
    obtain ⟨n, hn⟩ := ih hnext.1 hnext.2
    exact ⟨n + 4, hn⟩

/-- a pass of the logic thread that nobody disturbs ends, when the lock is free and `logicExcute` returns -/
theorem logicUpdate_ends (hfree : s.http.locked = false) :
    ∃ n, (run step s (List.replicate (n + 1) .logicUpdate)).logic = .idle := by
  cases hphase : s.logic with
  | idle =>
    have hnext : (logicUpdate s).logic = .draining := by
      rw [logicUpdate, hphase]
      dsimp only
      rw [hfree]
      rfl
    obtain ⟨n, hn⟩ := logicUpdate_drains hnext
    exact ⟨n, hn⟩
  | draining =>
    obtain ⟨n, hn⟩ := logicUpdate_drains hphase
    cases n with
    | zero =>
      rw [List.replicate_zero, run_nil, hphase] at hn
      cases hn
    | succ n => exact ⟨n, hn⟩
  | excuting =>
    have hnext : (logicUpdate (logicUpdate (logicUpdate s))).logic = .draining := by
      have hreturn : logicUpdate s = { s with logic := .excuted } := by rw [logicUpdate, hphase]
      rw [hreturn]
      rfl
    obtain ⟨n, hn⟩ := logicUpdate_drains hnext
    exact ⟨n + 2, hn⟩
  | excuted =>
    have hnext : (logicUpdate (logicUpdate s)).logic = .draining := by
      have hdelete : logicUpdate s =
          { s with deleted := s.deleted ++ s.queueTemp.head?.toList, logic := .deleted } := by rw [logicUpdate, hphase]
      rw [hdelete]
      rfl
    obtain ⟨n, hn⟩ := logicUpdate_drains hnext
    exact ⟨n + 1, hn⟩
  | deleted =>
    have hnext : (logicUpdate s).logic = .draining := by rw [logicUpdate, hphase]
    obtain ⟨n, hn⟩ := logicUpdate_drains hnext
    exact ⟨n, hn⟩

/-! ## Every interleaving -/

structure Pipeline (s : HttpManager Task) : Prop where
  /-- each task is finished or in one queue -/
  place : s.finished ++ s.queueTemp ++ s.completeTask ++ s.executeHttps ++ s.https = s.added
  excuted : s.excuted <+: s.added
  logicExcuted : s.logicExcuted <+: s.returned
  returned : s.returned <+: s.excuted
  /-- each `logicExcute` is followed by one `delete`, before the next -/
  deleted : s.logicExcuted = s.deleted ∨ ∃ task, s.logicExcuted = s.deleted ++ [task]
  finished : s.finished <+: s.deleted
  /-- a pass of the HTTP thread, and one of the logic thread after it, without a task added -/
  completes : s.http = .idle → s.stop = false → ∀ ops1 ops2 ops3 : List (Op Task),
    (∀ op ∈ ops1 ++ ops2 ++ ops3, op.Quiet) →
      (run step s (.update :: ops1)).http = .idle →
        (run step s (.update :: ops1 ++ ops2)).logic = .idle →
          (run step s (.update :: ops1 ++ ops2)).http.locked = false →
            (run step s (.update :: ops1 ++ ops2 ++ .logicUpdate :: ops3)).logic = .idle →
              (run step s (.update :: ops1 ++ ops2 ++ .logicUpdate :: ops3)).finished = s.added
  httpEnds : ∃ n, (run step s (List.replicate n .update)).http = .idle
  logicEnds : s.http.locked = false → ∃ n, (run step s (List.replicate (n + 1) .logicUpdate)).logic = .idle

theorem completes (h : Inv s) (hidle : s.http = .idle) (hgo : s.stop = false) (ops1 ops2 ops3 : List (Op Task))
    (hquiet : ∀ op ∈ ops1 ++ ops2 ++ ops3, op.Quiet) (hback : (run step s (.update :: ops1)).http = .idle)
    (hlogic : (run step s (.update :: ops1 ++ ops2)).logic = .idle)
    (hfree : (run step s (.update :: ops1 ++ ops2)).http.locked = false)
    (hend : (run step s (.update :: ops1 ++ ops2 ++ .logicUpdate :: ops3)).logic = .idle) :
    (run step s (.update :: ops1 ++ ops2 ++ .logicUpdate :: ops3)).finished = s.added := by
  have hq1 : ∀ op ∈ ops1, op.Quiet := fun op hop => hquiet op (by simp [hop])
  have hq2 : ∀ op ∈ ops2, op.Quiet := fun op hop => hquiet op (by simp [hop])
  have hq3 : ∀ op ∈ ops3, op.Quiet := fun op hop => hquiet op (by simp [hop])
  have hexecuted := executed_of_update h hidle hgo hq1 hback
  have hexecuted2 : Executed (run step s (.update :: ops1 ++ ops2)) := by
    rw [run_append]
    exact run_quiet (fun _ _ => executed_step) hexecuted hq2
  have hinv2 : Inv (run step s (.update :: ops1 ++ ops2)) := inv_run_all inv_step _ h
  rw [run_append] at hend ⊢
  rw [finished_of_logicUpdate hinv2 hexecuted2 hlogic hfree hq3 hend]
  -- nothing was added on the way
  have hadded (ops : List (Op Task)) {t : HttpManager Task} (hops : ∀ op ∈ ops, op.Quiet) (ht : t.added = s.added) :
      (run step t ops).added = s.added :=
    run_quiet (P := fun t => t.added = s.added) (fun _ _ hold hop => (added_step hop).trans hold) ht hops
  refine hadded (.logicUpdate :: ops3) ?_ (hadded (.update :: ops1 ++ ops2) ?_ rfl)
  · intro op hop
    rcases List.mem_cons.1 hop with rfl | hop
    · trivial
    · exact hq3 op hop
  · intro op hop
    rw [List.cons_append, List.mem_cons, List.mem_append] at hop
    rcases hop with rfl | hop | hop
    · trivial
    · exact hq1 op hop
    · exact hq2 op hop

theorem pipeline_of_inv (h : Inv s) : Pipeline s := by
  refine ⟨h.order, excuted_prefix h, logicExcuted_prefix h, ?_, ?_, ?_, completes h, update_ends h, logicUpdate_ends⟩
  · rw [← h.excuted]
    exact List.prefix_append _ _
  · rcases logicExcuted_deleted h with hsame | ⟨task, hone, _⟩
    · exact .inl hsame
    · exact .inr ⟨task, hone⟩
  · rw [← h.deleted]
    exact List.prefix_append _ _

/-- the task of an operation -/
def Op.tasks : Op Task → List Task
  | .addHttpTask task => [task]
  | _ => []

/-- what is added is what `addHttpTask` was called with -/
theorem added_tasks (s : HttpManager Task) (op : Op Task) (_ : Inv s) : (step s op).added = s.added ++ op.tasks := by
  cases op with
  | addHttpTask task => rfl
  | update => exact (added_step (o := .update) trivial).trans (List.append_nil _).symm
  | logicUpdate => exact (added_step (o := .logicUpdate) trivial).trans (List.append_nil _).symm
  | setStop stop => exact (List.append_nil _).symm

/-- **The HTTP pipeline.** In every state that any interleaving of the two threads reaches, each task that `addHttpTask`
was called with is finished or in one queue; `excute`, then `logicExcute`, then `delete` are called once for each, in
the order in which the tasks were added; and a pass of `update` and one of `logicUpdate` after it finish every task. -/
theorem http_pipeline {Task : Type*} (ops : List (Op Task)) :
    (run step ({} : HttpManager Task) ops).added = ops.flatMap Op.tasks ∧
      Pipeline (run step ({} : HttpManager Task) ops) :=
  ⟨log_run inv_step added_tasks ops inv_start, pipeline_of_inv (inv_run_all inv_step ops inv_start)⟩

/-- two tasks, a pass of the HTTP thread, and one of the logic thread -/
theorem http_pipeline_two : (run step ({} : HttpManager ℕ) ([.addHttpTask 1, .addHttpTask 2] ++
    (.update :: List.replicate 6 .update ++ [] ++ .logicUpdate :: List.replicate 9 .logicUpdate))).finished
      = [1, 2] := by
  obtain ⟨hadded, hpipeline⟩ := http_pipeline ([.addHttpTask 1, .addHttpTask 2] : List (Op ℕ))
  rw [run_append]
  have hquiet : ∀ op ∈ (List.replicate 6 .update ++ [] ++ List.replicate 9 .logicUpdate : List (Op ℕ)), op.Quiet := by
    intro op hop
    rw [List.append_nil] at hop
    rcases List.mem_append.1 hop with hop | hop <;> rw [List.eq_of_mem_replicate hop] <;> trivial
  exact (hpipeline.completes rfl rfl _ _ _ hquiet rfl rfl rfl rfl).trans hadded

end DreamHeroes.Http

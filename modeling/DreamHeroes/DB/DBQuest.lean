/-
The database server (`databaseserver/db_quest.cpp`): saves and hero queries become tasks of the worker threads, and the
callbacks of the finished tasks answer the game server.

- `saveSqlData` and `queryHeroInfo` add tasks of two types, so each has its own queue and its own thread.
- `dbDoQueryHeroInfo`, `dbDoQueryHeroDeals`: the callbacks. Neither looks at the flag that says whether the query has
  succeeded.
- `run`: `Database::run` of the main thread.

The MySQL server is a parameter: what a save does to its data, the row of `character` of an account (`account_id` is
the key), and the rows of `deal_wait_to_pay` of an account that are not complete. Bookkeeping of the model: the saves
have numbers in the order they are added, `executed` are the numbers of the saves the server has executed, a query
remembers the saves that came before it, a result the server it was read from, and `answers` are the calls of
`dbDoQueryHeroInfo`.
-/
import Mathlib.Tactic
import DreamHeroes.DB.Worker

namespace DreamHeroes.DB

open DreamHeroes.Lib

/-- what the database server relies on -/
structure MySQL (Q D C E : Type*) where
  exec : Q → D → D
  character : D → ℕ → Option C
  deals : D → ℕ → List E

/-- the data of the server, and the saves it has executed -/
structure Server (D : Type*) where
  data : D
  executed : List ℕ := []
deriving DecidableEq, Repr

/-- `tgHeroData`; `enqueued` and `asked` are the saves that had been added and executed when the query was added -/
structure HeroData (C E : Type*) where
  account : ℕ
  tranid : ℕ
  gsid : ℕ
  info : Option C := none
  deals : List E := []
  enqueued : ℕ
  asked : List ℕ
deriving DecidableEq, Repr

inductive Job (Q C E : Type*) where
  | heroInfo (p : HeroData C E)
  | heroDeals (p : HeroData C E)
  | save (sql : Q) (n : ℕ)
deriving DecidableEq, Repr

inductive Rows (C E : Type*) where
  | characters (l : List C)
  | deals (l : List E)
  | none
deriving DecidableEq, Repr

structure SDBResult (D C E : Type*) where
  rows : Rows C E
  seen : Server D
deriving DecidableEq, Repr

variable {Q D C E : Type*} (my : MySQL Q D C E)

/-- what the server does for a task -/
def exec : Job Q C E → Server D → Server D × SDBResult D C E
  | .heroInfo p, d => (d, ⟨.characters (my.character d.data p.account).toList, d⟩)
  | .heroDeals p, d => (d, ⟨.deals (my.deals d.data p.account), d⟩)
  | .save sql n, d =>
    let d' : Server D := ⟨my.exec sql d.data, d.executed ++ [n]⟩
    (d', ⟨.none, d'⟩)

/-- a call of `dbDoQueryHeroInfo` -/
structure Answer (D C E : Type*) where
  param : HeroData C E
  result : Option (SDBResult D C E)
  success : Bool
deriving DecidableEq, Repr

/-- what is sent to the game servers; `MsgNeedCreateHeroDB2GS` carries nothing but the transaction id -/
inductive Msg (D C E : Type*) where
  | heroData (p : HeroData C E)
  | needCreateHero (tranid gsid : ℕ) (answer : Answer D C E)
deriving DecidableEq, Repr

structure St (Q D C E : Type*) where
  db : Database (Job Q C E) (SDBResult D C E)
  mysql : Server D
  /-- the object state is `_run_obj_` -/
  running : Bool := true
  sent : List (Msg D C E) := []
  saved : List Q := []
  answers : List (Answer D C E) := []

/-! ## Tasks -/

def queryHeroInfoThread : ℕ := normalThread + 1
def saveHeroInfoThread : ℕ := normalThread + 3

/-- `addSQueryTask`: nothing is added any more once the server is about to stop -/
def addSQueryTask (s : St Q D C E) (job : Job Q C E) (ntype : ℕ) : St Q D C E :=
  if s.running then { s with db := addRealTask s.db ntype { store := .storeQuery, job := job } } else s

def queryHeroInfo (s : St Q D C E) (a t gs : ℕ) : St Q D C E :=
  let p : HeroData C E :=
    { account := a, tranid := t, gsid := gs, enqueued := s.saved.length, asked := s.mysql.executed }
  addSQueryTask s (.heroInfo p) queryHeroInfoThread

def saveSqlData (s : St Q D C E) (sql : Q) : St Q D C E :=
  let s := { s with saved := s.saved ++ [sql] }
  addSQueryTask s (.save sql (s.saved.length - 1)) saveHeroInfoThread

/-- the state becomes `_wait_stop_` -/
def onSaveToClose (s : St Q D C E) : St Q D C E := { s with running := false }

/-! ## Callbacks -/

/-- the row the callback finds: the first of a result that is not `NULL` -/
def firstRow (r : Option (SDBResult D C E)) : Option C :=
  match r with
  | some ⟨.characters (row :: _), _⟩ => some row
  | _ => none

def dbDoQueryHeroInfo (s : St Q D C E) (r : Option (SDBResult D C E)) (p : HeroData C E) (success : Bool) :
    St Q D C E :=
  let s := { s with answers := s.answers ++ [⟨p, r, success⟩] }
  match firstRow r with
  | some row => addSQueryTask s (.heroDeals { p with info := some row }) queryHeroInfoThread
  | none => { s with sent := s.sent ++ [.needCreateHero p.tranid p.gsid ⟨p, r, success⟩] }

def dbDoQueryHeroDeals (s : St Q D C E) (r : Option (SDBResult D C E)) (p : HeroData C E) (_success : Bool) :
    St Q D C E :=
  let deals := match r with
    | some ⟨.deals l, _⟩ => l
    | _ => []
  { s with sent := s.sent ++ [.heroData { p with deals := p.deals ++ deals }] }

/-- one finished task; the callback of a save is `dbCallNothing` -/
def callback (s : St Q D C E) (t : DBTask (Job Q C E) (SDBResult D C E)) : St Q D C E :=
  match t.job with
  | .heroInfo p => dbDoQueryHeroInfo s t.result p (t.state = .done)
  | .heroDeals p => dbDoQueryHeroDeals s t.result p (t.state = .done)
  | .save _ _ => s

/-- `Database::run` -/
def runCallbacks (s : St Q D C E) : St Q D C E :=
  s.db.results.foldl callback { s with db := takeResults s.db }

/-! ## Steps -/

inductive Op (Q : Type*) where
  | saveSqlData (sql : Q)
  | queryHeroInfo (a t gs : ℕ)
  | onSaveToClose
  | realConnect (ntype i : ℕ)
  | work (ntype i : ℕ) (a : Attempt)
  | run
deriving DecidableEq, Repr

def step (s : St Q D C E) : Op Q → St Q D C E
  | .saveSqlData sql => saveSqlData s sql
  | .queryHeroInfo a t gs => queryHeroInfo s a t gs
  | .onSaveToClose => onSaveToClose s
  | .realConnect n i => { s with db := s.db.modify n (·.realConnect i) }
  | .work n i a =>
    let w := work (exec my) s.db s.mysql n i a
    { s with db := w.1, mysql := w.2 }
  | .run => runCallbacks s

/-- a server just started on the data `d` -/
def start (count : ℕ) (d : D) : St Q D C E := { db := initDatabase count, mysql := { data := d } }

/-! ## What the callbacks leave alone -/

@[simp] theorem addSQueryTask_sent (s : St Q D C E) (job : Job Q C E) (n : ℕ) :
    (addSQueryTask s job n).sent = s.sent := by unfold addSQueryTask; split_ifs <;> rfl

@[simp] theorem addSQueryTask_mysql (s : St Q D C E) (job : Job Q C E) (n : ℕ) :
    (addSQueryTask s job n).mysql = s.mysql := by unfold addSQueryTask; split_ifs <;> rfl

@[simp] theorem addSQueryTask_saved (s : St Q D C E) (job : Job Q C E) (n : ℕ) :
    (addSQueryTask s job n).saved = s.saved := by unfold addSQueryTask; split_ifs <;> rfl

@[simp] theorem addSQueryTask_answers (s : St Q D C E) (job : Job Q C E) (n : ℕ) :
    (addSQueryTask s job n).answers = s.answers := by unfold addSQueryTask; split_ifs <;> rfl

/-- tasks of another type leave a queue alone -/
theorem addSQueryTask_ne (s : St Q D C E) (job : Job Q C E) {n n' : ℕ} (h : n' ≠ n) :
    (addSQueryTask s job n).db.tasks n' = s.db.tasks n' := by
  unfold addSQueryTask
  split_ifs
  · exact addRealTask_ne s.db _ h
  · rfl

@[simp] theorem callback_mysql (s : St Q D C E) (t : DBTask (Job Q C E) (SDBResult D C E)) :
    (callback s t).mysql = s.mysql := by
  unfold callback
  split
  · simp only [dbDoQueryHeroInfo]; split <;> simp
  · rfl
  · rfl

/-- what every callback keeps, a run of callbacks keeps -/
theorem runCallbacks_inv {I : St Q D C E → Prop} {s : St Q D C E} (h : I { s with db := takeResults s.db })
    (hcb : ∀ t ∈ s.db.results, ∀ u, I u → I (callback u t)) : I (runCallbacks s) := by
  have hfold : ∀ (l : List (DBTask (Job Q C E) (SDBResult D C E))) (u : St Q D C E),
      (∀ t ∈ l, ∀ u, I u → I (callback u t)) → I u → I (l.foldl callback u) := by
    intro l
    induction l with
    | nil => exact fun u _ hu => hu
    | cons t l ih =>
      exact fun u hl hu => ih (callback u t) (fun t' ht' => hl t' (List.mem_cons_of_mem t ht'))
        (hl t List.mem_cons_self u hu)
  exact hfold _ _ hcb h

@[simp] theorem runCallbacks_mysql (s : St Q D C E) : (runCallbacks s).mysql = s.mysql :=
  runCallbacks_inv (I := fun u => u.mysql = s.mysql) rfl fun t _ u hu => (callback_mysql u t).trans hu

/-! ## A property of every task -/

variable {my} {P : ℕ → DBTask (Job Q C E) (SDBResult D C E) → Prop}
  {F : DBTask (Job Q C E) (SDBResult D C E) → Prop}

theorem everyTask_addSQueryTask {s : St Q D C E} (h : EveryTask P F s.db) {job : Job Q C E} {n : ℕ}
    (hjob : P n { store := .storeQuery, job := job }) : EveryTask P F (addSQueryTask s job n).db := by
  unfold addSQueryTask
  split_ifs
  · exact everyTask_addRealTask h hjob
  · exact h

theorem everyTask_callback {s : St Q D C E} (h : EveryTask P F s.db)
    (hdeals : ∀ p, P queryHeroInfoThread { store := .storeQuery, job := .heroDeals p })
    (t : DBTask (Job Q C E) (SDBResult D C E)) : EveryTask P F (callback s t).db := by
  unfold callback
  split
  · unfold dbDoQueryHeroInfo
    dsimp only
    split
    · refine everyTask_addSQueryTask ?_ (hdeals _)
      exact h
    · exact h
  · exact h
  · exact h

/-- what new tasks have and turns keep, every task has -/
theorem everyTask_step {s : St Q D C E} (o : Op Q) (h : EveryTask P F s.db)
    (hinfo : ∀ p : HeroData C E, p.asked = s.mysql.executed →
      P queryHeroInfoThread { store := .storeQuery, job := .heroInfo p })
    (hdeals : ∀ p, P queryHeroInfoThread { store := .storeQuery, job := .heroDeals p })
    (hsave : ∀ sql, o = .saveSqlData sql →
      P saveHeroInfoThread { store := .storeQuery, job := .save sql s.saved.length })
    (hwork : ∀ n i a, o = .work n i a → ∀ m t rest, s.db.next n i = some (m, t, rest) → P n t →
      (attempt (exec my) s.mysql t a).ended = false → P n (attempt (exec my) s.mysql t a).task)
    (hend : ∀ n i a, o = .work n i a → ∀ m t rest, s.db.next n i = some (m, t, rest) → P n t →
      (attempt (exec my) s.mysql t a).ended = true → F (attempt (exec my) s.mysql t a).task) :
    EveryTask P F (step my s o).db := by
  cases o with
  | saveSqlData sql =>
    apply everyTask_addSQueryTask
    · exact h
    · simpa using hsave sql rfl
  | queryHeroInfo a t gs =>
    refine everyTask_addSQueryTask ?_ (hinfo _ rfl)
    exact h
  | onSaveToClose => exact h
  | realConnect n i => exact everyTask_realConnect h n i
  | work n i a => exact everyTask_work (exec my) h (hwork n i a rfl) (hend n i a rfl)
  | run =>
    exact runCallbacks_inv (I := fun u => EveryTask P F u.db) (everyTask_takeResults h)
      fun t _ u hu => everyTask_callback hu hdeals t

/-- a hero query that is called back without a row asks for a new hero -/
theorem needCreate_runCallbacks {s : St Q D C E} {t : DBTask (Job Q C E) (SDBResult D C E)} {p : HeroData C E}
    (ht : t ∈ s.db.results) (hjob : t.job = .heroInfo p) (hrow : firstRow t.result = none) :
    .needCreateHero p.tranid p.gsid ⟨p, t.result, t.state = .done⟩ ∈ (runCallbacks s).sent := by
  have hkeep : ∀ (u : St Q D C E) (t' : DBTask (Job Q C E) (SDBResult D C E)) (m : Msg D C E), m ∈ u.sent →
      m ∈ (callback u t').sent := by
    intro u t' m hm
    unfold callback
    split
    · simp only [dbDoQueryHeroInfo]
      split
      · simpa using hm
      · exact List.mem_append_left _ hm
    · exact List.mem_append_left _ hm
    · exact hm
  obtain ⟨l1, l2, hl⟩ := List.append_of_mem ht
  unfold runCallbacks
  rw [hl, List.foldl_append, List.foldl_cons]
  refine List.foldlRecOn l2 callback ?_ fun u hu t' _ => hkeep u t' _ hu
  simp [callback, hjob, dbDoQueryHeroInfo, hrow]

theorem everyTask_start (count : ℕ) (d : D) : EveryTask P F (start count d : St Q D C E).db :=
  everyTask_addThread ⟨fun _ _ hm => absurd hm (Option.some_ne_none _).symm,
    fun _ _ hm => absurd hm (Option.some_ne_none _).symm, fun _ ht => absurd ht List.not_mem_nil⟩ normalThread count

end DreamHeroes.DB

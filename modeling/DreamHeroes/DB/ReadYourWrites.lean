/-
Whether a hero query reads the saves that came before it.

The saves have one queue and one thread, so the server executes them in the order they were added, each one again as
long as its connection is lost (`saveInv_step`). The queries have a queue and a thread of their own, and nothing orders
the two: a query may run before a save that was added first (`query_overtakes_save`).

- `Reflects`: the row is what a save makes of some data, and later saves of that.
- `reads_executed`: a result reflects every save that the server had executed when the query was added, and every one it
  had executed when the select ran.
- `Reflects.row`: when the saves write whole rows, the row is the one of that save or of a later one.
-/
import Mathlib.Tactic
import DreamHeroes.DB.DBQuest

namespace DreamHeroes.DB

open DreamHeroes.Lib

variable {Q D C E : Type*} (my : MySQL Q D C E)

/-! ## What a row reflects -/

/-- the data after the saves with the numbers `js` -/
def replay (saved : List Q) (js : List ℕ) (d : D) : D :=
  js.foldl (fun d j => match saved[j]? with
    | some sql => my.exec sql d
    | none => d) d

/-- the row is what the save `n` makes of some data, and later saves, in their order, of that -/
def Reflects (saved : List Q) (a n : ℕ) (row : Option C) : Prop :=
  ∃ d js, (n :: js).Pairwise (· ≤ ·) ∧ (∀ j ∈ n :: js, j < saved.length) ∧
    row = my.character (replay my saved (n :: js) d) a

/-- the statement writes the row of the account, whatever was there -/
def Writes (sql : Q) (a : ℕ) (c : C) : Prop := ∀ d, my.character (my.exec sql d) a = some c

def Leaves (sql : Q) (a : ℕ) : Prop := ∀ d, my.character (my.exec sql d) a = my.character d a

/-- the rows of an answer -/
def Row (ans : Answer D C E) (row : Option C) : Prop := ∃ r, ans.result = some r ∧ r.rows = .characters row.toList

/-- a query reads every save added before it that writes its row -/
def ReadYourWrites (s : St Q D C E) : Prop :=
  ∀ ans ∈ s.answers, ∀ row, Row ans row → ∀ n < ans.param.enqueued, ∀ sql c, s.saved[n]? = some sql →
    Writes my sql ans.param.account c → Reflects my s.saved ans.param.account n row

/-- a query reads every save that the server had executed when the query was added, or when its select ran -/
def ReadsExecuted (s : St Q D C E) : Prop :=
  ∀ ans ∈ s.answers, ∀ r, ans.result = some r → ∃ row : Option C, r.rows = .characters row.toList ∧
    ∀ n, n ∈ ans.param.asked ∨ n ∈ r.seen.executed → Reflects my s.saved ans.param.account n row

theorem Reflects.row {saved : List Q} {a n : ℕ} {row : Option C} (h : Reflects my saved a n row)
    (hn : ∀ sql, saved[n]? = some sql → ∃ c, Writes my sql a c)
    (hlater : ∀ (j : ℕ) sql, n < j → saved[j]? = some sql → (∃ c, Writes my sql a c) ∨ Leaves my sql a) :
    ∃ j sql c, n ≤ j ∧ saved[j]? = some sql ∧ Writes my sql a c ∧ row = some c := by
  obtain ⟨d, js, hsorted, hlen, rfl⟩ := h
  induction js using List.reverseRecOn with
  | nil =>
    have hlt : n < saved.length := hlen n List.mem_cons_self
    obtain ⟨c, hc⟩ := hn _ (List.getElem?_eq_getElem hlt)
    refine ⟨n, saved[n], c, le_rfl, List.getElem?_eq_getElem hlt, hc, ?_⟩
    simp [replay, List.getElem?_eq_getElem hlt, hc _]
  | append_singleton js j ih =>
    have hsub : List.Sublist (n :: js) (n :: (js ++ [j])) := (List.sublist_append_left js [j]).cons_cons n
    have hlt : j < saved.length := hlen j (by simp)
    have hle : n ≤ j := List.rel_of_pairwise_cons hsorted (by simp)
    have hget : saved[j]? = some saved[j] := List.getElem?_eq_getElem hlt
    have hlast : replay my saved (n :: (js ++ [j])) d = my.exec saved[j] (replay my saved (n :: js) d) := by
      rw [← List.cons_append]
      simp [replay, List.foldl_append, hget]
    rw [hlast]
    have hkind : (∃ c, Writes my saved[j] a c) ∨ Leaves my saved[j] a := by
      rcases Nat.lt_or_eq_of_le hle with hlt' | rfl
      · exact hlater j _ hlt' hget
      · exact Or.inl (hn _ hget)
    rcases hkind with ⟨c, hc⟩ | hleave
    · exact ⟨j, saved[j], c, hle, hget, hc, hc _⟩
    · rw [hleave]
      exact ih (hsorted.sublist hsub) fun k hk => hlen k (hsub.subset hk)

theorem replay_append (saved : List Q) (a b : List ℕ) (d : D) :
    replay my saved (a ++ b) d = replay my saved b (replay my saved a d) := by simp [replay, List.foldl_append]

/-- saves added later do not change what the executed ones do -/
theorem replay_snoc {saved : List Q} {js : List ℕ} (h : ∀ j ∈ js, j < saved.length) (sql : Q) (d : D) :
    replay my (saved ++ [sql]) js d = replay my saved js d := by
  induction js generalizing d with
  | nil => rfl
  | cons j js ih =>
    have hj : (saved ++ [sql])[j]? = saved[j]? := List.getElem?_append_left (h j List.mem_cons_self)
    simp only [replay, List.foldl_cons, hj]
    exact ih (fun k hk => h k (List.mem_cons_of_mem j hk)) _

theorem Reflects.snoc {saved : List Q} {a n : ℕ} {row : Option C} (h : Reflects my saved a n row) (sql : Q) :
    Reflects my (saved ++ [sql]) a n row := by
  obtain ⟨d, js, hsorted, hlen, rfl⟩ := h
  refine ⟨d, js, hsorted, ?_, by rw [replay_snoc my hlen]⟩
  intro j hj
  have := hlen j hj
  simp only [List.length_append, List.length_singleton]
  omega

/-! ## The invariant -/

/-- the server has executed the saves in their order -/
structure InOrder (d0 : D) (saved : List Q) (d : Server D) : Prop where
  data : d.data = replay my saved d.executed d0
  sorted : d.executed.Pairwise (· ≤ ·)
  bound : ∀ j ∈ d.executed, j < saved.length

/-- a server that has executed `n` holds rows that reflect it -/
theorem InOrder.reflects {d0 : D} {saved : List Q} {d : Server D} (h : InOrder my d0 saved d) {n : ℕ}
    (hn : n ∈ d.executed) (a : ℕ) : Reflects my saved a n (my.character d.data a) := by
  obtain ⟨l1, l2, hl⟩ := List.append_of_mem hn
  refine ⟨replay my saved l1 d0, l2, ?_, fun j hj => h.bound j (hl ▸ List.mem_append_right l1 hj), ?_⟩
  · have hs := h.sorted
    rw [hl] at hs
    exact (List.pairwise_append.1 hs).2.1
  · rw [h.data, hl, replay_append]

theorem InOrder.snoc {d0 : D} {saved : List Q} {d : Server D} (h : InOrder my d0 saved d) (sql : Q) :
    InOrder my d0 (saved ++ [sql]) d :=
  ⟨by rw [replay_snoc my h.bound]; exact h.data, h.sorted, fun j hj => by
    have := h.bound j hj
    simp only [List.length_append, List.length_singleton]
    omega⟩

abbrev QTask (Q D C E : Type*) := DBTask (Job Q C E) (SDBResult D C E)

/-- a result read in order, after every save the query is to read -/
structure ReadOk (d0 : D) (saved : List Q) (p : HeroData C E) (r : SDBResult D C E) : Prop where
  rows : r.rows = .characters (my.character r.seen.data p.account).toList
  asked : p.asked ⊆ r.seen.executed
  seen : InOrder my d0 saved r.seen

structure TaskOk (d0 : D) (saved : List Q) (executed : List ℕ) (n : ℕ) (t : QTask Q D C E) : Prop where
  store : t.store = .storeQuery
  save : ∀ sql k, t.job = .save sql k → n = saveHeroInfoThread ∧ saved[k]? = some sql
  query : ∀ p, t.job = .heroInfo p → n ≠ saveHeroInfoThread ∧ p.asked ⊆ executed ∧
    ∀ r, t.result = some r → ReadOk my d0 saved p r
  deals : ∀ p, t.job = .heroDeals p → n ≠ saveHeroInfoThread

def ResultOk (d0 : D) (saved : List Q) (t : QTask Q D C E) : Prop :=
  ∀ p, t.job = .heroInfo p → ∀ r, t.result = some r → ReadOk my d0 saved p r

/-- the number of a save -/
def number (t : QTask Q D C E) : ℕ :=
  match t.job with
  | .save _ k => k
  | _ => 0

/-- the saves still to be executed: the one the thread holds, and the queue -/
def pending (m : TaskManager (Job Q C E) (SDBResult D C E)) : List (QTask Q D C E) :=
  m.threads.filterMap DBThread.task ++ m.works

/-- the saves have one thread, and wait in their order behind the executed ones -/
def QueueOk (executed : List ℕ) (q : Option (TaskManager (Job Q C E) (SDBResult D C E))) : Prop :=
  ∀ m, q = some m → (∃ th, m.threads = [th]) ∧ (executed ++ (pending m).map number).Pairwise (· ≤ ·)

structure SaveInv (d0 : D) (s : St Q D C E) : Prop where
  server : InOrder my d0 s.saved s.mysql
  tasks : EveryTask (TaskOk my d0 s.saved s.mysql.executed) (ResultOk my d0 s.saved) s.db
  answers : ∀ ans ∈ s.answers, ∀ r, ans.result = some r → ReadOk my d0 s.saved ans.param r
  queue : QueueOk s.mysql.executed (s.db.tasks saveHeroInfoThread)

theorem SaveInv.readsExecuted {d0 : D} {s : St Q D C E} (h : SaveInv my d0 s) : ReadsExecuted my s := by
  intro ans hans r hr
  have hok := h.answers ans hans r hr
  refine ⟨my.character r.seen.data ans.param.account, hok.rows, ?_⟩
  intro n hn
  exact hok.seen.reflects my (hn.elim (fun hm => hok.asked hm) id) _

/-! ### Growth -/

theorem ReadOk.snoc {d0 : D} {saved : List Q} {p : HeroData C E} {r : SDBResult D C E} (h : ReadOk my d0 saved p r)
    (sql : Q) : ReadOk my d0 (saved ++ [sql]) p r := ⟨h.rows, h.asked, h.seen.snoc my sql⟩

theorem TaskOk.snoc {d0 : D} {saved : List Q} {executed : List ℕ} {n : ℕ} {t : QTask Q D C E}
    (h : TaskOk my d0 saved executed n t) (sql : Q) : TaskOk my d0 (saved ++ [sql]) executed n t := by
  refine ⟨h.store, ?_, ?_, h.deals⟩
  · intro sql' k hk
    obtain ⟨hn, hget⟩ := h.save sql' k hk
    have hlt : k < saved.length := (List.getElem?_eq_some_iff.1 hget).1
    exact ⟨hn, by rw [List.getElem?_append_left hlt]; exact hget⟩
  · intro p hp
    obtain ⟨hn, hasked, hread⟩ := h.query p hp
    exact ⟨hn, hasked, fun r hr => (hread r hr).snoc my sql⟩

theorem TaskOk.grow {d0 : D} {saved : List Q} {executed executed' : List ℕ} {n : ℕ} {t : QTask Q D C E}
    (h : TaskOk my d0 saved executed n t) (hsub : executed ⊆ executed') : TaskOk my d0 saved executed' n t :=
  ⟨h.store, h.save, fun p hp =>
    ⟨(h.query p hp).1, fun _ hm => hsub ((h.query p hp).2.1 hm), (h.query p hp).2.2⟩, h.deals⟩

/-! ### The queue of the saves -/

/-- a save is added behind all others -/
theorem queueOk_addTask {d0 : D} {s : St Q D C E} (h : SaveInv my d0 s) (sql : Q) :
    QueueOk s.mysql.executed ((addRealTask s.db saveHeroInfoThread
      { store := .storeQuery, job := .save sql s.saved.length }).tasks saveHeroInfoThread) := by
  intro m hm
  rw [addRealTask_self _ _ (by decide)] at hm
  have hle : ∀ k ∈ s.mysql.executed, k ≤ s.saved.length := fun k hk => (h.server.bound k hk).le
  cases hq : s.db.tasks saveHeroInfoThread with
  | none =>
    rw [hq] at hm
    rw [← Option.some.inj hm]
    refine ⟨⟨_, rfl⟩, List.pairwise_append.2 ⟨h.server.sorted, ?_, ?_⟩⟩
    · exact List.pairwise_singleton _ _
    · intro k hk k' hk'
      simp only [pending, List.filterMap_cons, List.filterMap_nil, List.nil_append, List.map_cons, List.map_nil,
        List.mem_singleton] at hk'
      rw [hk']
      exact hle k hk
  | some m0 =>
    rw [hq] at hm
    rw [← Option.some.inj hm]
    obtain ⟨hth, hsorted⟩ := h.queue m0 hq
    refine ⟨hth, ?_⟩
    have hpending : pending (m0.addTask { store := .storeQuery, job := .save sql s.saved.length }) =
        pending m0 ++ [{ store := .storeQuery, job := .save sql s.saved.length }] := by
      simp [pending, TaskManager.addTask]
    rw [hpending, List.map_append, ← List.append_assoc]
    refine List.pairwise_append.2 ⟨hsorted, List.pairwise_singleton _ _, ?_⟩
    intro k hk k' hk'
    rw [List.map_singleton, List.mem_singleton] at hk'
    rw [hk']
    rcases List.mem_append.1 hk with hk | hk
    · exact hle k hk
    · obtain ⟨t, ht, rfl⟩ := List.mem_map.1 hk
      have hok : TaskOk my d0 s.saved s.mysql.executed saveHeroInfoThread t := by
        rcases List.mem_append.1 ht with ht | ht
        · obtain ⟨th, hmem, hhas⟩ := List.mem_filterMap.1 ht
          exact h.tasks.held _ m0 hq th hmem t hhas
        · exact h.tasks.works _ m0 hq t ht
      unfold number
      split
      · rename_i sql' k hjob
        exact (List.getElem?_eq_some_iff.1 (hok.save sql' k hjob).2).1.le
      · exact Nat.zero_le _

theorem queueOk_realConnect {executed : List ℕ} {m : TaskManager (Job Q C E) (SDBResult D C E)} (i : ℕ)
    (h : QueueOk executed (some m)) : QueueOk executed (some (m.realConnect i)) := by
  intro m' hm'
  rw [← Option.some.inj hm']
  obtain ⟨⟨th, hth⟩, hsorted⟩ := h m rfl
  cases i with
  | zero =>
    have hp : pending (m.realConnect 0) = pending m := by
      obtain ⟨c, t⟩ := th
      cases t <;> simp [pending, TaskManager.realConnect, hth]
    exact ⟨⟨_, by simp [TaskManager.realConnect, hth]; rfl⟩, hp ▸ hsorted⟩
  | succ i =>
    have hp : m.realConnect (i + 1) = m := by
      obtain ⟨works, threads⟩ := m
      simp only at hth
      simp [TaskManager.realConnect, hth]
    rw [hp]
    exact ⟨⟨th, hth⟩, hsorted⟩

/-- a turn works on the first of the pending saves -/
theorem pending_next {s : St Q D C E} {n i : ℕ} {m : TaskManager (Job Q C E) (SDBResult D C E)} {t : QTask Q D C E}
    {rest : List (QTask Q D C E)} (hnext : s.db.next n i = some (m, t, rest)) {th : DBThread (Job Q C E) _}
    (hth : m.threads = [th]) : i = 0 ∧ pending m = t :: rest := by
  obtain ⟨-, th', hth', -, hfrom⟩ := Database.next_some hnext
  have hi : i = 0 := by
    have hlt := (List.getElem?_eq_some_iff.1 hth').1
    rw [hth] at hlt
    simpa using hlt
  subst hi
  have he : th' = th := by
    rw [hth] at hth'
    exact (Option.some.inj hth').symm
  subst he
  refine ⟨rfl, ?_⟩
  rcases hfrom with ⟨ht, hrest⟩ | ⟨ht, hw⟩
  · simp [pending, hth, ht, hrest]
  · simp [pending, hth, ht, hw]

/-- what a turn leaves pending: the rest, behind the task if it has not ended -/
theorem pending_after {m : TaskManager (Job Q C E) (SDBResult D C E)} {th : DBThread (Job Q C E) (SDBResult D C E)}
    (hth : m.threads = [th]) (rest : List (QTask Q D C E)) (u : Turn (Job Q C E) (SDBResult D C E) (Server D)) :
    pending (m.after 0 rest u) = (if u.ended then [] else [u.task]) ++ rest := by
  unfold pending TaskManager.after
  cases he : u.ended <;> simp [hth]

theorem queueOk_work {d0 : D} {s : St Q D C E} (h : SaveInv my d0 s) {i : ℕ} {a : Attempt}
    {m : TaskManager (Job Q C E) (SDBResult D C E)} {t : QTask Q D C E} {rest : List (QTask Q D C E)}
    (hnext : s.db.next saveHeroInfoThread i = some (m, t, rest)) {executed : List ℕ}
    (hex : executed = s.mysql.executed ∨ executed = s.mysql.executed ++ [number t]) :
    QueueOk executed (some (m.after i rest (attempt (exec my) s.mysql t a))) := by
  intro m' hm'
  rw [← Option.some.inj hm']
  obtain ⟨⟨th, hth⟩, hsorted⟩ := h.queue m (Database.next_some hnext).1
  obtain ⟨rfl, hp⟩ := pending_next hnext hth
  refine ⟨⟨_, by simp [TaskManager.after, hth]; rfl⟩, ?_⟩
  rw [hp, List.map_cons] at hsorted
  have hnumber : number (attempt (exec my) s.mysql t a).task = number t := by simp [number]
  -- at most the task of the turn is executed once more, and it stays in front
  have htwice : (s.mysql.executed ++ [number t] ++ number t :: rest.map number).Pairwise (· ≤ ·) := by
    obtain ⟨h1, h2, h3⟩ := List.pairwise_append.1 hsorted
    refine List.pairwise_append.2 ⟨?_, h2, ?_⟩
    · refine List.pairwise_append.2 ⟨h1, List.pairwise_singleton _ _, ?_⟩
      intro k hk k' hk'
      rw [List.mem_singleton.1 hk']
      exact h3 k hk _ List.mem_cons_self
    · intro k hk k' hk'
      rcases List.mem_append.1 hk with hk | hk
      · exact h3 k hk k' hk'
      · rw [List.mem_singleton.1 hk]
        rcases List.mem_cons.1 hk' with rfl | hk'
        · exact le_rfl
        · exact List.rel_of_pairwise_cons h2 hk'
  rw [pending_after hth, List.map_append]
  refine htwice.sublist ?_
  have hfront : List.Sublist executed (s.mysql.executed ++ [number t]) := by
    rcases hex with rfl | rfl
    · exact List.sublist_append_left _ _
    · exact List.Sublist.refl _
  apply hfront.append
  cases he : (attempt (exec my) s.mysql t a).ended with
  | true => simp
  | false => simp [hnumber]

/-! ### Steps -/

/-- a query is added: the saves do not notice -/
theorem saveInv_addQuery {d0 : D} {s : St Q D C E} (h : SaveInv my d0 s) {job : Job Q C E}
    (hjob : TaskOk my d0 s.saved s.mysql.executed queryHeroInfoThread { store := .storeQuery, job := job }) :
    SaveInv my d0 (addSQueryTask s job queryHeroInfoThread) := by
  refine ⟨by simpa using h.server, ?_, by simpa using h.answers, ?_⟩
  · rw [addSQueryTask_saved, addSQueryTask_mysql]
    exact everyTask_addSQueryTask h.tasks hjob
  · rw [addSQueryTask_mysql, addSQueryTask_ne s job (by decide)]
    exact h.queue

theorem taskOk_heroDeals (d0 : D) (saved : List Q) (executed : List ℕ) (p : HeroData C E) :
    TaskOk my d0 saved executed queryHeroInfoThread ({ store := .storeQuery, job := .heroDeals p } : QTask Q D C E) :=
  ⟨rfl, fun _ _ hp => absurd hp (by simp), fun _ hp => absurd hp (by simp), fun _ _ => by decide⟩

theorem saveInv_callback {d0 : D} {u : St Q D C E} (h : SaveInv my d0 u) {t : QTask Q D C E}
    (ht : ResultOk my d0 u.saved t) : SaveInv my d0 (callback u t) := by
  unfold callback
  split
  · rename_i p hjob
    have hans : SaveInv my d0 { u with answers := u.answers ++ [⟨p, t.result, t.state = .done⟩] } := by
      refine ⟨h.server, h.tasks, ?_, h.queue⟩
      intro ans hm r hr
      rcases List.mem_append.1 hm with hm | hm
      · exact h.answers ans hm r hr
      · rw [List.mem_singleton.1 hm] at hr ⊢
        exact ht p hjob r hr
    simp only [dbDoQueryHeroInfo]
    split
    · exact saveInv_addQuery my hans (taskOk_heroDeals my d0 _ _ _)
    · exact ⟨hans.server, hans.tasks, hans.answers, hans.queue⟩
  · exact ⟨h.server, h.tasks, h.answers, h.queue⟩
  · exact h

theorem saveInv_save {d0 : D} {s : St Q D C E} (h : SaveInv my d0 s) (sql : Q) :
    SaveInv my d0 (saveSqlData s sql) := by
  have htasks : EveryTask (TaskOk my d0 (s.saved ++ [sql]) s.mysql.executed) (ResultOk my d0 (s.saved ++ [sql])) s.db :=
    h.tasks.imp (fun n t ht => ht.snoc my sql) fun t ht p hp r hr => (ht p hp r hr).snoc my sql
  have hnew : TaskOk my d0 (s.saved ++ [sql]) s.mysql.executed saveHeroInfoThread
      ({ store := .storeQuery, job := .save sql s.saved.length } : QTask Q D C E) := by
    refine ⟨rfl, ?_, fun _ hp => absurd hp (by simp), fun _ hp => absurd hp (by simp)⟩
    intro sql' k hk
    obtain ⟨rfl, rfl⟩ := Job.save.inj hk
    exact ⟨rfl, by simp⟩
  have hlen : (s.saved ++ [sql]).length - 1 = s.saved.length := by simp
  simp only [saveSqlData, hlen]
  refine ⟨by simpa using h.server.snoc my sql, ?_, ?_, ?_⟩
  · rw [addSQueryTask_saved, addSQueryTask_mysql]
    refine everyTask_addSQueryTask ?_ hnew
    exact htasks
  · rw [addSQueryTask_saved, addSQueryTask_answers]
    exact fun ans hans r hr => (h.answers ans hans r hr).snoc my sql
  · rw [addSQueryTask_mysql]
    unfold addSQueryTask
    split_ifs
    · exact queueOk_addTask my h sql
    · exact h.queue

/-- the turns of the other types execute no save -/
theorem exec_query {d0 : D} {saved : List Q} {executed : List ℕ} {n : ℕ} {t : QTask Q D C E}
    (ht : TaskOk my d0 saved executed n t) (hn : n ≠ saveHeroInfoThread) (d : Server D) :
    (exec my t.job d).1 = d := by
  cases hjob : t.job with
  | heroInfo p => rfl
  | heroDeals p => rfl
  | save sql k => exact absurd (ht.save sql k hjob).1 hn

theorem exec_save {d0 : D} {saved : List Q} {executed : List ℕ} {t : QTask Q D C E}
    (ht : TaskOk my d0 saved executed saveHeroInfoThread t) :
    ∃ sql, t.job = .save sql (number t) ∧ saved[number t]? = some sql := by
  cases hjob : t.job with
  | heroInfo p => exact absurd rfl (ht.query p hjob).1
  | heroDeals p => exact absurd rfl (ht.deals p hjob)
  | save sql k =>
    have hk : number t = k := by rw [number, hjob]
    exact ⟨sql, by rw [hk], hk ▸ (ht.save sql k hjob).2⟩

/-- the result of a query that an attempt leaves in its task was in it, or has just been read -/
theorem attempt_heroInfo {d : Server D} {t : QTask Q D C E} {p : HeroData C E} {a : Attempt} {r : SDBResult D C E}
    (hstore : t.store = .storeQuery) (hjob : t.job = .heroInfo p)
    (hr : (attempt (exec my) d t a).task.result = some r) :
    t.result = some r ∨ r = ⟨.characters (my.character d.data p.account).toList, d⟩ := by
  have hexec : (exec my t.job d).2 = ⟨.characters (my.character d.data p.account).toList, d⟩ := by rw [hjob]; rfl
  cases a with
  | disconnected => exact Or.inl hr
  | done =>
    simp only [attempt, execute, hstore, hexec] at hr
    exact Or.inr (Option.some.inj hr).symm
  | raised executed e =>
    simp only [attempt, caught] at hr
    left
    split_ifs at hr <;> exact hr
  | freed e =>
    simp only [attempt, caught, hexec] at hr
    right
    split_ifs at hr <;> exact (Option.some.inj hr).symm

theorem saveInv_work {d0 : D} {s : St Q D C E} (h : SaveInv my d0 s) (n i : ℕ) (a : Attempt) :
    SaveInv my d0 (step my s (.work n i a)) := by
  cases hnext : s.db.next n i with
  | none =>
    have hsame : step my s (.work n i a) = s := by simp [step, work, hnext]
    rw [hsame]
    exact h
  | some q =>
    obtain ⟨m, t, rest⟩ := q
    have ht : TaskOk my d0 s.saved s.mysql.executed n t := everyTask_next h.tasks hnext
    have hmysql : (step my s (.work n i a)).mysql = (attempt (exec my) s.mysql t a).db := by
      simp [step, work, hnext]
    have hresult : ∀ t' : QTask Q D C E, TaskOk my d0 s.saved s.mysql.executed n t' → ∀ p, t'.job = .heroInfo p →
        ∀ r, (attempt (exec my) s.mysql t' a).task.result = some r → ReadOk my d0 s.saved p r := by
      intro t' ht' p hp r hr
      rcases attempt_heroInfo my ht'.store hp hr with hold | rfl
      · exact (ht'.query p hp).2.2 r hold
      · exact ⟨rfl, (ht'.query p hp).2.1, h.server⟩
    have htask : ∀ t' : QTask Q D C E, TaskOk my d0 s.saved s.mysql.executed n t' →
        TaskOk my d0 s.saved s.mysql.executed n (attempt (exec my) s.mysql t' a).task := by
      intro t' ht'
      refine ⟨by rw [attempt_store]; exact ht'.store, by rw [attempt_job]; exact ht'.save, ?_,
        by rw [attempt_job]; exact ht'.deals⟩
      intro p hp
      rw [attempt_job] at hp
      exact ⟨(ht'.query p hp).1, (ht'.query p hp).2.1, hresult t' ht' p hp⟩
    have hall : EveryTask (TaskOk my d0 s.saved s.mysql.executed) (ResultOk my d0 s.saved)
        (step my s (.work n i a)).db := by
      apply everyTask_work (exec my) h.tasks (fun _ t' _ _ ht' _ => htask t' ht')
      intro _ t' _ _ ht' _ p hp
      rw [attempt_job] at hp
      exact hresult t' ht' p hp
    rcases eq_or_ne n saveHeroInfoThread with rfl | hn
    · obtain ⟨sql, hjob, hget⟩ := exec_save my ht
      have hqueue : (step my s (.work saveHeroInfoThread i a)).db.tasks saveHeroInfoThread =
          some (m.after i rest (attempt (exec my) s.mysql t a)) := by simp [step, work, hnext]
      rcases attempt_db (exec my) s.mysql t a with hd | hd
      · refine ⟨?_, ?_, h.answers, ?_⟩
        · rw [hmysql, hd]; exact h.server
        · rw [hmysql, hd]; exact hall
        · rw [hmysql, hd, hqueue]
          exact queueOk_work my h hnext (Or.inl rfl)
      · have hexec : (attempt (exec my) s.mysql t a).db =
            ⟨my.exec sql s.mysql.data, s.mysql.executed ++ [number t]⟩ := by rw [hd, hjob]; rfl
        have hsorted : (s.mysql.executed ++ [number t]).Pairwise (· ≤ ·) := by
          obtain ⟨⟨th, hth⟩, hs⟩ := h.queue m (Database.next_some hnext).1
          rw [(pending_next hnext hth).2, List.map_cons] at hs
          refine hs.sublist ((List.Sublist.refl _).append ?_)
          exact (List.nil_sublist _).cons_cons _
        have hgrow : ∀ n' (t' : QTask Q D C E), TaskOk my d0 s.saved s.mysql.executed n' t' →
            TaskOk my d0 s.saved (s.mysql.executed ++ [number t]) n' t' :=
          fun _ _ ht' => ht'.grow my (List.subset_append_left _ _)
        refine ⟨?_, ?_, h.answers, ?_⟩
        · rw [hmysql, hexec]
          refine ⟨?_, hsorted, ?_⟩
          · show my.exec sql s.mysql.data = replay my s.saved (s.mysql.executed ++ [number t]) d0
            rw [replay_append, ← h.server.data]
            simp [replay, hget]
          · intro j hj
            rcases List.mem_append.1 hj with hj | hj
            · exact h.server.bound j hj
            · rw [List.mem_singleton.1 hj]
              exact (List.getElem?_eq_some_iff.1 hget).1
        · rw [hmysql, hexec]
          exact hall.imp hgrow fun _ ht' => ht'
        · rw [hmysql, hexec, hqueue]
          exact queueOk_work my h hnext (Or.inr rfl)
    · have hd : (attempt (exec my) s.mysql t a).db = s.mysql := by
        rcases attempt_db (exec my) s.mysql t a with hd | hd
        · exact hd
        · rw [hd, exec_query my ht hn]
      have hqueue : (step my s (.work n i a)).db.tasks saveHeroInfoThread = s.db.tasks saveHeroInfoThread := by
        simp [step, work, hnext, Function.update_of_ne hn.symm]
      refine ⟨?_, ?_, h.answers, ?_⟩
      · rw [hmysql, hd]; exact h.server
      · rw [hmysql, hd]; exact hall
      · rw [hmysql, hd, hqueue]; exact h.queue

theorem saveInv_step (d0 : D) (s : St Q D C E) (o : Op Q) (h : SaveInv my d0 s) : SaveInv my d0 (step my s o) := by
  cases o with
  | saveSqlData sql => exact saveInv_save my h sql
  | queryHeroInfo a t gs =>
    apply saveInv_addQuery my h
    refine ⟨rfl, fun _ _ hp => absurd hp (by simp), ?_, fun _ hp => absurd hp (by simp)⟩
    intro p hp
    rw [← Job.heroInfo.inj hp]
    exact ⟨by decide, List.Subset.refl _, fun _ hr => absurd hr (by simp)⟩
  | onSaveToClose => exact ⟨h.server, h.tasks, h.answers, h.queue⟩
  | realConnect n i =>
    refine ⟨h.server, everyTask_realConnect h.tasks n i, h.answers, ?_⟩
    rcases eq_or_ne n saveHeroInfoThread with rfl | hn
    · simp only [step, Database.modify, Function.update_self]
      cases hq : s.db.tasks saveHeroInfoThread with
      | none => exact fun _ hm => absurd hm (Option.some_ne_none _).symm
      | some m => exact queueOk_realConnect i (hq ▸ h.queue)
    · simp only [step, Database.modify, Function.update_of_ne hn.symm]
      exact h.queue
  | work n i a => exact saveInv_work my h n i a
  | run =>
    have htake : SaveInv my d0 { s with db := takeResults s.db } :=
      ⟨h.server, everyTask_takeResults h.tasks, h.answers, h.queue⟩
    have hsaved : ∀ u : St Q D C E, ∀ t, (callback u t).saved = u.saved := by
      intro u t
      unfold callback
      split
      · simp only [dbDoQueryHeroInfo]; split <;> simp
      · rfl
      · rfl
    have hboth := runCallbacks_inv (I := fun u => SaveInv my d0 u ∧ u.saved = s.saved) ⟨htake, rfl⟩ fun t ht u hu => by
      refine ⟨saveInv_callback my hu.1 ?_, (hsaved u t).trans hu.2⟩
      rw [hu.2]
      exact h.tasks.finished t ht
    exact hboth.1

theorem saveInv_start (count : ℕ) (d0 : D) : SaveInv my d0 (start count d0 : St Q D C E) := by
  refine ⟨⟨rfl, List.Pairwise.nil, fun _ hj => absurd hj List.not_mem_nil⟩, everyTask_start count d0,
    fun _ hm => absurd hm List.not_mem_nil, ?_⟩
  intro m hm
  simp [start, initDatabase, addThread, saveHeroInfoThread, normalThread] at hm

/-- **A query reads what has been executed.** After any run, every result that is called back reflects each save that
the server had executed when the query was added, and each that it had executed when the select ran. -/
theorem reads_executed (count : ℕ) (d0 : D) (ops : List (Op Q)) :
    ReadsExecuted my (run (step my) (start count d0 : St Q D C E) ops) :=
  (inv_run_all (saveInv_step my d0) ops (saveInv_start my count d0)).readsExecuted

/-- rows by account, written whole -/
def rowDatabase : MySQL (ℕ × ℕ) (ℕ → Option ℕ) ℕ Unit where
  exec sql d := Function.update d sql.1 (some sql.2)
  character d := d
  deals _ _ := []

/-- the save of account 5 waits for its thread while the query that came after it runs: the result is the old row -/
theorem query_overtakes_save :
    ¬∀ (count : ℕ) (d0 : ℕ → Option ℕ) (ops : List (Op (ℕ × ℕ))),
      ReadYourWrites rowDatabase (run (step rowDatabase) (start count d0) ops) := by
  intro h
  have hread := h 1 (fun _ => some 1)
    [.saveSqlData (5, 7), .queryHeroInfo 5 10 3, .realConnect 1 0, .work 1 0 .done, .run]
  have hrow : Reflects rowDatabase [(5, 7)] 5 0 (some 1) :=
    hread _ (List.mem_singleton.2 rfl) (some 1) ⟨_, rfl, rfl⟩ 0 (by decide) (5, 7) 7 rfl fun d => by
      simp [rowDatabase]
  have hwrites : ∀ sql, [(5, 7)][0]? = some sql → ∃ c, Writes rowDatabase sql 5 c := by
    intro sql hs
    refine ⟨7, ?_⟩
    intro d
    rw [← Option.some.inj hs]
    simp [rowDatabase]
  obtain ⟨j, sql, c, -, hj, hw, hc⟩ := hrow.row rowDatabase hwrites fun j sql hlt hj => by
    have hlen := (List.getElem?_eq_some_iff.1 hj).1
    simp only [List.length_singleton] at hlen
    omega
  have hone : sql = (5, 7) := List.mem_singleton.1 (List.mem_of_getElem? hj)
  have hseven := hw fun _ => none
  rw [hone, ← hc] at hseven
  simp [rowDatabase] at hseven

end DreamHeroes.DB

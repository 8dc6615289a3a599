/-
When a hero is created. The database server sends `MsgNeedCreateHeroDB2GS` when `dbDoQueryHeroInfo` finds no row, and
the game server then builds a default hero (`Session::parseDBQueryNeedCreateHero`), which the next `SaveHero` writes
with a REPLACE.

`dbDoQueryHeroInfo` does not look at its success flag, so it finds no row in the result of a select that failed either:
the default hero then takes the place of the character that is there (`failed_select_overwrites`). `Safe` says which
attempts must not happen: one that ends a hero query with an error while no row has been read.

- `sysInv_step`: under `Safe` every finished hero query has the rows the server had, or a row.
- `created_only_if_absent`: what has been sent once the finished queries are called back is right in every state of a
  run exactly when every attempt of the run is `Safe`.
-/
import Mathlib.Tactic
import DreamHeroes.DB.DBQuest

namespace DreamHeroes.DB

open DreamHeroes.Lib

/-! ## The data -/

/-- the statements of the game server; `failed` marks the row of a hero that was built after a failed select -/
inductive Sql (C E : Type*) where
  | replaceCharacter (account : ℕ) (row : C) (failed : Bool)
  | updateCharacter (f : ℕ → C → C)
  | deals (f : (ℕ → List E) → ℕ → List E)

/-- `character` by its key, `deal_wait_to_pay` by account; `overwritten` is bookkeeping: the accounts that lost their
row to a hero built after a failed select -/
structure Tables (C E : Type*) where
  character : ℕ → Option C
  deals : ℕ → List E
  overwritten : List ℕ := []

def charDatabase (C E : Type*) : MySQL (Sql C E) (Tables C E) C E where
  exec
    | .replaceCharacter a row failed, d =>
      { d with
        character := Function.update d.character a (some row)
        overwritten := if failed ∧ (d.character a).isSome then d.overwritten ++ [a] else d.overwritten }
    | .updateCharacter f, d => { d with character := fun a => (d.character a).map (f a) }
    | .deals f, d => { d with deals := f d.deals }
  character d := d.character
  deals d := d.deals

/-- the hero in memory, as the row `SaveHero` writes -/
structure Hero (C : Type*) where
  row : C
  failed : Bool

structure Sys (C E : Type*) where
  srv : St (Sql C E) (Tables C E) C E
  /-- `m_account` of the session of a transaction id -/
  account : ℕ → Option ℕ := fun _ => none
  heroes : ℕ → Option (Hero C) := fun _ => none
  /-- the statements on their way to the database server -/
  toDB : List (Sql C E) := []

variable {C E : Type*}

/-! ## The game server -/

/-- the constructor of `Session`: without a hero in memory its data are asked for -/
def newSession (s : Sys C E) (t a gs : ℕ) : Sys C E :=
  let s := { s with account := Function.update s.account t (some a) }
  match s.heroes a with
  | some _ => s
  | none => { s with srv := queryHeroInfo s.srv a t gs }

/-- `DreamHeroManager::CreateHero` of both kinds: a hero in memory stays -/
def createHero (s : Sys C E) (a : ℕ) (h : Hero C) : Sys C E :=
  match s.heroes a with
  | some _ => s
  | none => { s with heroes := Function.update s.heroes a (some h) }

/-- the message `i` arrives; `row` is what `LoadFromConfig` builds -/
def receive (s : Sys C E) (i : ℕ) (row : C) : Sys C E :=
  match s.srv.sent[i]? with
  | none => s
  | some (.needCreateHero t _ ans) =>
    match s.account t with
    | some a => createHero s a { row := row, failed := !ans.success }
    | none => s
  | some (.heroData p) =>
    match p.info with
    | some info => createHero s p.account { row := info, failed := false }
    | none => s

/-- a request changes the hero -/
def change (s : Sys C E) (a : ℕ) (f : C → C) : Sys C E :=
  { s with heroes := Function.update s.heroes a ((s.heroes a).map fun h => { h with row := f h.row }) }

def saveHero (s : Sys C E) (a : ℕ) : Sys C E :=
  match s.heroes a with
  | some h => { s with toDB := s.toDB ++ [.replaceCharacter a h.row h.failed] }
  | none => s

inductive SysOp (C E : Type*) where
  | newSession (t a gs : ℕ)
  | receive (i : ℕ) (row : C)
  | change (a : ℕ) (f : C → C)
  | saveHero (a : ℕ)
  | destroyHero (a : ℕ)
  | updateCharacter (f : ℕ → C → C)
  | updateDeals (f : (ℕ → List E) → ℕ → List E)
  | saveSqlData
  | onSaveToClose
  | realConnect (ntype i : ℕ)
  | work (ntype i : ℕ) (a : Attempt)
  | run

def sysStep (s : Sys C E) : SysOp C E → Sys C E
  | .newSession t a gs => newSession s t a gs
  | .receive i row => receive s i row
  | .change a f => change s a f
  | .saveHero a => saveHero s a
  | .destroyHero a => { s with heroes := Function.update s.heroes a none }
  | .updateCharacter f => { s with toDB := s.toDB ++ [.updateCharacter f] }
  | .updateDeals f => { s with toDB := s.toDB ++ [.deals f] }
  | .saveSqlData =>
    match s.toDB with
    | [] => s
    | sql :: rest => { s with srv := step (charDatabase C E) s.srv (.saveSqlData sql), toDB := rest }
  | .onSaveToClose => { s with srv := step (charDatabase C E) s.srv .onSaveToClose }
  | .realConnect n i => { s with srv := step (charDatabase C E) s.srv (.realConnect n i) }
  | .work n i a => { s with srv := step (charDatabase C E) s.srv (.work n i a) }
  | .run => { s with srv := step (charDatabase C E) s.srv .run }

def sysStart (count : ℕ) (character : ℕ → Option C) (deals : ℕ → List E) : Sys C E :=
  { srv := start count { character := character, deals := deals } }

/-! ## The property and its guard -/

/-- `MsgNeedCreateHeroDB2GS` answers a select that succeeded and found no row -/
def Absent (m : Msg (Tables C E) C E) : Prop :=
  match m with
  | .needCreateHero _ _ ans =>
    ans.success = true ∧ ∃ r, ans.result = some r ∧ r.seen.data.character ans.param.account = none
  | .heroData _ => True

/-- a hero is created only if it does not exist, and no default hero takes the place of a character after a failed
select -/
structure CreatedOnlyIfAbsent (s : Sys C E) : Prop where
  absent : ∀ m ∈ s.srv.sent, Absent m
  kept : s.srv.mysql.data.overwritten = []

abbrev Task (C E : Type*) := DBTask (Job (Sql C E) C E) (SDBResult (Tables C E) C E)

/-- an attempt must not end a hero query with an error before a row has been read -/
def SafeAttempt (t : Task C E) (p : HeroData C E) (d : Server (Tables C E)) : Attempt → Prop
  | .raised _ e => e.kept = true ∨ (firstRow t.result).isSome
  | .freed e => e.kept = true ∨ (d.data.character p.account).isSome
  | _ => True

def Safe (s : Sys C E) : SysOp C E → Prop
  | .work n i a =>
    ∀ m t rest p, s.srv.db.next n i = some (m, t, rest) → t.job = .heroInfo p → SafeAttempt t p s.srv.mysql a
  | _ => True

/-! ## The invariant -/

/-- no row of a hero built after a failed select -/
def Clean (sql : Sql C E) : Prop := ∀ a row, sql ≠ .replaceCharacter a row true

/-- a hero query on its way: what has been read of it is what the server had when the select ran -/
structure Honest (t : Task C E) (p : HeroData C E) : Prop where
  store : t.store = .storeQuery
  doing : t.state = .doing
  rows : ∀ r, t.result = some r → r.rows = .characters (r.seen.data.character p.account).toList

/-- a finished hero query: it has succeeded, or a row has been read -/
structure Answered (t : Task C E) (p : HeroData C E) : Prop where
  rows : ∀ r, t.result = some r → r.rows = .characters (r.seen.data.character p.account).toList
  found : (t.state = .done ∧ ∃ r, t.result = some r) ∨ (firstRow t.result).isSome

structure GoodTask (t : Task C E) : Prop where
  query : ∀ p, t.job = .heroInfo p → Honest t p
  save : ∀ sql n, t.job = .save sql n → Clean sql

def GoodResult (t : Task C E) : Prop := ∀ p, t.job = .heroInfo p → Answered t p

structure SysInv (s : Sys C E) : Prop where
  tasks : EveryTask (fun _ => GoodTask) GoodResult s.srv.db
  sent : ∀ m ∈ s.srv.sent, Absent m
  heroes : ∀ a h, s.heroes a = some h → h.failed = false
  toDB : ∀ sql ∈ s.toDB, Clean sql
  kept : s.srv.mysql.data.overwritten = []

theorem goodTask_heroInfo (p : HeroData C E) :
    GoodTask ({ store := .storeQuery, job := .heroInfo p } : Task C E) :=
  ⟨fun _ _ => ⟨rfl, rfl, fun _ hr => absurd hr (by simp)⟩, fun _ _ hp => absurd hp (by simp)⟩

theorem goodTask_heroDeals (p : HeroData C E) :
    GoodTask ({ store := .storeQuery, job := .heroDeals p } : Task C E) :=
  ⟨fun _ hp => absurd hp (by simp), fun _ _ hp => absurd hp (by simp)⟩

theorem goodTask_save {sql : Sql C E} (h : Clean sql) (n : ℕ) :
    GoodTask ({ store := .storeQuery, job := .save sql n } : Task C E) := by
  refine ⟨fun _ hp => absurd hp (by simp), ?_⟩
  intro sql' n' hp
  obtain ⟨rfl, -⟩ := Job.save.inj hp
  exact h

theorem firstRow_toList {p : HeroData C E} {r : SDBResult (Tables C E) C E}
    (h : r.rows = .characters (r.seen.data.character p.account).toList) :
    firstRow (some r) = r.seen.data.character p.account := by
  obtain ⟨rows, seen⟩ := r
  dsimp only at h ⊢
  subst h
  cases hc : seen.data.character p.account <;> simp [firstRow]

/-! ### Attempts -/

theorem exec_heroInfo {t : Task C E} {p : HeroData C E} (hjob : t.job = .heroInfo p) (d : Server (Tables C E)) :
    exec (charDatabase C E) t.job d = (d, ⟨.characters (d.data.character p.account).toList, d⟩) := by rw [hjob]; rfl

/-- an attempt that leaves the task with the thread -/
theorem honest_attempt {t : Task C E} {p : HeroData C E} {d : Server (Tables C E)} {a : Attempt}
    (hjob : t.job = .heroInfo p) (h : Honest t p) (hend : (attempt (exec (charDatabase C E)) d t a).ended = false) :
    Honest (attempt (exec (charDatabase C E)) d t a).task p := by
  cases a with
  | disconnected => exact h
  | done => simp [attempt, execute, h.store] at hend
  | raised executed e =>
    simp only [attempt, caught] at hend ⊢
    cases hk : e.kept with
    | true => simpa [hk] using h
    | false => simp [hk] at hend
  | freed e =>
    simp only [attempt, caught, exec_heroInfo hjob] at hend ⊢
    cases hk : e.kept with
    | true =>
      rw [if_pos rfl]
      refine ⟨h.store, h.doing, ?_⟩
      intro r hr
      rw [← Option.some.inj hr]
    | false => simp [hk] at hend

/-- a safe attempt that ends the task -/
theorem answered_attempt {t : Task C E} {p : HeroData C E} {d : Server (Tables C E)} {a : Attempt}
    (hjob : t.job = .heroInfo p) (h : Honest t p) (hsafe : SafeAttempt t p d a)
    (hend : (attempt (exec (charDatabase C E)) d t a).ended = true) :
    Answered (attempt (exec (charDatabase C E)) d t a).task p := by
  cases a with
  | disconnected => exact absurd hend Bool.false_ne_true
  | done =>
    simp only [attempt, execute, h.store, exec_heroInfo hjob]
    refine ⟨?_, Or.inl ⟨rfl, _, rfl⟩⟩
    intro r hr
    rw [← Option.some.inj hr]
  | raised executed e =>
    simp only [attempt, caught] at hend ⊢
    cases hk : e.kept with
    | true => simp [hk] at hend
    | false =>
      rw [if_neg Bool.false_ne_true]
      exact ⟨h.rows, Or.inr (hsafe.resolve_left (by simp [hk]))⟩
  | freed e =>
    simp only [attempt, caught, exec_heroInfo hjob] at hend ⊢
    cases hk : e.kept with
    | true => simp [hk] at hend
    | false =>
      rw [if_neg Bool.false_ne_true]
      refine ⟨?_, Or.inr ?_⟩
      · intro r hr
        rw [← Option.some.inj hr]
      · rw [firstRow_toList (p := p) rfl]
        exact hsafe.resolve_left (by simp [hk])

/-- an attempt that is not safe ends the query with an error and without a row -/
theorem unsafe_attempt {t : Task C E} {p : HeroData C E} {d : Server (Tables C E)} {a : Attempt}
    (hjob : t.job = .heroInfo p) (hn : ¬SafeAttempt t p d a) :
    (attempt (exec (charDatabase C E)) d t a).ended = true ∧
      (attempt (exec (charDatabase C E)) d t a).task.state = .error ∧
      firstRow (attempt (exec (charDatabase C E)) d t a).task.result = none := by
  cases a with
  | disconnected => exact absurd trivial hn
  | done => exact absurd trivial hn
  | raised executed e =>
    obtain ⟨hk, hrow⟩ := not_or.1 hn
    simp only [attempt, caught, if_neg hk]
    exact ⟨trivial, trivial, by simpa using hrow⟩
  | freed e =>
    obtain ⟨hk, hrow⟩ := not_or.1 hn
    simp only [attempt, caught, if_neg hk, exec_heroInfo hjob]
    refine ⟨trivial, trivial, ?_⟩
    rw [firstRow_toList (p := p) rfl]
    simpa using hrow

/-! ### Steps -/

theorem exec_clean {sql : Sql C E} (h : Clean sql) {d : Tables C E} (hd : d.overwritten = []) :
    ((charDatabase C E).exec sql d).overwritten = [] := by
  cases sql with
  | replaceCharacter a row failed =>
    have hf : failed = false := Bool.eq_false_iff.2 fun e => h a row (by rw [e])
    simp [charDatabase, hf, hd]
  | updateCharacter f => exact hd
  | deals f => exact hd

/-- a callback asks for a new hero only when the select has succeeded without a row -/
theorem absent_callback {t : Task C E} (ht : GoodResult t) {u : St (Sql C E) (Tables C E) C E}
    (h : ∀ m ∈ u.sent, Absent m) : ∀ m ∈ (callback u t).sent, Absent m := by
  intro m hm
  unfold callback at hm
  split at hm
  · rename_i p hjob
    simp only [dbDoQueryHeroInfo] at hm
    split at hm
    · rw [addSQueryTask_sent] at hm
      exact h m hm
    · rename_i hrow
      rcases List.mem_append.1 hm with hm | hm
      · exact h m hm
      · rw [List.mem_singleton.1 hm]
        have hans := ht p hjob
        rcases hans.found with ⟨hdone, r, hr⟩ | hfound
        · refine ⟨by simpa using hdone, r, hr, ?_⟩
          rw [hr, firstRow_toList (hans.rows r hr)] at hrow
          exact hrow
        · rw [hrow] at hfound
          exact absurd hfound Bool.false_ne_true
  · rcases List.mem_append.1 hm with hm | hm
    · exact h m hm
    · rw [List.mem_singleton.1 hm]; trivial
  · exact h m hm

/-- the database server takes one step -/
theorem sysInv_srv {s : Sys C E} (h : SysInv s) (o : Op (Sql C E)) (hclean : ∀ sql, o = .saveSqlData sql → Clean sql)
    (hsafe : ∀ n i a, o = .work n i a → ∀ m t rest p, s.srv.db.next n i = some (m, t, rest) → t.job = .heroInfo p →
      SafeAttempt t p s.srv.mysql a) : SysInv { s with srv := step (charDatabase C E) s.srv o } := by
  refine ⟨?_, ?_, h.heroes, h.toDB, ?_⟩
  · refine everyTask_step o h.tasks (fun p _ => goodTask_heroInfo p) goodTask_heroDeals
      (fun sql ho => goodTask_save (hclean sql ho) _) ?_ ?_
    · intro n i a ho m t rest hnext ht hend
      refine ⟨?_, ?_⟩
      · intro p hp
        rw [attempt_job] at hp
        exact honest_attempt hp (ht.query p hp) hend
      · intro sql k hp
        rw [attempt_job] at hp
        exact ht.save sql k hp
    · intro n i a ho m t rest hnext ht hend p hp
      rw [attempt_job] at hp
      exact answered_attempt hp (ht.query p hp) (hsafe n i a ho m t rest p hnext hp) hend
  · cases o with
    | saveSqlData sql => simpa [step, saveSqlData] using h.sent
    | queryHeroInfo a t gs => simpa [step, queryHeroInfo] using h.sent
    | onSaveToClose => exact h.sent
    | realConnect n i => exact h.sent
    | work n i a => exact h.sent
    | run =>
      exact runCallbacks_inv (I := fun u => ∀ m ∈ u.sent, Absent m) h.sent
        fun t ht u hu => absent_callback (h.tasks.finished t ht) hu
  · cases o with
    | saveSqlData sql => simpa [step, saveSqlData] using h.kept
    | queryHeroInfo a t gs => simpa [step, queryHeroInfo] using h.kept
    | onSaveToClose => exact h.kept
    | realConnect n i => exact h.kept
    | work n i a =>
      simp only [step, work]
      split
      · exact h.kept
      · rename_i m t rest hnext
        have ht : GoodTask t := everyTask_next h.tasks hnext
        dsimp only
        rcases attempt_db (exec (charDatabase C E)) s.srv.mysql t a with hd | hd
        · rw [hd]; exact h.kept
        · rw [hd]
          cases hjob : t.job with
          | heroInfo p => exact h.kept
          | heroDeals p => exact h.kept
          | save sql k => exact exec_clean (ht.save sql k hjob) h.kept
    | run => simpa [step] using h.kept

theorem sysInv_step (s : Sys C E) (o : SysOp C E) (h : SysInv s) (hsafe : Safe s o) : SysInv (sysStep s o) := by
  have hcreate : ∀ (a : ℕ) (hero : Hero C), hero.failed = false → SysInv (createHero s a hero) := by
    intro a hero hf
    unfold createHero
    split
    · exact h
    · refine ⟨h.tasks, h.sent, ?_, h.toDB, h.kept⟩
      intro a' h' hh
      rcases eq_or_ne a' a with rfl | ha
      · simp only [Function.update_self, Option.some.injEq] at hh
        rw [← hh]; exact hf
      · simp only [Function.update_of_ne ha] at hh
        exact h.heroes a' h' hh
  have htoDB : ∀ sql : Sql C E, Clean sql → SysInv { s with toDB := s.toDB ++ [sql] } := by
    intro sql hclean
    refine ⟨h.tasks, h.sent, h.heroes, ?_, h.kept⟩
    intro sql' hs
    rcases List.mem_append.1 hs with hs | hs
    · exact h.toDB sql' hs
    · rw [List.mem_singleton.1 hs]; exact hclean
  cases o with
  | newSession t a gs =>
    simp only [sysStep, newSession]
    split
    · exact ⟨h.tasks, h.sent, h.heroes, h.toDB, h.kept⟩
    · exact sysInv_srv (s := { s with account := Function.update s.account t (some a) })
        ⟨h.tasks, h.sent, h.heroes, h.toDB, h.kept⟩ (.queryHeroInfo a t gs) (fun _ e => absurd e (by simp))
        fun _ _ _ e => absurd e (by simp)
  | receive i row =>
    simp only [sysStep, receive]
    split
    · exact h
    · rename_i t gs ans hm
      have habsent : Absent (.needCreateHero t gs ans) := h.sent _ (List.mem_of_getElem? hm)
      split
      · apply hcreate _ _
        simp [habsent.1]
      · exact h
    · split
      · exact hcreate _ _ rfl
      · exact h
  | change a f =>
    refine ⟨h.tasks, h.sent, ?_, h.toDB, h.kept⟩
    intro a' h' hh
    rcases eq_or_ne a' a with rfl | ha
    · simp only [sysStep, change, Function.update_self, Option.map_eq_some_iff] at hh
      obtain ⟨h0, hh0, rfl⟩ := hh
      exact h.heroes a' h0 hh0
    · simp only [sysStep, change, Function.update_of_ne ha] at hh
      exact h.heroes a' h' hh
  | saveHero a =>
    simp only [sysStep, saveHero]
    split
    · rename_i hero hh
      apply htoDB _
      intro a' row' e
      have hf := h.heroes a hero hh
      rw [hf] at e
      exact absurd (Sql.replaceCharacter.inj e).2.2 Bool.false_ne_true
    · exact h
  | destroyHero a =>
    refine ⟨h.tasks, h.sent, ?_, h.toDB, h.kept⟩
    intro a' h' hh
    rcases eq_or_ne a' a with rfl | ha
    · simp [sysStep] at hh
    · simp only [sysStep, Function.update_of_ne ha] at hh
      exact h.heroes a' h' hh
  | updateCharacter f => exact htoDB _ fun a row e => absurd e (by simp)
  | updateDeals f => exact htoDB _ fun a row e => absurd e (by simp)
  | saveSqlData =>
    simp only [sysStep]
    split
    · exact h
    · rename_i sql rest hs
      have hclean : Clean sql := h.toDB sql (hs ▸ List.mem_cons_self)
      have hrest : SysInv { s with toDB := rest } :=
        ⟨h.tasks, h.sent, h.heroes, fun sql' hm => h.toDB sql' (hs ▸ List.mem_cons_of_mem sql hm), h.kept⟩
      exact sysInv_srv hrest (.saveSqlData sql) (fun sql' e => Op.saveSqlData.inj e ▸ hclean)
        fun _ _ _ e => absurd e (by simp)
  | onSaveToClose =>
    exact sysInv_srv h .onSaveToClose (fun _ e => absurd e (by simp)) fun _ _ _ e => absurd e (by simp)
  | realConnect n i =>
    exact sysInv_srv h (.realConnect n i) (fun _ e => absurd e (by simp)) fun _ _ _ e => absurd e (by simp)
  | work n i a =>
    apply sysInv_srv h (.work n i a) (fun _ e => absurd e (by simp))
    intro n' i' a' e
    obtain ⟨rfl, rfl, rfl⟩ := Op.work.inj e
    exact hsafe
  | run => exact sysInv_srv h .run (fun _ e => absurd e (by simp)) fun _ _ _ e => absurd e (by simp)

theorem sysInv_start (count : ℕ) (character : ℕ → Option C) (deals : ℕ → List E) :
    SysInv (sysStart count character deals) :=
  ⟨everyTask_start count _, fun _ hm => absurd hm List.not_mem_nil,
    fun _ _ hh => absurd hh (Option.some_ne_none _).symm, fun _ hm => absurd hm List.not_mem_nil, rfl⟩

theorem SysInv.createdOnlyIfAbsent {s : Sys C E} (h : SysInv s) : CreatedOnlyIfAbsent (sysStep s .run) :=
  have hrun := sysInv_step s .run h trivial
  ⟨hrun.sent, hrun.kept⟩

/-! ## The guard is exact -/

/-- an attempt that is not safe: the callback asks for a new hero although the select has failed -/
theorem unsafe_breaks (s : Sys C E) (o : SysOp C E) (hn : ¬Safe s o) :
    ¬CreatedOnlyIfAbsent (sysStep (sysStep s o) .run) := by
  cases o with
  | work n i a =>
    simp only [Safe, not_forall] at hn
    obtain ⟨m, t, rest, p, hnext, hjob, hn⟩ := hn
    obtain ⟨hend, herr, hrow⟩ := unsafe_attempt hjob hn
    intro h
    have hres : (attempt (exec (charDatabase C E)) s.srv.mysql t a).task ∈
        (sysStep s (.work n i a)).srv.db.results := by
      simp [sysStep, step, work, hnext, hend]
    have hjob' : (attempt (exec (charDatabase C E)) s.srv.mysql t a).task.job = .heroInfo p := by
      rw [attempt_job, hjob]
    have habsent := h.absent _ (needCreate_runCallbacks hres hjob' hrow)
    have hsucc : decide ((attempt (exec (charDatabase C E)) s.srv.mysql t a).task.state = .done) = true := habsent.1
    rw [herr] at hsucc
    exact absurd hsucc (by decide)
  | newSession t a gs => exact absurd trivial hn
  | receive i row => exact absurd trivial hn
  | change a f => exact absurd trivial hn
  | saveHero a => exact absurd trivial hn
  | destroyHero a => exact absurd trivial hn
  | updateCharacter f => exact absurd trivial hn
  | updateDeals f => exact absurd trivial hn
  | saveSqlData => exact absurd trivial hn
  | onSaveToClose => exact absurd trivial hn
  | realConnect n i => exact absurd trivial hn
  | run => exact absurd trivial hn

/-- **A hero is created only if it does not exist.** In every state of a run, once the finished queries are called back,
new heroes have been asked for only after a successful select without a row, and no character has been overwritten after
a failed one, exactly when every attempt of the run is `Safe`. -/
theorem created_only_if_absent (count : ℕ) (character : ℕ → Option C) (deals : ℕ → List E) (ops : List (SysOp C E)) :
    (∀ pre, pre <+: ops →
        CreatedOnlyIfAbsent (sysStep (run sysStep (sysStart count character deals) pre) .run)) ↔
      Along sysStep Safe (sysStart count character deals) ops :=
  (along_iff_of (J := fun s => CreatedOnlyIfAbsent (sysStep s .run)) (fun _ h => h.createdOnlyIfAbsent)
    (fun s o _ h => ⟨sysInv_step s o h, fun hc => by_contra fun hn => unsafe_breaks s o hn hc⟩)
    (sysInv_start count character deals)).symm

/-- the select of account 5 is refused by the server, whose row of the account is 7; the default hero is 0, and its
first save overwrites the row -/
theorem failed_select_overwrites :
    ¬∀ (character : ℕ → Option ℕ) (ops : List (SysOp ℕ Unit)),
      CreatedOnlyIfAbsent (run sysStep (sysStart 1 character fun _ => []) ops) := by
  intro h
  have hkept := (h (fun a => if a = 5 then some 7 else none)
    [.newSession 1 5 3, .realConnect 1 0, .work 1 0 (.raised false (.badQuery 1205)), .run, .receive 0 0, .saveHero 5,
      .saveSqlData, .realConnect 3 0, .work 3 0 .done]).kept
  revert hkept
  decide

end DreamHeroes.DB

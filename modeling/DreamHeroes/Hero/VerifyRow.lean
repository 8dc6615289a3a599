/-
The row of an order under verification.

`ReqVerifyDeal` replaces the row of the order by one that lists the order id, the state WaitPrepareToVerify and the
receipt. The account is not listed, so the row belongs to the account the column defaults to; the state of the deal in
memory stays as it is, so the next `SaveHero` writes that state, without the receipt. The query of the deals of the
account never returns the order as one to verify, and the verification is lost with the process.

- `VerifyInv`: wherever a row is (in the table, in a statement, in a result, in the memory of a hero), the state
  WaitPrepareToVerify goes with the default account.
- `verify_row_lost`: in every state of every run, no order under verification of another account has the row the
  verification needs, and no result of a query makes a login create the verification again.
-/
import Mathlib.Tactic
import DreamHeroes.Hero.Payment

namespace DreamHeroes.Hero.Deals

open DreamHeroes.Lib

variable (env : Env)

/-! ## The property -/

/-- the row of an order under verification: account, product, receipt and state -/
def VerifyRow (row : DealRow) (a : ℕ) (e : DealWaitToPay) (receipt : String) : Prop :=
  row.accountId = a ∧ row.keyCode = e.keyCode ∧ row.receipt = receipt ∧ row.completeStatus = .waitPrepareToVerify

/-- the verification `t` is of an order its hero holds -/
def UnderVerification (s : St) (t : VerifyDealHttpTaskIOS) (e : DealWaitToPay) : Prop :=
  t ∈ s.verifies ∧ ∃ h, s.heroes t.acc = some h ∧ h.dealsWaitToPay[t.orderId]? = some e

/-- every order under verification has its row, once the statements sent have been executed -/
def VerifySurvives (s : St) : Prop :=
  ∀ t e, UnderVerification s t e → ∃ row, (settled env s)[t.orderId]? = some row ∧ VerifyRow row t.acc e t.receipt

/-! ## The invariant -/

/-- the state WaitPrepareToVerify goes with the default account -/
def DefaultRow (row : DealRow) : Prop := row.completeStatus = .waitPrepareToVerify → row.accountId = env.dflt.accountId

def DefaultTable (t : Std.TreeMap ℤ DealRow) : Prop := ∀ (o : ℤ) (row : DealRow), t[o]? = some row → DefaultRow env row

/-- the same of the values of a statement; the REPLACE of `ReqVerifyDeal` lists no account -/
def DefaultStmt : Stmt → Prop
  | .deals rows => ∀ v ∈ rows, DefaultRow env (rowOf env v)
  | _ => True

structure VerifyInv (s : St) : Prop where
  account : ∀ a h, s.heroes a = some h → h.account = a
  keyed : ∀ a h, s.heroes a = some h → Keyed h
  memory : ∀ a h o, s.heroes a = some h → dealType h o = some .waitPrepareToVerify → a = env.dflt.accountId
  table : DefaultTable env s.table
  toDB : ∀ stmt ∈ s.toDB, DefaultStmt env stmt
  fromDB : ∀ r ∈ s.fromDB, ∀ d ∈ r.2, d.completeStatus = .waitPrepareToVerify → r.1 = env.dflt.accountId

variable {env}

theorem defaultTable_applyStmt {t : Std.TreeMap ℤ DealRow} {stmt : Stmt} (ht : DefaultTable env t)
    (hstmt : DefaultStmt env stmt) : DefaultTable env (applyStmt env t stmt) := by
  cases stmt with
  | character row => exact ht
  | deals rows =>
    intro o row hrow
    rcases replaceDeals_get env hrow with ⟨v, hv, -, rfl⟩ | hold
    · exact hstmt v hv
    · exact ht o row hold
  | verify orderId completeStatus receipt =>
    intro o row hrow
    rw [applyStmt, get_insert] at hrow
    split_ifs at hrow with heq
    · rw [← Option.some.inj hrow]
      exact fun _ => rfl
    · exact ht o row hrow

theorem defaultTable_settled {s : St} (h : VerifyInv env s) : DefaultTable env (settled env s) :=
  inv_run (fun _ _ ht hstmt => defaultTable_applyStmt ht hstmt) h.table
    (Along.of_forall s.table s.toDB fun _ stmt hmem => h.toDB stmt hmem)

/-- what the query returns are rows of the account -/
theorem mem_dbDoQueryHeroDeals {t : Std.TreeMap ℤ DealRow} {a : ℕ} {d : MsgDealInfo} (hd : d ∈ dbDoQueryHeroDeals t a) :
    ∃ row, t[d.order]? = some row ∧ row.accountId = a ∧ d.completeStatus = row.completeStatus := by
  obtain ⟨⟨o, row⟩, hmem, rfl⟩ := List.mem_map.1 hd
  obtain ⟨hmem, hcond⟩ := List.mem_filter.1 hmem
  exact ⟨row, Std.TreeMap.mem_toList_iff_getElem?_eq_some.1 hmem, (of_decide_eq_true hcond).1, rfl⟩

/-- the values of `SaveHero` -/
theorem defaultStmt_saveHero {s : St} (h : VerifyInv env s) {a : ℕ} {x : DreamHero} (hx : s.heroes a = some x) :
    ∀ stmt ∈ saveHero env.time x s.now, DefaultStmt env stmt := by
  have hrows : DefaultStmt env (.deals (dealRows env.time x s.now)) := by
    intro v hv hstatus
    obtain ⟨htype, hacc⟩ := mem_dealRows env (h.keyed a x hx) hv
    have hdflt : a = env.dflt.accountId := h.memory a x v.orderId hx (htype.trans (congrArg some hstatus))
    calc v.accountId = x.account := hacc
      _ = a := h.account a x hx
      _ = env.dflt.accountId := hdflt
  intro stmt hstmt
  unfold saveHero at hstmt
  rcases List.mem_cons.1 hstmt with rfl | hstmt
  · trivial
  · split_ifs at hstmt with hempty
    · exact absurd hstmt List.not_mem_nil
    · rw [List.mem_singleton.1 hstmt]
      exact hrows

theorem defaultStmt_offline (now : ℕ) (orderId : ℤ) (acc : ℕ) (productId : String) (status : ℤ) :
    DefaultStmt env (offlineHeroDealWaitToPay env now orderId acc productId status) := by
  intro v hv hstatus
  rw [List.mem_singleton.1 hv] at hstatus
  simp only [rowOf] at hstatus
  split_ifs at hstatus

/-! ### Steps -/

theorem verifyInv_congr {s s' : St} (h : VerifyInv env s) (hh : s'.heroes = s.heroes) (ht : s'.table = s.table)
    (hd : s'.toDB = s.toDB) (hr : s'.fromDB = s.fromDB) : VerifyInv env s' :=
  ⟨fun a x hx => h.account a x (hh ▸ hx), fun a x hx => h.keyed a x (hh ▸ hx), fun a x o hx => h.memory a x o (hh ▸ hx),
    ht ▸ h.table, hd ▸ h.toDB, hr ▸ h.fromDB⟩

theorem verifyInv_emit {s : St} (h : VerifyInv env s) {stmts : List Stmt} (hs : ∀ stmt ∈ stmts, DefaultStmt env stmt) :
    VerifyInv env (emit s stmts) :=
  ⟨h.account, h.keyed, h.memory, h.table,
    fun stmt hmem => (List.mem_append.1 hmem).elim (h.toDB stmt) (hs stmt), h.fromDB⟩

theorem verifyInv_setHero {s : St} (h : VerifyInv env s) {a : ℕ} {x : DreamHero} (hacc : x.account = a) (hk : Keyed x)
    (hm : ∀ o, dealType x o = some .waitPrepareToVerify → a = env.dflt.accountId) :
    VerifyInv env (setHero s a (some x)) := by
  refine ⟨?_, ?_, ?_, h.table, h.toDB, h.fromDB⟩
  · intro b y hy
    rcases update_some hy with ⟨rfl, rfl⟩ | ⟨-, hy⟩
    · exact hacc
    · exact h.account b y hy
  · intro b y hy
    rcases update_some hy with ⟨rfl, rfl⟩ | ⟨-, hy⟩
    · exact hk
    · exact h.keyed b y hy
  · intro b y o hy ho
    rcases update_some hy with ⟨rfl, rfl⟩ | ⟨-, hy⟩
    · exact hm o ho
    · exact h.memory b y o hy ho

theorem verifyInv_pays {s : St} (h : VerifyInv env s) {a : ℕ} {x x' : DreamHero} {orders : List ℤ}
    (hx : s.heroes a = some x) (hp : Pays x x' orders) : VerifyInv env (setHero s a (some x')) :=
  verifyInv_setHero h (hp.account.trans (h.account a x hx)) (hp.keyed (h.keyed a x hx))
    fun o ho => h.memory a x o hx (hp.verify o ho)

theorem verifyInv_pay {s : St} (h : VerifyInv env s) {a : ℕ} {x : DreamHero} (hx : s.heroes a = some x)
    (keyCode : String) (status orderId : ℤ) (error : GameError) :
    VerifyInv env (pay env s a x keyCode status orderId error) :=
  verifyInv_congr (verifyInv_pays h hx (pays_addDealPay env s.now x keyCode status orderId error)) rfl rfl rfl rfl

theorem verifyInv_createDone {s : St} (h : VerifyInv env s) (t : CreateDealHttpTask) :
    VerifyInv env (createDone s t) := by
  unfold createDone
  split
  · exact h
  · rename_i x hx
    rcases addDealWaitToPay_cases x t.keyCode t.status t.price t.orderId t.error with heq | ⟨-, -, e, hkey, htype, heq⟩
    · rw [heq]
      exact verifyInv_pays h hx (Pays.refl x)
    · rw [heq]
      refine verifyInv_setHero h (h.account t.acc x hx) ?_ ?_
      · intro o e' he'
        simp only [get_insert] at he'
        split_ifs at he' with ho
        · rw [← Option.some.inj he', hkey, ho]
        · exact h.keyed t.acc x hx o e' he'
      · intro o ho
        rw [dealType_insert, htype] at ho
        split_ifs at ho with heq
        · exact absurd (Option.some.inj ho) (by decide)
        · exact h.memory t.acc x o hx ho

theorem verifyInv_verifyDone {s : St} (h : VerifyInv env s) (t : VerifyDealHttpTaskIOS) :
    VerifyInv env (verifyDone env s t) := by
  unfold verifyDone
  split
  · rename_i x hx
    exact verifyInv_pay h hx t.productId t.status t.orderId t.error
  · split_ifs with herr
    · apply verifyInv_emit h
      intro stmt hstmt
      rw [List.mem_singleton.1 hstmt]
      exact defaultStmt_offline s.now t.orderId t.acc t.productId t.status
    · exact h

theorem verifyInv_reqVerifyDeal {s : St} (h : VerifyInv env s) (a : ℕ) (orderId : ℤ) (receipt : String) :
    VerifyInv env (reqVerifyDeal s a orderId receipt) := by
  have hstmt : ∀ stmt ∈ [Stmt.verify orderId .waitPrepareToVerify receipt], DefaultStmt env stmt := by
    intro stmt hmem
    rw [List.mem_singleton.1 hmem]
    trivial
  unfold reqVerifyDeal
  split
  · exact h
  · split
    · exact h
    · exact verifyInv_congr (verifyInv_emit h hstmt) rfl rfl rfl rfl

/-- a login: a loaded deal that waits for its verification is one of the default account -/
theorem verifyInv_createHero {s : St} (h : VerifyInv env s) (a : ℕ) (x : DreamHero) (deals : List MsgDealInfo)
    (hdeals : ∀ d ∈ deals, d.completeStatus = .waitPrepareToVerify → a = env.dflt.accountId) :
    VerifyInv env (createHero env s a x deals) := by
  unfold createHero
  split
  · exact h
  · set x0 : DreamHero := { x with account := a, dealsWaitToPay := loadDeals {} deals } with hx0
    have hload : ∀ (o : ℤ) (e : DealWaitToPay), x0.dealsWaitToPay[o]? = some e →
        e.orderId = o ∧ ∃ d ∈ deals, d.order = o ∧ d.completeStatus = e.type := fun o e he => loadDeals_new he
    obtain ⟨recs, hp, -, -⟩ := replay_spec env s.now x0.dealsWaitToPay.keys { hero := x0 }
    refine verifyInv_congr (verifyInv_setHero h (a := a) hp.account (hp.keyed fun o e he => (hload o e he).1)
      ?_) rfl rfl rfl rfl
    intro o ho
    obtain ⟨e, he, htype⟩ := Option.map_eq_some_iff.1 (hp.verify o ho)
    obtain ⟨-, d, hd, -, hstatus⟩ := hload o e he
    exact hdeals d hd (hstatus.trans htype)

theorem verifyInv_step (s : St) (o : Op) (h : VerifyInv env s) : VerifyInv env (step env s o) := by
  cases o with
  | queryHeroDeals a =>
    refine ⟨h.account, h.keyed, h.memory, h.table, h.toDB, ?_⟩
    intro r hr d hd hstatus
    rcases List.mem_append.1 hr with hr | hr
    · exact h.fromDB r hr d hd hstatus
    · rw [List.mem_singleton.1 hr] at hd ⊢
      obtain ⟨row, hrow, hacc, hsame⟩ := mem_dbDoQueryHeroDeals hd
      calc a = row.accountId := hacc.symm
        _ = env.dflt.accountId := h.table d.order row hrow (hsame.symm.trans hstatus)
  | heroData i x =>
    simp only [step]
    cases hr : s.fromDB[i]? with
    | none => exact h
    | some r =>
      have h' : VerifyInv env { s with fromDB := s.fromDB.eraseIdx i } :=
        ⟨h.account, h.keyed, h.memory, h.table, h.toDB, fun r' hr' => h.fromDB r' (List.mem_of_mem_eraseIdx hr')⟩
      exact verifyInv_createHero h' r.1 x r.2 (h.fromDB r (List.mem_of_getElem? hr))
  | needCreateHero a x =>
    simp only [step]
    split
    · exact h
    · refine verifyInv_setHero h rfl ?_ ?_
      · intro o e he
        simp at he
      · intro o ho
        simp [dealType] at ho
  | request a f =>
    simp only [step]
    split
    · exact h
    · rename_i x hx
      have hp : Pays x { f x with account := x.account, dealsWaitToPay := x.dealsWaitToPay } [] := Pays.of_eq rfl rfl
      exact verifyInv_pays h hx hp
  | reqCrearteDeal a keyCode =>
    simp only [step]
    split
    · exact h
    · rename_i x hx
      exact verifyInv_congr (verifyInv_pays h hx (pays_giveUpDeals x)) rfl rfl rfl rfl
  | reqApplyHeroDeal a keyCode =>
    simp only [step]
    split
    · exact h
    · exact verifyInv_congr h rfl rfl rfl rfl
  | reqVerifyDeal a orderId receipt => exact verifyInv_reqVerifyDeal h a orderId receipt
  | clinchADealNotify acc productId orderId =>
    simp only [step]
    split_ifs with hacc
    · exact h
    · split
      · rename_i x hx
        exact verifyInv_pay h hx productId 0 orderId .no
      · apply verifyInv_emit h
        intro stmt hstmt
        rw [List.mem_singleton.1 hstmt]
        exact defaultStmt_offline s.now orderId acc productId 0
  | createDealDone i reply =>
    simp only [step]
    split
    · exact h
    · rename_i t ht
      have h' : VerifyInv env { s with creates := s.creates.eraseIdx i } := verifyInv_congr h rfl rfl rfl rfl
      exact verifyInv_createDone h' (t.excute reply)
  | verifyDealDone i confirm finish =>
    simp only [step]
    split
    · exact h
    · rename_i t ht
      have h' : VerifyInv env { s with verifies := s.verifies.eraseIdx i } := verifyInv_congr h rfl rfl rfl rfl
      exact verifyInv_verifyDone h' (t.excute confirm finish)
  | saveHero a =>
    simp only [step]
    split
    · exact h
    · rename_i x hx
      exact verifyInv_emit h (defaultStmt_saveHero h hx)
  | destroy a =>
    exact ⟨fun b y hy => h.account b y (of_update_none hy), fun b y hy => h.keyed b y (of_update_none hy),
      fun b y o hy => h.memory b y o (of_update_none hy), h.table, h.toDB, h.fromDB⟩
  | execute =>
    simp only [step]
    split
    · exact h
    · rename_i stmt rest hdb
      have hmem : ∀ stmt' ∈ stmt :: rest, DefaultStmt env stmt' := hdb ▸ h.toDB
      exact ⟨h.account, h.keyed, h.memory, defaultTable_applyStmt h.table (hmem stmt List.mem_cons_self),
        fun stmt' hstmt' => hmem stmt' (List.mem_cons_of_mem stmt hstmt'), h.fromDB⟩
  | tick => exact verifyInv_congr h rfl rfl rfl rfl
  | restart =>
    exact ⟨fun _ _ hy => absurd hy.symm (Option.some_ne_none _), fun _ _ hy => absurd hy.symm (Option.some_ne_none _),
      fun _ _ _ hy => absurd hy.symm (Option.some_ne_none _), h.table, h.toDB, fun _ hr => absurd hr List.not_mem_nil⟩

theorem verifyInv_start : VerifyInv env start :=
  ⟨fun _ _ hy => absurd hy.symm (Option.some_ne_none _), fun _ _ hy => absurd hy.symm (Option.some_ne_none _),
    fun _ _ _ hy => absurd hy.symm (Option.some_ne_none _), fun _ _ hrow => by simp [start] at hrow,
    fun _ hs => absurd hs List.not_mem_nil, fun _ hr => absurd hr List.not_mem_nil⟩

/-- a login from the rows of an account creates no verification -/
theorem setInfo_verifies {t : Std.TreeMap ℤ DealRow} (ht : DefaultTable env t) {a : ℕ} (ha : a ≠ env.dflt.accountId)
    (now : ℕ) (x : DreamHero) :
    (setInfo env now { x with account := a, dealsWaitToPay := {} } (dbDoQueryHeroDeals t a)).verifies = [] := by
  unfold setInfo
  obtain ⟨recs, -, -, hv⟩ := replay_spec env now (loadDeals {} (dbDoQueryHeroDeals t a)).keys
    { hero := { x with account := a, dealsWaitToPay := loadDeals {} (dbDoQueryHeroDeals t a) } }
  refine hv fun o ho => ha ?_
  obtain ⟨e, he, htype⟩ := Option.map_eq_some_iff.1 ho
  obtain ⟨-, d, hd, rfl, hstatus⟩ := loadDeals_new he
  obtain ⟨row, hrow, hacc, hsame⟩ := mem_dbDoQueryHeroDeals hd
  have hrowStatus : row.completeStatus = .waitPrepareToVerify :=
    calc row.completeStatus = d.completeStatus := hsame.symm
      _ = _ := hstatus
      _ = _ := htype
  exact hacc.symm.trans (ht d.order row hrow hrowStatus)

/-- **The verification is lost.** In every state of every run, no order under verification of an account other than the
default one has its row; and a login from the rows of such an account creates no verification. -/
theorem verify_row_lost (env : Env) (ops : List Op) (a : ℕ) (ha : a ≠ env.dflt.accountId) :
    let s := run (step env) start ops
    (∀ t e, UnderVerification s t e → t.acc = a →
      ¬∃ row, (settled env s)[t.orderId]? = some row ∧ VerifyRow row t.acc e t.receipt) ∧
    ∀ (now : ℕ) (x : DreamHero), (setInfo env now { x with account := a, dealsWaitToPay := {} }
      (dbDoQueryHeroDeals (settled env s) a)).verifies = [] := by
  intro s
  have hinv : VerifyInv env s := inv_run_all verifyInv_step ops verifyInv_start
  have htable : DefaultTable env (settled env s) := defaultTable_settled hinv
  refine ⟨?_, setInfo_verifies htable ha⟩
  intro t e _ hacc
  rintro ⟨row, hrow, hrowAcc, -, -, hstatus⟩
  have hdflt : a = env.dflt.accountId :=
    calc a = t.acc := hacc.symm
      _ = row.accountId := hrowAcc.symm
      _ = env.dflt.accountId := htable t.orderId row hrow hstatus
  exact ha hdflt

/-- a hero orders, and asks for the verification of the order -/
def verifying : List Op := ordered ++ [.reqVerifyDeal 5 7 "receipt", .execute]

theorem verifying_held :
    ∃ e, UnderVerification (run (step smallShop) start verifying)
      { acc := 5, receipt := "receipt", orderId := 7 } e := by
  let s := run (step smallShop) start verifying
  have hmem : { acc := 5, receipt := "receipt", orderId := 7 } ∈ s.verifies := by decide
  have hheld : ((s.heroes 5).bind fun x => x.dealsWaitToPay[(7 : ℤ)]?).isSome = true := by decide
  obtain ⟨e, he⟩ := Option.isSome_iff_exists.1 hheld
  obtain ⟨x, hx, hdeal⟩ := Option.bind_eq_some_iff.1 he
  exact ⟨e, hmem, x, hx, hdeal⟩

theorem verify_row_lost_receipt :
    ∃ e, ¬∃ row, (settled smallShop (run (step smallShop) start verifying))[(7 : ℤ)]? = some row ∧
      VerifyRow row 5 e "receipt" := by
  obtain ⟨e, he⟩ := verifying_held
  exact ⟨e, (verify_row_lost smallShop verifying 5 (by decide)).1 _ e he rfl⟩

/-- the row of the order belongs to the account 0 -/
theorem verification_forgotten : ¬∀ (env : Env) (ops : List Op), VerifySurvives env (run (step env) start ops) := by
  intro h
  obtain ⟨e, he⟩ := verifying_held
  obtain ⟨row, hrow, hacc, -⟩ := h smallShop verifying _ e he
  have haccount :
    ((settled smallShop (run (step smallShop) start verifying))[(7 : ℤ)]?).map DealRow.accountId = some 0 := by
    decide
  rw [hrow] at haccount
  exact absurd (hacc.symm.trans (Option.some.inj haccount)) (by decide)

end DreamHeroes.Hero.Deals

/-
The deals of the shop: orders in the memory of a hero, in the table `deal_wait_to_pay`, and in flight.

- `DreamHero.addDealPay`, `addDealWaitToPay`, `ReqCrearteDeal`, `ReqVerifyDeal`, `SaveHero`, and the replay of the
  loaded deals by `set_info`.
- `OfflineHeroDealWaitToPay`: what the manager writes for a hero that is not in memory.
- `CreateDealHttpTask` and `VerifyDealHttpTaskIOS`: `excute` reads the replies of the platform, `logicExcute` runs in
  the main loop when the task is complete.
- `applyStmt`: a REPLACE writes the columns it lists and resets the others to their defaults.

The statements travel to the database in one FIFO channel and are executed in order; the query of the deals may be
executed at any time, also before statements sent earlier. The order id is the key of the table.
-/
import Mathlib.Tactic
import DreamHeroes.Lib.Machine
import DreamHeroes.Hero.DreamHero

namespace DreamHeroes.Hero.Deals

open DreamHeroes.Lib

/-! ## State -/

/-- the codes of `message::GameError` the deals use -/
inductive GameError where
  | no
  | unknow
  | buyGoldFailedNotFoundConfig
  | buyGoldFailedNotFoundOrder
  | buyGoldFailedTheOrderHaveBeenCompleted
  | createDealFailedTheHttpErrorRespone
  | createDealFailedTheHttpResponeFailed
  | createDealDailedTheHttpResponeErrorProductId
  | verifyDealFailedTheHttpErrorRespone
  | verifyDealFailedTheHttpResponeFailed
deriving DecidableEq, Repr

/-- a row of `deal_wait_to_pay`, by its order id -/
structure DealRow where
  accountId : ℕ
  keyCode : String
  status : ℤ
  price : ℤ
  dealTime : String
  completeStatus : DealStatusType
  receipt : String
deriving DecidableEq, Repr

structure MsgDealInfo where
  order : ℤ
  productId : String
  status : ℤ
  completeStatus : DealStatusType
  curReceipt : String
deriving DecidableEq, Repr

/-- what `dealPayRecord` logs: the gold and the jewel that were added, and what the hero has then -/
structure DealPayRecord where
  account : ℕ
  keyCode : String
  status : ℤ
  orderId : ℤ
  addGold : ℤ
  gold : ℤ
  addJewel : ℤ
  jewel : ℤ
deriving DecidableEq, Repr

structure CreateDealHttpTask where
  acc : ℕ
  keyCode : String
  status : ℤ := 0
  price : ℤ := 0
  orderId : ℤ := 0
  error : GameError := .no
deriving DecidableEq, Repr

structure VerifyDealHttpTaskIOS where
  acc : ℕ
  receipt : String
  orderId : ℤ
  productId : String := ""
  status : ℤ := 0
  error : GameError := .no
deriving DecidableEq, Repr

/-- what the hero and the tables come from outside: the clock's text, the shop of a channel (gold and jewel of a
product), the sales promotion at a time, the defaults of the columns -/
structure Env where
  time : ℕ → String
  goldShop : ℤ → String → Option (ℤ × ℤ)
  scaleGold : ℕ → ℤ → ℤ
  scaleJewel : ℕ → ℤ → ℤ
  dflt : DealRow

/-- `toDB` are the statements sent and not yet executed, `fromDB` the results of executed queries, with their account;
`records` is the log of `dealPayRecord` -/
structure St where
  heroes : ℕ → Option DreamHero := fun _ => none
  table : Std.TreeMap ℤ DealRow := {}
  toDB : List Stmt := []
  fromDB : List (ℕ × List MsgDealInfo) := []
  creates : List CreateDealHttpTask := []
  verifies : List VerifyDealHttpTaskIOS := []
  records : List DealPayRecord := []
  now : ℕ := 0

variable (env : Env)

/-! ## The database -/

/-- the row a value of the two long REPLACE statements makes; `receipt` is not listed -/
def rowOf (v : DealValues) : DealRow :=
  { env.dflt with
    accountId := v.accountId, keyCode := v.keyCode, status := v.status, price := v.price, dealTime := v.dealTime,
    completeStatus := v.completeStatus }

/-- the row of the REPLACE of `ReqVerifyDeal` -/
def verifyRow (completeStatus : DealStatusType) (receipt : String) : DealRow :=
  { env.dflt with completeStatus := completeStatus, receipt := receipt }

def replaceDeals (t : Std.TreeMap ℤ DealRow) (rows : List DealValues) : Std.TreeMap ℤ DealRow :=
  rows.foldl (fun t v => t.insert v.orderId (rowOf env v)) t

def applyStmt (t : Std.TreeMap ℤ DealRow) : Stmt → Std.TreeMap ℤ DealRow
  | .character _ => t
  | .deals rows => replaceDeals env t rows
  | .verify orderId completeStatus receipt => t.insert orderId (verifyRow env completeStatus receipt)

def dealInfo (e : ℤ × DealRow) : MsgDealInfo :=
  { order := e.1, productId := e.2.keyCode, status := e.2.status, completeStatus := e.2.completeStatus,
    curReceipt := e.2.receipt }

/-- `account_id` is the account and `complete_status` is not Complete -/
def dbDoQueryHeroDeals (t : Std.TreeMap ℤ DealRow) (a : ℕ) : List MsgDealInfo :=
  (t.toList.filter fun e => e.2.accountId = a ∧ e.2.completeStatus ≠ .complete).map dealInfo

/-! ## The hero -/

/-- the hero after `addDealPay`, the error it answers, and what it added -/
structure PayResult where
  hero : DreamHero
  error : GameError
  addGold : ℤ := 0
  addJewel : ℤ := 0

def payEntry (now : ℕ) (h : DreamHero) (config : ℤ × ℤ) (entry : DealWaitToPay) (status orderId : ℤ) : PayResult :=
  if status = 0 then
    match entry.type with
    | .waitToPay | .waitPrepareToPay =>
      let addGold := env.scaleGold now config.1
      let addJewel := env.scaleJewel now config.2
      { hero := { h with
          dealsWaitToPay := h.dealsWaitToPay.insert orderId { entry with type := .complete }
          info := { h.info with gold := h.info.gold + addGold, jewel := h.info.jewel + addJewel } }
        error := .no, addGold := addGold, addJewel := addJewel }
    | .complete => { hero := h, error := .buyGoldFailedTheOrderHaveBeenCompleted }
    | _ => { hero := h, error := .unknow }
  else
    { hero := { h with dealsWaitToPay := h.dealsWaitToPay.insert orderId { entry with type := .failed } }
      error := .unknow }

def addDealPay (now : ℕ) (h : DreamHero) (keyCode : String) (status orderId : ℤ) (error : GameError) : PayResult :=
  if error = .no then
    match env.goldShop h.channel keyCode with
    | none => { hero := h, error := .buyGoldFailedNotFoundConfig }
    | some config =>
      match h.dealsWaitToPay[orderId]? with
      | none => { hero := h, error := .buyGoldFailedNotFoundOrder }
      | some entry => payEntry env now h config entry status orderId
  else { hero := h, error := .unknow }

/-- the record at the end of `addDealPay` -/
def payRecords (r : PayResult) (keyCode : String) (status orderId : ℤ) : List DealPayRecord :=
  if r.error = .no then
    [{ account := r.hero.account, keyCode := keyCode, status := status, orderId := orderId, addGold := r.addGold,
       gold := r.hero.info.gold, addJewel := r.addJewel, jewel := r.hero.info.jewel }]
  else []

def addDealWaitToPay (h : DreamHero) (keyCode : String) (status price orderId : ℤ) (error : GameError) : DreamHero :=
  if error = .no then
    match h.dealsWaitToPay[orderId]? with
    | some _ => h
    | none =>
      let entry : DealWaitToPay :=
        { keyCode := keyCode, status := status, price := price, orderId := orderId, type := .waitToPay }
      { h with dealsWaitToPay := h.dealsWaitToPay.insert orderId entry }
  else h

/-- the loop of `ReqCrearteDeal`, with its branch for `WIN32`: the hero gives up every deal that waits to be paid. The
other branch increments the iterator of the deal that was erased (`Common.EraseLoops`). -/
def giveUpDeals (h : DreamHero) : DreamHero :=
  { h with dealsWaitToPay := h.dealsWaitToPay.filter fun _ e => e.type ≠ .waitToPay }

/-- the loop of `set_info` over the deals of the message; a later deal with the same order id is dropped -/
def loadDeals (m : Std.TreeMap ℤ DealWaitToPay) (deals : List MsgDealInfo) : Std.TreeMap ℤ DealWaitToPay :=
  deals.foldl (fun m d => m.insertIfNew d.order
    { keyCode := d.productId, orderId := d.order, price := 0, status := d.status, receipt := d.curReceipt,
      type := d.completeStatus }) m

/-- what the replay of `set_info` has done so far -/
structure Replay where
  hero : DreamHero
  records : List DealPayRecord := []
  verifies : List VerifyDealHttpTaskIOS := []

def replayDeal (now : ℕ) (r : Replay) (orderId : ℤ) : Replay :=
  match r.hero.dealsWaitToPay[orderId]? with
  | none => r
  | some e =>
    match e.type with
    | .waitPrepareToPay =>
      let p := addDealPay env now r.hero e.keyCode e.status e.orderId .no
      { r with hero := p.hero, records := r.records ++ payRecords p e.keyCode e.status e.orderId }
    | .waitPrepareToVerify =>
      { r with verifies := r.verifies ++ [{ acc := r.hero.account, receipt := e.receipt, orderId := e.orderId }] }
    | _ => r

/-- the part of `set_info` that is about deals; `h` is what it makes of the rest of the message -/
def setInfo (now : ℕ) (h : DreamHero) (deals : List MsgDealInfo) : Replay :=
  let m := loadDeals h.dealsWaitToPay deals
  m.keys.foldl (replayDeal env now) { hero := { h with dealsWaitToPay := m } }

/-- the statement of `OfflineHeroDealWaitToPay` -/
def offlineHeroDealWaitToPay (now : ℕ) (orderId : ℤ) (acc : ℕ) (productId : String) (status : ℤ) : Stmt :=
  .deals [{ orderId := orderId, accountId := acc, keyCode := productId, status := status, price := 0,
            dealTime := env.time now, completeStatus := if status = 0 then .waitPrepareToPay else .failed }]

/-! ## The tasks -/

/-- what the JSON reader makes of a reply: a field has the wrong type, a field is empty, or all are there -/
inductive HttpReply (α : Type) where
  | exception
  | missing
  | ok (a : α)

/-- the reply to `third_preorder` -/
structure Preorder where
  status : ℤ
  productId : String
  price : ℤ
  orderId : ℤ

/-- the reply to `third_confirm` -/
structure Confirm where
  status : ℤ
  productId : String
  orderId : ℤ

def CreateDealHttpTask.excute (t : CreateDealHttpTask) : HttpReply Preorder → CreateDealHttpTask
  | .exception => { t with error := .unknow }
  | .missing => { t with error := .createDealFailedTheHttpErrorRespone }
  | .ok r =>
    if r.status = 0 then
      { t with
        status := r.status, price := r.price, orderId := r.orderId
        error := if r.productId = t.keyCode then t.error else .createDealDailedTheHttpResponeErrorProductId }
    else { t with status := r.status, error := .createDealFailedTheHttpResponeFailed }

/-- `finish` is the reply to `order_finish`; a refused confirmation sets no error -/
def VerifyDealHttpTaskIOS.excute (t : VerifyDealHttpTaskIOS) (confirm : HttpReply Confirm) (finish : HttpReply ℤ) :
    VerifyDealHttpTaskIOS :=
  if 10000 < t.receipt.utf8ByteSize then { t with error := .unknow } else
  match confirm with
  | .exception => { t with error := .unknow }
  | .missing => { t with error := .verifyDealFailedTheHttpResponeFailed }
  | .ok r =>
    if r.status = 0 then
      let t := { t with status := r.status, productId := r.productId, orderId := r.orderId }
      match finish with
      | .exception => { t with error := .unknow }
      | .missing => { t with error := .verifyDealFailedTheHttpErrorRespone }
      | .ok status => if status = 0 then t else { t with error := .verifyDealFailedTheHttpResponeFailed }
    else { t with status := r.status }

/-! ## Steps -/

def emit (s : St) (stmts : List Stmt) : St := { s with toDB := s.toDB ++ stmts }

def setHero (s : St) (a : ℕ) (h : Option DreamHero) : St := { s with heroes := Function.update s.heroes a h }

/-- `addDealPay` on the hero `h` of account `a` -/
def pay (s : St) (a : ℕ) (h : DreamHero) (keyCode : String) (status orderId : ℤ) (error : GameError) : St :=
  let r := addDealPay env s.now h keyCode status orderId error
  setHero { s with records := s.records ++ payRecords r keyCode status orderId } a (some r.hero)

/-- `CreateDealHttpTask::logicExcute` -/
def createDone (s : St) (t : CreateDealHttpTask) : St :=
  match s.heroes t.acc with
  | none => s
  | some h => setHero s t.acc (some (addDealWaitToPay h t.keyCode t.status t.price t.orderId t.error))

/-- `VerifyDealHttpTaskIOS::logicExcute` -/
def verifyDone (s : St) (t : VerifyDealHttpTaskIOS) : St :=
  match s.heroes t.acc with
  | some h => pay env s t.acc h t.productId t.status t.orderId t.error
  | none =>
    if t.error = .no then emit s [offlineHeroDealWaitToPay env s.now t.orderId t.acc t.productId t.status] else s

def reqVerifyDeal (s : St) (a : ℕ) (orderId : ℤ) (receipt : String) : St :=
  match s.heroes a with
  | none => s
  | some h =>
    match h.dealsWaitToPay[orderId]? with
    | none => s
    | some _ =>
      let s := emit s [.verify orderId .waitPrepareToVerify receipt]
      { s with verifies := s.verifies ++ [{ acc := a, receipt := receipt, orderId := orderId }] }

/-- `CreateHero` with the data of the database: an object in memory is kept as it is -/
def createHero (s : St) (a : ℕ) (h : DreamHero) (deals : List MsgDealInfo) : St :=
  match s.heroes a with
  | some _ => s
  | none =>
    let r := setInfo env s.now { h with account := a, dealsWaitToPay := {} } deals
    setHero { s with records := s.records ++ r.records, verifies := s.verifies ++ r.verifies } a (some r.hero)

inductive Op where
  /-- the database executes the query of the deals of an account -/
  | queryHeroDeals (a : ℕ)
  /-- a result arrives; `h` is the hero the row of `character` makes -/
  | heroData (i : ℕ) (h : DreamHero)
  /-- the account has no row: `CreateHero` and `LoadFromConfig`, which makes `h` -/
  | needCreateHero (a : ℕ) (h : DreamHero)
  /-- anything else that changes a hero: it keeps the account and the deals -/
  | request (a : ℕ) (f : DreamHero → DreamHero)
  | reqCrearteDeal (a : ℕ) (keyCode : String)
  /-- `ReqApplyHeroDeal` of a product of the shop -/
  | reqApplyHeroDeal (a : ℕ) (keyCode : String)
  | reqVerifyDeal (a : ℕ) (orderId : ℤ) (receipt : String)
  | clinchADealNotify (acc : ℕ) (productId : String) (orderId : ℤ)
  | createDealDone (i : ℕ) (reply : HttpReply Preorder)
  | verifyDealDone (i : ℕ) (confirm : HttpReply Confirm) (finish : HttpReply ℤ)
  | saveHero (a : ℕ)
  | destroy (a : ℕ)
  /-- the database executes the oldest statement -/
  | execute
  | tick
  /-- the game server stops or crashes, and starts again -/
  | restart

def step (s : St) : Op → St
  | .queryHeroDeals a => { s with fromDB := s.fromDB ++ [(a, dbDoQueryHeroDeals s.table a)] }
  | .heroData i h =>
    match s.fromDB[i]? with
    | none => s
    | some r => createHero env { s with fromDB := s.fromDB.eraseIdx i } r.1 h r.2
  | .needCreateHero a h =>
    match s.heroes a with
    | some _ => s
    | none => setHero s a (some { h with account := a, dealsWaitToPay := {} })
  | .request a f =>
    match s.heroes a with
    | none => s
    | some h => setHero s a (some { f h with account := h.account, dealsWaitToPay := h.dealsWaitToPay })
  | .reqCrearteDeal a keyCode =>
    match s.heroes a with
    | none => s
    | some h => setHero { s with creates := s.creates ++ [{ acc := a, keyCode := keyCode }] } a (some (giveUpDeals h))
  | .reqApplyHeroDeal a keyCode =>
    match s.heroes a with
    | none => s
    | some _ => { s with creates := s.creates ++ [{ acc := a, keyCode := keyCode }] }
  | .reqVerifyDeal a orderId receipt => reqVerifyDeal s a orderId receipt
  | .clinchADealNotify acc productId orderId =>
    if acc = 0 then s else
    match s.heroes acc with
    | some h => pay env s acc h productId 0 orderId .no
    | none => emit s [offlineHeroDealWaitToPay env s.now orderId acc productId 0]
  | .createDealDone i reply =>
    match s.creates[i]? with
    | none => s
    | some t => createDone { s with creates := s.creates.eraseIdx i } (t.excute reply)
  | .verifyDealDone i confirm finish =>
    match s.verifies[i]? with
    | none => s
    | some t => verifyDone env { s with verifies := s.verifies.eraseIdx i } (t.excute confirm finish)
  | .saveHero a =>
    match s.heroes a with
    | none => s
    | some h => emit s (saveHero env.time h s.now)
  | .destroy a => setHero s a none
  | .execute =>
    match s.toDB with
    | [] => s
    | stmt :: rest => { s with table := applyStmt env s.table stmt, toDB := rest }
  | .tick => { s with now := s.now + 1 }
  | .restart => { s with heroes := fun _ => none, fromDB := [], creates := [], verifies := [] }

def start : St := {}

/-- the table once every statement sent has been executed -/
def settled (s : St) : Std.TreeMap ℤ DealRow := run (applyStmt env) s.table s.toDB

/-! ## A small shop -/

/-- a shop that sells one thing, and a table whose account column defaults to no account -/
def smallShop : Env where
  time := fun _ => ""
  goldShop := fun _ _ => some (60, 6)
  scaleGold := fun _ gold => gold
  scaleJewel := fun _ jewel => jewel
  dflt := { accountId := 0, keyCode := "", status := 0, price := 0, dealTime := "", completeStatus := .waitToPay,
            receipt := "" }

/-- a hero orders, and is saved -/
def ordered : List Op :=
  [.needCreateHero 5 {}, .reqCrearteDeal 5 "gem", .createDealDone 0 (.ok ⟨0, "gem", 6, 7⟩), .saveHero 5, .execute,
    .execute]

end DreamHeroes.Hero.Deals

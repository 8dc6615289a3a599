/-
How often an order is credited.

An order is credited when `addDealPay` finds it payable, and is complete from then on, in memory and with the next
`SaveHero` in the table. `OfflineHeroDealWaitToPay` writes the row without looking at it: when a notification is
repeated after the hero has gone, the row of an order already credited becomes payable again, and the next login credits
it a second time (`credited_twice`). The same happens when a hero goes before the credit has been saved.

- `CreditInv`: what is payable in memory has not been credited; a credited order whose row will still be payable is
  spent in the memory of its hero, whose next `SaveHero` writes it.
- `creditInv_step`: every step that meets `Safe` keeps it.
- `paid_once`: along `Safe`, no order is credited twice.
-/
import Mathlib.Tactic
import DreamHeroes.Hero.Payment

namespace DreamHeroes.Hero.Deals

open DreamHeroes.Lib

variable (env : Env) (owner : ℤ → ℕ)

/-! ## The property and its guard -/

/-- the orders whose gold and jewel have been added to a hero, oldest first -/
def credits (s : St) : List ℤ := s.records.map DealPayRecord.orderId

/-- no order is credited twice -/
def PaidOnce (s : St) : Prop := (credits s).Nodup

/-- once every statement sent has been executed, the order has a payable row -/
def rowPayable (s : St) (o : ℤ) : Bool := ((settled env s)[o]?).any fun r => payable r.completeStatus

/-- the same, of an account -/
def rowPayableOf (s : St) (a : ℕ) (o : ℤ) : Bool :=
  ((settled env s)[o]?).any fun r => payable r.completeStatus && r.accountId = a

/-- an order becomes payable for an account: it belongs to it and has not been credited -/
def Fresh (s : St) (a : ℕ) (o : ℤ) : Prop := owner o = a ∧ o ∉ credits s

/-- `owner` assigns each order to one account.
- The platform does not give out a credited order again, nor one of another account.
- A payment of a hero that is not in memory is of an order of the account that has not been credited.
- A hero is destroyed, and the server stops, only when no credited order will still have a payable row.
- A deal that a login loads as payable is still payable once the statements sent before have been executed. -/
def Safe (s : St) : Op → Prop
  | .createDealDone i reply =>
    match s.creates[i]? with
    | none => True
    | some t =>
      let t := t.excute reply
      ∀ h, s.heroes t.acc = some h → t.error = .no → h.dealsWaitToPay[t.orderId]? = none →
        Fresh owner s t.acc t.orderId
  | .verifyDealDone i confirm finish =>
    match s.verifies[i]? with
    | none => True
    | some t =>
      let t := t.excute confirm finish
      s.heroes t.acc = none → t.error = .no → t.status = 0 → Fresh owner s t.acc t.orderId
  | .clinchADealNotify acc _ orderId => acc ≠ 0 → s.heroes acc = none → Fresh owner s acc orderId
  | .heroData i _ =>
    match s.fromDB[i]? with
    | none => True
    | some r => s.heroes r.1 = none → ∀ d ∈ r.2, payable d.completeStatus = true → rowPayableOf env s r.1 d.order = true
  | .destroy a => ∀ o ∈ credits s, owner o = a → rowPayable env s o = false
  | .restart => ∀ o ∈ credits s, rowPayable env s o = false
  | _ => True

/-! ## The invariant -/

structure CreditInv (s : St) : Prop where
  account : ∀ a h, s.heroes a = some h → h.account = a
  keyed : ∀ a h, s.heroes a = some h → Keyed h
  fresh : ∀ a h o, s.heroes a = some h → PayableIn h o → Fresh owner s a o
  row : ∀ o row, (settled env s)[o]? = some row → payable row.completeStatus = true → owner o = row.accountId
  spent : ∀ o ∈ credits s, rowPayable env s o = true → ∃ h, s.heroes (owner o) = some h ∧ SpentIn h o
  once : PaidOnce s

variable {env owner}

theorem rowPayable_iff {s : St} {o : ℤ} :
    rowPayable env s o = true ↔ ∃ row, (settled env s)[o]? = some row ∧ payable row.completeStatus = true :=
  Option.any_eq_true _ _

/-- the invariant is about the heroes, the settled table and the records -/
theorem creditInv_congr {s s' : St} (h : CreditInv env owner s) (hh : s'.heroes = s.heroes)
    (ht : settled env s' = settled env s) (hr : s'.records = s.records) : CreditInv env owner s' := by
  have hc : credits s' = credits s := by rw [credits, hr]; rfl
  refine ⟨fun a x hx => h.account a x (hh ▸ hx), fun a x hx => h.keyed a x (hh ▸ hx), ?_,
    fun o row hrow => h.row o row (ht ▸ hrow), ?_, ?_⟩
  · intro a x o hx hp
    obtain ⟨hown, hnew⟩ := h.fresh a x o (hh ▸ hx) hp
    exact ⟨hown, hc ▸ hnew⟩
  · intro o ho hrow
    rw [rowPayable, ht] at hrow
    rw [hh]
    exact h.spent o (hc ▸ ho) hrow
  · rw [PaidOnce, hc]
    exact h.once

/-! ### Heroes -/

/-- payments of a hero in memory -/
theorem creditInv_pays {s s' : St} (h : CreditInv env owner s) {a : ℕ} {x x' : DreamHero} {recs : List DealPayRecord}
    (hx : s.heroes a = some x) (hp : Pays x x' (recs.map DealPayRecord.orderId))
    (hh : s'.heroes = Function.update s.heroes a (some x')) (ht : settled env s' = settled env s)
    (hr : s'.records = s.records ++ recs) : CreditInv env owner s' := by
  have hc : credits s' = credits s ++ recs.map DealPayRecord.orderId := by rw [credits, hr, List.map_append]; rfl
  have hold : ∀ b y, s'.heroes b = some y → b = a ∧ y = x' ∨ b ≠ a ∧ s.heroes b = some y :=
    fun b y hy => update_some (hh ▸ hy)
  have hown : ∀ o ∈ recs.map DealPayRecord.orderId, owner o = a :=
    fun o ho => (h.fresh a x o hx (hp.credited o ho).1).1
  refine ⟨?_, ?_, ?_, fun o row hrow => h.row o row (ht ▸ hrow),
    ?_, ?_⟩
  · intro b y hy
    rcases hold b y hy with ⟨rfl, rfl⟩ | ⟨-, hy⟩
    · exact hp.account.trans (h.account b x hx)
    · exact h.account b y hy
  · intro b y hy
    rcases hold b y hy with ⟨rfl, rfl⟩ | ⟨-, hy⟩
    · exact hp.keyed (h.keyed b x hx)
    · exact h.keyed b y hy
  · intro b y o hy hpay
    rw [Fresh, hc, List.mem_append, not_or]
    rcases hold b y hy with ⟨rfl, rfl⟩ | ⟨hne, hy⟩
    · obtain ⟨hpay, hnew⟩ := hp.payable o hpay
      obtain ⟨ho, hold⟩ := h.fresh b x o hx hpay
      exact ⟨ho, hold, hnew⟩
    · obtain ⟨ho, hold⟩ := h.fresh b y o hy hpay
      exact ⟨ho, hold, fun hmem => hne (ho.symm.trans (hown o hmem))⟩
  · intro o ho hrow
    rw [rowPayable, ht] at hrow
    rw [hc, List.mem_append] at ho
    rw [hh]
    rcases ho with ho | ho
    · obtain ⟨y, hy, hs⟩ := h.spent o ho hrow
      rcases eq_or_ne (owner o) a with heq | hne
      · rw [heq, hx] at hy
        cases hy
        exact ⟨x', by rw [heq, Function.update_self], hp.spent o hs⟩
      · exact ⟨y, by rw [Function.update_of_ne hne, hy], hs⟩
    · exact ⟨x', by rw [hown o ho, Function.update_self], (hp.credited o ho).2⟩
  · rw [PaidOnce, hc]
    refine List.nodup_append.2 ⟨h.once, hp.nodup, ?_⟩
    intro o ho o' ho' heq
    subst heq
    exact (h.fresh a x o hx (hp.credited o ho').1).2 ho

/-- a hero appears, or gets more deals; what is new and payable in it is fresh -/
theorem creditInv_setHero {s : St} (h : CreditInv env owner s) {a : ℕ} {x : DreamHero} (hacc : x.account = a)
    (hk : Keyed x) (hfresh : ∀ o, PayableIn x o → Fresh owner s a o)
    (hspent : ∀ y, s.heroes a = some y → ∀ o, SpentIn y o → SpentIn x o) :
    CreditInv env owner (setHero s a (some x)) := by
  refine ⟨?_, ?_, ?_, h.row, ?_, h.once⟩
  · intro b y hy
    rcases update_some hy with ⟨rfl, rfl⟩ | ⟨-, hy⟩
    · exact hacc
    · exact h.account b y hy
  · intro b y hy
    rcases update_some hy with ⟨rfl, rfl⟩ | ⟨-, hy⟩
    · exact hk
    · exact h.keyed b y hy
  · intro b y o hy hpay
    rcases update_some hy with ⟨rfl, rfl⟩ | ⟨-, hy⟩
    · exact hfresh o hpay
    · exact h.fresh b y o hy hpay
  · intro o ho hrow
    obtain ⟨y, hy, hs⟩ := h.spent o ho hrow
    change ∃ z, Function.update s.heroes a (some x) (owner o) = some z ∧ SpentIn z o
    rcases eq_or_ne (owner o) a with heq | hne
    · rw [heq] at hy
      exact ⟨x, by rw [heq, Function.update_self], hspent y hy o hs⟩
    · exact ⟨y, by rw [Function.update_of_ne hne, hy], hs⟩

/-- heroes go, none of which has a credited order that will still have a payable row -/
theorem creditInv_vanish {s s' : St} (h : CreditInv env owner s)
    (hh : ∀ b y, s'.heroes b = some y → s.heroes b = some y) (ht : settled env s' = settled env s)
    (hr : s'.records = s.records)
    (hkeep : ∀ o ∈ credits s, rowPayable env s o = true → s'.heroes (owner o) = s.heroes (owner o)) :
    CreditInv env owner s' := by
  have hc : credits s' = credits s := by rw [credits, hr]; rfl
  refine ⟨fun b y hy => h.account b y (hh b y hy), fun b y hy => h.keyed b y (hh b y hy), ?_,
    fun o row hrow => h.row o row (ht ▸ hrow), ?_, ?_⟩
  · intro b y o hy hpay
    obtain ⟨ho, hnew⟩ := h.fresh b y o (hh b y hy) hpay
    exact ⟨ho, hc ▸ hnew⟩
  · intro o ho hrow
    rw [rowPayable, ht] at hrow
    rw [hc] at ho
    rw [hkeep o ho hrow]
    exact h.spent o ho hrow
  · rw [PaidOnce, hc]
    exact h.once

/-! ### Statements -/

/-- a REPLACE whose payable rows are of fresh orders -/
theorem creditInv_deals {s : St} (h : CreditInv env owner s) {rows : List DealValues}
    (hrows : ∀ v ∈ rows, payable v.completeStatus = true → Fresh owner s v.accountId v.orderId) :
    CreditInv env owner (emit s [.deals rows]) := by
  have hsettled : settled env (emit s [.deals rows]) = replaceDeals env (settled env s) rows := settled_emit env s _
  refine ⟨h.account, h.keyed, h.fresh, ?_, ?_, h.once⟩
  · intro o row hrow hpay
    rw [hsettled] at hrow
    rcases replaceDeals_get env hrow with ⟨v, hv, rfl, rfl⟩ | hold
    · exact (hrows v hv hpay).1
    · exact h.row o row hold hpay
  · intro o ho hrow
    obtain ⟨row, hget, hpay⟩ := rowPayable_iff.1 hrow
    rw [hsettled] at hget
    rcases replaceDeals_get env hget with ⟨v, hv, rfl, rfl⟩ | hold
    · exact absurd ho (hrows v hv hpay).2
    · exact h.spent o ho (rowPayable_iff.2 ⟨row, hold, hpay⟩)

/-- the REPLACE of `ReqVerifyDeal` leaves a row that is not payable -/
theorem creditInv_verify {s : St} (h : CreditInv env owner s) (orderId : ℤ) (receipt : String) :
    CreditInv env owner (emit s [.verify orderId .waitPrepareToVerify receipt]) := by
  have hget : ∀ {o : ℤ} {row : DealRow},
      (settled env (emit s [.verify orderId .waitPrepareToVerify receipt]))[o]? = some row →
      payable row.completeStatus = true → (settled env s)[o]? = some row := by
    intro o row hrow hpay
    rw [settled_emit, run_cons, run_nil, applyStmt, get_insert] at hrow
    split_ifs at hrow with heq
    · rw [← Option.some.inj hrow] at hpay
      exact absurd hpay Bool.false_ne_true
    · exact hrow
  refine ⟨h.account, h.keyed, h.fresh, fun o row hrow hpay => h.row o row (hget hrow hpay) hpay, ?_,
    h.once⟩
  intro o ho hrow
  obtain ⟨row, hrow, hpay⟩ := rowPayable_iff.1 hrow
  exact h.spent o ho (rowPayable_iff.2 ⟨row, hget hrow hpay, hpay⟩)

theorem creditInv_offline {s : St} (h : CreditInv env owner s) {orderId : ℤ} {acc : ℕ} {productId : String} {status : ℤ}
    (hfresh : status = 0 → Fresh owner s acc orderId) :
    CreditInv env owner (emit s [offlineHeroDealWaitToPay env s.now orderId acc productId status]) := by
  apply creditInv_deals h
  intro v hv hpay
  rw [List.mem_singleton.1 hv] at hpay ⊢
  simp only at hpay
  split_ifs at hpay with hstatus
  · exact hfresh hstatus
  · exact absurd hpay (by decide)

theorem creditInv_saveHero {s : St} (h : CreditInv env owner s) {a : ℕ} {x : DreamHero} (hx : s.heroes a = some x) :
    CreditInv env owner (emit s (saveHero env.time x s.now)) := by
  have hrows : ∀ v ∈ dealRows env.time x s.now, payable v.completeStatus = true →
      Fresh owner s v.accountId v.orderId := by
    intro v hv hpay
    obtain ⟨htype, hacc⟩ := mem_dealRows env (h.keyed a x hx) hv
    rw [hacc, h.account a x hx]
    exact h.fresh a x v.orderId hx ⟨_, htype, hpay⟩
  have hchar : CreditInv env owner (emit s [.character (characterRow env.time x)]) :=
    creditInv_congr h rfl (settled_emit env s _) rfl
  unfold saveHero
  split_ifs with hempty
  · exact hchar
  · have hboth := creditInv_deals hchar hrows
    rw [emit, emit, List.append_assoc] at hboth
    exact hboth

/-! ### Steps -/

theorem creditInv_pay {s : St} (h : CreditInv env owner s) {a : ℕ} {x : DreamHero} (hx : s.heroes a = some x)
    (keyCode : String) (status orderId : ℤ) (error : GameError) :
    CreditInv env owner (pay env s a x keyCode status orderId error) :=
  creditInv_pays h hx (pays_addDealPay env s.now x keyCode status orderId error) rfl rfl rfl

/-- a hero in memory changes, but not in its deals -/
theorem creditInv_keep {s s' : St} (h : CreditInv env owner s) {a : ℕ} {x x' : DreamHero} (hx : s.heroes a = some x)
    (hp : Pays x x' []) (hh : s'.heroes = Function.update s.heroes a (some x')) (ht : settled env s' = settled env s)
    (hr : s'.records = s.records) : CreditInv env owner s' := by
  have hp' : Pays x x' (([] : List DealPayRecord).map DealPayRecord.orderId) := hp
  exact creditInv_pays h hx hp' hh ht (hr.trans (List.append_nil _).symm)

/-- the deal that is added is payable, so its order has to be fresh -/
theorem creditInv_createDone {s : St} (h : CreditInv env owner s) (t : CreateDealHttpTask)
    (hsafe : ∀ x, s.heroes t.acc = some x → t.error = .no → x.dealsWaitToPay[t.orderId]? = none →
      Fresh owner s t.acc t.orderId) : CreditInv env owner (createDone s t) := by
  unfold createDone
  split
  · exact h
  · rename_i x hx
    rcases addDealWaitToPay_cases x t.keyCode t.status t.price t.orderId t.error with
      heq | ⟨herr, hnone, e, hkey, htype, heq⟩
    · rw [heq]
      exact creditInv_keep h hx (Pays.refl x) rfl rfl rfl
    · rw [heq]
      refine creditInv_setHero h (h.account t.acc x hx) ?_ ?_ ?_
      · intro o e' he'
        simp only [get_insert] at he'
        split_ifs at he' with ho
        · rw [← Option.some.inj he', hkey, ho]
        · exact h.keyed t.acc x hx o e' he'
      · intro o ho
        obtain ⟨ty, hty, hp⟩ := ho
        rw [dealType_insert] at hty
        split_ifs at hty with ho
        · rw [ho]
          exact hsafe x hx herr hnone
        · exact h.fresh t.acc x o hx ⟨ty, hty, hp⟩
      · intro y hy o ho
        rw [hx] at hy
        cases hy
        obtain ⟨ty, hty, hp⟩ := ho
        refine ⟨ty, ?_, hp⟩
        have hne : o ≠ t.orderId := by
          rintro rfl
          rw [dealType, hnone] at hty
          exact absurd hty.symm (Option.some_ne_none ty)
        rw [dealType_insert, if_neg hne, hty]

theorem creditInv_verifyDone {s : St} (h : CreditInv env owner s) (t : VerifyDealHttpTaskIOS)
    (hsafe : s.heroes t.acc = none → t.error = .no → t.status = 0 → Fresh owner s t.acc t.orderId) :
    CreditInv env owner (verifyDone env s t) := by
  unfold verifyDone
  split
  · rename_i x hx
    exact creditInv_pay h hx t.productId t.status t.orderId t.error
  · rename_i hnone
    split_ifs with herr
    · exact creditInv_offline h (hsafe hnone herr)
    · exact h

/-- a login: the loaded deals are fresh, and the replay pays some of them -/
theorem creditInv_createHero {s : St} (h : CreditInv env owner s) (a : ℕ) (x : DreamHero) (deals : List MsgDealInfo)
    (hsafe : s.heroes a = none → ∀ d ∈ deals, payable d.completeStatus = true → rowPayableOf env s a d.order = true) :
    CreditInv env owner (createHero env s a x deals) := by
  unfold createHero
  split
  · exact h
  · rename_i hnone
    set x0 : DreamHero := { x with account := a, dealsWaitToPay := loadDeals {} deals } with hx0
    have hload : ∀ (o : ℤ) (e : DealWaitToPay), x0.dealsWaitToPay[o]? = some e →
        e.orderId = o ∧ ∃ d ∈ deals, d.order = o ∧ d.completeStatus = e.type := fun o e he => loadDeals_new he
    have hloaded : CreditInv env owner (setHero s a (some x0)) := by
      apply creditInv_setHero h rfl (fun o e he => (hload o e he).1)
      · intro o ho
        obtain ⟨ty, hty, hp⟩ := ho
        obtain ⟨e, he, rfl⟩ := Option.map_eq_some_iff.1 hty
        obtain ⟨-, d, hd, rfl, hstatus⟩ := hload o e he
        have hrow := hsafe hnone d hd (hstatus ▸ hp)
        obtain ⟨row, hget, hrow⟩ := (Option.any_eq_true _ _).1 hrow
        obtain ⟨hpay, hacc⟩ := (Bool.and_eq_true _ _).mp hrow
        have hown : owner d.order = a := (h.row d.order row hget hpay).trans (of_decide_eq_true hacc)
        refine ⟨hown, ?_⟩
        intro hmem
        obtain ⟨y, hy, -⟩ := h.spent d.order hmem (rowPayable_iff.2 ⟨row, hget, hpay⟩)
        rw [hown, hnone] at hy
        exact absurd hy.symm (Option.some_ne_none y)
      · intro y hy
        rw [hnone] at hy
        exact absurd hy.symm (Option.some_ne_none y)
    obtain ⟨recs, hp, hrecs, -⟩ := replay_spec env s.now x0.dealsWaitToPay.keys { hero := x0 }
    refine creditInv_pays hloaded (Function.update_self _ _ _) hp ?_ rfl ?_
    · exact (Function.update_idem _ _ _).symm
    · change s.records ++ _ = s.records ++ recs
      rw [show recs = [] ++ recs from rfl, ← hrecs]
      rfl

theorem creditInv_step (s : St) (o : Op) (h : CreditInv env owner s) (hsafe : Safe env owner s o) :
    CreditInv env owner (step env s o) := by
  cases o with
  | queryHeroDeals a => exact creditInv_congr h rfl rfl rfl
  | heroData i x =>
    simp only [step, Safe] at hsafe ⊢
    cases hr : s.fromDB[i]? with
    | none => exact h
    | some r =>
      rw [hr] at hsafe
      have h' : CreditInv env owner { s with fromDB := s.fromDB.eraseIdx i } := creditInv_congr h rfl rfl rfl
      exact creditInv_createHero h' r.1 x r.2 hsafe
  | needCreateHero a x =>
    simp only [step]
    split
    · exact h
    · rename_i hnone
      have hempty : ∀ o t, dealType { x with account := a, dealsWaitToPay := {} } o ≠ some t := by
        intro o t ht
        simp [dealType] at ht
      refine creditInv_setHero h rfl ?_ ?_ ?_
      · intro o e he
        simp at he
      · intro o ho
        exact absurd ho.choose_spec.1 (hempty o _)
      · intro y hy
        rw [hnone] at hy
        exact absurd hy.symm (Option.some_ne_none y)
  | request a f =>
    simp only [step]
    split
    · exact h
    · rename_i x hx
      have hp : Pays x { f x with account := x.account, dealsWaitToPay := x.dealsWaitToPay } [] := Pays.of_eq rfl rfl
      exact creditInv_keep h hx hp rfl rfl rfl
  | reqCrearteDeal a keyCode =>
    simp only [step]
    split
    · exact h
    · rename_i x hx
      exact creditInv_keep h hx (pays_giveUpDeals x) rfl rfl rfl
  | reqApplyHeroDeal a keyCode =>
    simp only [step]
    split
    · exact h
    · exact creditInv_congr h rfl rfl rfl
  | reqVerifyDeal a orderId receipt =>
    simp only [step, reqVerifyDeal]
    split
    · exact h
    · split
      · exact h
      · exact creditInv_congr (creditInv_verify h orderId receipt) rfl rfl rfl
  | clinchADealNotify acc productId orderId =>
    simp only [step, Safe] at hsafe ⊢
    split_ifs with hacc
    · exact h
    · split
      · rename_i x hx
        exact creditInv_pay h hx productId 0 orderId .no
      · rename_i hnone
        exact creditInv_offline h fun _ => hsafe hacc hnone
  | createDealDone i reply =>
    simp only [step, Safe] at hsafe ⊢
    cases ht : s.creates[i]? with
    | none => exact h
    | some t =>
      rw [ht] at hsafe
      have h' : CreditInv env owner { s with creates := s.creates.eraseIdx i } := creditInv_congr h rfl rfl rfl
      exact creditInv_createDone h' (t.excute reply) hsafe
  | verifyDealDone i confirm finish =>
    simp only [step, Safe] at hsafe ⊢
    cases ht : s.verifies[i]? with
    | none => exact h
    | some t =>
      rw [ht] at hsafe
      have h' : CreditInv env owner { s with verifies := s.verifies.eraseIdx i } := creditInv_congr h rfl rfl rfl
      exact creditInv_verifyDone h' (t.excute confirm finish) hsafe
  | saveHero a =>
    simp only [step]
    split
    · exact h
    · rename_i x hx
      exact creditInv_saveHero h hx
  | destroy a =>
    refine creditInv_vanish h ?_ rfl rfl ?_
    · intro b y hy
      exact of_update_none hy
    · intro o ho hrow
      have hne : owner o ≠ a := fun heq => by rw [hsafe o ho heq] at hrow; exact Bool.false_ne_true hrow
      exact Function.update_of_ne hne _ _
  | execute =>
    refine creditInv_congr h ?_ (settled_execute env s) ?_
    · simp only [step]; split <;> rfl
    · simp only [step]; split <;> rfl
  | tick => exact creditInv_congr h rfl rfl rfl
  | restart =>
    refine creditInv_vanish h (fun b y hy => absurd hy.symm (Option.some_ne_none y)) rfl rfl ?_
    intro o ho hrow
    rw [hsafe o ho] at hrow
    exact absurd hrow Bool.false_ne_true

theorem creditInv_start : CreditInv env owner start :=
  ⟨fun _ _ hx => absurd hx.symm (Option.some_ne_none _), fun _ _ hx => absurd hx.symm (Option.some_ne_none _),
    fun _ _ _ hx => absurd hx.symm (Option.some_ne_none _), fun _ _ hrow => by simp [settled, start] at hrow,
    fun _ ho => absurd ho List.not_mem_nil, List.nodup_nil⟩

/-- **Credited at most once.** In a run whose steps all meet `Safe`, no order has been credited twice in any state. -/
theorem paid_once (env : Env) (owner : ℤ → ℕ) (ops : List Op) (hops : Along (step env) (Safe env owner) start ops) :
    ∀ pre, pre <+: ops → PaidOnce (run (step env) start pre) := by
  rintro pre ⟨post, rfl⟩
  have hpre := ((along_append (step env) (Safe env owner) start pre post).1 hops).1
  exact (inv_run creditInv_step creditInv_start hpre).once

/-- the platform notifies the payment after the hero has gone, and the next login credits it -/
def notifiedOffline : List Op :=
  ordered ++ [.destroy 5, .clinchADealNotify 5 "gem" 7, .execute, .queryHeroDeals 5, .heroData 0 {}]

theorem paid_offline : PaidOnce (run (step smallShop) start notifiedOffline) := by
  refine paid_once smallShop (fun _ => 5) notifiedOffline
    ⟨trivial, trivial, ?_, trivial, trivial, trivial, ?_, ?_, trivial, trivial, ?_, trivial⟩ _ (List.prefix_refl _)
  · exact fun _ _ _ _ => ⟨rfl, List.not_mem_nil⟩
  · exact fun o ho => absurd ho List.not_mem_nil
  · exact fun _ _ => ⟨rfl, List.not_mem_nil⟩
  · intro _
    decide

/-- the notification comes while the hero is in memory; the credit is saved, the hero goes, and the notification is
repeated before the next login -/
def notifiedTwice : List Op :=
  ordered ++ [.clinchADealNotify 5 "gem" 7, .saveHero 5, .execute, .execute, .destroy 5, .clinchADealNotify 5 "gem" 7,
    .execute, .queryHeroDeals 5, .heroData 0 {}]

theorem credited_twice : ¬∀ (env : Env) (ops : List Op), PaidOnce (run (step env) start ops) := by
  intro h
  have htwice : credits (run (step smallShop) start notifiedTwice) = [7, 7] := by decide
  have hnodup : [(7 : ℤ), 7].Nodup := htwice ▸ h smallShop notifiedTwice
  exact absurd hnodup (by decide)

end DreamHeroes.Hero.Deals

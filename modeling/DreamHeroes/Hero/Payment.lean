/-
What the operations on deals do to a hero and to the table, one lemma for each.

- `Pays h h' orders`: the hero `h'` is `h` after payments that credited `orders`. `Pays.trans` composes them;
  `pays_addDealPay`, `pays_giveUpDeals` and `replay_spec` (the replay of `set_info`) are the operations.
- `addDealPay_info`: the gold and the jewel of a hero change by what is recorded.
- `settled`, with `settled_emit` and `settled_execute`: the table once every statement sent has been executed.
- `replaceDeals_get`, `mem_dealRows`: the rows of a REPLACE, and the values `SaveHero` lists.
-/
import Mathlib.Tactic
import DreamHeroes.Hero.Deals

namespace DreamHeroes.Hero.Deals

open DreamHeroes.Lib

variable (env : Env)

/-! ## What is payable -/

/-- an order of this type is credited by a payment -/
def payable (t : DealStatusType) : Bool := t = .waitToPay ∨ t = .waitPrepareToPay

def dealType (h : DreamHero) (o : ℤ) : Option DealStatusType := (h.dealsWaitToPay[o]?).map DealWaitToPay.type

def PayableIn (h : DreamHero) (o : ℤ) : Prop := ∃ t, dealType h o = some t ∧ payable t = true

/-- the hero holds the order and does not credit it any more -/
def SpentIn (h : DreamHero) (o : ℤ) : Prop := ∃ t, dealType h o = some t ∧ payable t = false

/-- every deal is held under its own order id -/
def Keyed (h : DreamHero) : Prop := ∀ (o : ℤ) (e : DealWaitToPay), h.dealsWaitToPay[o]? = some e → e.orderId = o

theorem dealType_insert (h : DreamHero) (o j : ℤ) (e : DealWaitToPay) :
    dealType { h with dealsWaitToPay := h.dealsWaitToPay.insert o e } j =
      if j = o then some e.type else dealType h j := by
  simp only [dealType, get_insert]
  split_ifs <;> rfl

/-- `h'` is `h` after payments that credited `orders`: each of them was payable and is spent, and nothing that is spent
becomes payable again -/
structure Pays (h h' : DreamHero) (orders : List ℤ) : Prop where
  account : h'.account = h.account
  keyed : Keyed h → Keyed h'
  payable : ∀ o, PayableIn h' o → PayableIn h o ∧ o ∉ orders
  spent : ∀ o, SpentIn h o → SpentIn h' o
  credited : ∀ o ∈ orders, PayableIn h o ∧ SpentIn h' o
  nodup : orders.Nodup
  verify : ∀ o, dealType h' o = some .waitPrepareToVerify → dealType h o = some .waitPrepareToVerify

theorem Pays.of_eq {h h' : DreamHero} (hacc : h'.account = h.account) (hd : h'.dealsWaitToPay = h.dealsWaitToPay) :
    Pays h h' [] := by
  have htype : dealType h' = dealType h := by funext o; rw [dealType, dealType, hd]
  refine ⟨hacc, fun hk o e he => hk o e (hd ▸ he), ?_, ?_, fun o ho => absurd ho List.not_mem_nil,
    List.nodup_nil, fun o ho => htype ▸ ho⟩
  · intro o ho
    rw [PayableIn, htype] at ho
    exact ⟨ho, List.not_mem_nil⟩
  · intro o ho
    rw [SpentIn, htype]
    exact ho

theorem Pays.refl (h : DreamHero) : Pays h h [] := Pays.of_eq rfl rfl

theorem Pays.trans {h h1 h2 : DreamHero} {l1 l2 : List ℤ} (p1 : Pays h h1 l1) (p2 : Pays h1 h2 l2) :
    Pays h h2 (l1 ++ l2) := by
  refine ⟨p2.account.trans p1.account, fun hk => p2.keyed (p1.keyed hk), ?_,
    fun o ho => p2.spent o (p1.spent o ho), ?_, ?_, fun o ho => p1.verify o (p2.verify o ho)⟩
  · intro o ho
    obtain ⟨ho1, hn2⟩ := p2.payable o ho
    obtain ⟨ho0, hn1⟩ := p1.payable o ho1
    exact ⟨ho0, fun hmem => (List.mem_append.1 hmem).elim hn1 hn2⟩
  · intro o ho
    rcases List.mem_append.1 ho with h1 | h2
    · exact ⟨(p1.credited o h1).1, p2.spent o (p1.credited o h1).2⟩
    · exact ⟨(p1.payable o (p2.credited o h2).1).1, (p2.credited o h2).2⟩
  · refine List.nodup_append.2 ⟨p1.nodup, p2.nodup, ?_⟩
    intro o h1 o' h2 heq
    subst heq
    exact (p1.payable o (p2.credited o h2).1).2 h1

/-- a deal of the hero gets another type, one that is not payable; it is credited only if it was payable -/
theorem pays_insert {h h' : DreamHero} {o : ℤ} {e : DealWaitToPay} {t : DealStatusType} {orders : List ℤ}
    (he : h.dealsWaitToPay[o]? = some e) (hacc : h'.account = h.account)
    (hd : h'.dealsWaitToPay = h.dealsWaitToPay.insert o { e with type := t }) (ht : Deals.payable t = false)
    (hv : t ≠ .waitPrepareToVerify) (horders : orders = [] ∨ orders = [o] ∧ Deals.payable e.type = true) :
    Pays h h' orders := by
  have hold : dealType h o = some e.type := by rw [dealType, he]; rfl
  have htype : ∀ j, dealType h' j = if j = o then some t else dealType h j := by
    intro j
    rw [dealType, hd]
    exact dealType_insert h o j { e with type := t }
  have hspent : SpentIn h' o := ⟨t, by rw [htype, if_pos rfl], ht⟩
  refine ⟨hacc, ?_, ?_, ?_, ?_, ?_, ?_⟩
  · intro hk j e' hj
    rw [hd, get_insert] at hj
    split_ifs at hj with heq
    · rw [← Option.some.inj hj, heq]
      exact hk o e he
    · exact hk j e' hj
  · intro j hj
    obtain ⟨t', ht', hp'⟩ := hj
    rw [htype] at ht'
    split_ifs at ht' with heq
    · rw [← Option.some.inj ht', ht] at hp'
      exact absurd hp' Bool.false_ne_true
    · refine ⟨⟨t', ht', hp'⟩, ?_⟩
      intro hmem
      rcases horders with rfl | ⟨rfl, -⟩
      · exact List.not_mem_nil hmem
      · exact heq (List.mem_singleton.1 hmem)
  · intro j hj
    rcases eq_or_ne j o with rfl | hne
    · exact hspent
    · obtain ⟨t', ht', hp'⟩ := hj
      exact ⟨t', by rw [htype, if_neg hne, ht'], hp'⟩
  · intro j hj
    rcases horders with rfl | ⟨rfl, hp⟩
    · exact absurd hj List.not_mem_nil
    · rw [List.mem_singleton.1 hj]
      exact ⟨⟨e.type, hold, hp⟩, hspent⟩
  · rcases horders with rfl | ⟨rfl, -⟩
    · exact List.nodup_nil
    · exact List.nodup_singleton o
  · intro j hj
    rw [htype] at hj
    split_ifs at hj with heq
    · exact absurd (Option.some.inj hj) hv
    · exact hj

theorem pays_addDealPay (now : ℕ) (h : DreamHero) (keyCode : String) (status orderId : ℤ) (error : GameError) :
    Pays h (addDealPay env now h keyCode status orderId error).hero
      ((payRecords (addDealPay env now h keyCode status orderId error) keyCode status orderId).map
        DealPayRecord.orderId) := by
  unfold addDealPay
  split_ifs with herr
  · cases hshop : env.goldShop h.channel keyCode with
    | none => exact Pays.refl h
    | some config =>
      cases he : h.dealsWaitToPay[orderId]? with
      | none => exact Pays.refl h
      | some e =>
        simp only [payEntry]
        split_ifs with hstatus
        · cases htype : e.type with
          | waitToPay => exact pays_insert he rfl rfl rfl (by decide) (.inr ⟨rfl, by rw [htype]; rfl⟩)
          | waitPrepareToPay => exact pays_insert he rfl rfl rfl (by decide) (.inr ⟨rfl, by rw [htype]; rfl⟩)
          | complete => exact Pays.refl h
          | waitPrepareToVerify => exact Pays.refl h
          | failed => exact Pays.refl h
        · exact pays_insert he rfl rfl rfl (by decide) (.inl rfl)
  · exact Pays.refl h

/-- what a payment adds to the hero is what it records -/
theorem addDealPay_info (now : ℕ) (h : DreamHero) (keyCode : String) (status orderId : ℤ) (error : GameError) :
    let r := addDealPay env now h keyCode status orderId error
    r.hero.info = { h.info with gold := h.info.gold + r.addGold, jewel := h.info.jewel + r.addJewel } ∧
      (r.error ≠ .no → r.addGold = 0 ∧ r.addJewel = 0) := by
  have hsame : h.info = { h.info with gold := h.info.gold + 0, jewel := h.info.jewel + 0 } := by simp
  unfold addDealPay
  split_ifs with herr
  · cases hshop : env.goldShop h.channel keyCode with
    | none => exact ⟨hsame, fun _ => ⟨rfl, rfl⟩⟩
    | some config =>
      cases he : h.dealsWaitToPay[orderId]? with
      | none => exact ⟨hsame, fun _ => ⟨rfl, rfl⟩⟩
      | some e =>
        simp only [payEntry]
        split_ifs with hstatus
        · cases htype : e.type with
          | waitToPay => exact ⟨rfl, fun hne => absurd rfl hne⟩
          | waitPrepareToPay => exact ⟨rfl, fun hne => absurd rfl hne⟩
          | complete => exact ⟨hsame, fun _ => ⟨rfl, rfl⟩⟩
          | waitPrepareToVerify => exact ⟨hsame, fun _ => ⟨rfl, rfl⟩⟩
          | failed => exact ⟨hsame, fun _ => ⟨rfl, rfl⟩⟩
        · exact ⟨hsame, fun _ => ⟨rfl, rfl⟩⟩
  · exact ⟨hsame, fun _ => ⟨rfl, rfl⟩⟩

/-- giving up drops payable deals and nothing else -/
theorem pays_giveUpDeals (h : DreamHero) : Pays h (giveUpDeals h) [] := by
  have hget : ∀ (o : ℤ) (e : DealWaitToPay), (giveUpDeals h).dealsWaitToPay[o]? = some e ↔
      h.dealsWaitToPay[o]? = some e ∧ e.type ≠ .waitToPay := by
    intro o e
    rw [giveUpDeals, Std.TreeMap.getElem?_filter', Option.filter_eq_some_iff]
    simp
  have hkeep : ∀ o t, dealType (giveUpDeals h) o = some t → dealType h o = some t := by
    intro o t ht
    obtain ⟨e, he, rfl⟩ := Option.map_eq_some_iff.1 ht
    exact Option.map_eq_some_iff.2 ⟨e, ((hget o e).1 he).1, rfl⟩
  refine ⟨rfl, fun hk o e he => hk o e ((hget o e).1 he).1, ?_, ?_,
    fun o ho => absurd ho List.not_mem_nil, List.nodup_nil, fun o ho => hkeep o _ ho⟩
  · intro o ho
    obtain ⟨t, ht, hp⟩ := ho
    exact ⟨⟨t, hkeep o t ht, hp⟩, List.not_mem_nil⟩
  · intro o ho
    obtain ⟨t, ht, hp⟩ := ho
    obtain ⟨e, he, rfl⟩ := Option.map_eq_some_iff.1 ht
    have hne : e.type ≠ .waitToPay := fun heq => by rw [heq] at hp; exact absurd hp (by decide)
    exact ⟨e.type, Option.map_eq_some_iff.2 ⟨e, (hget o e).2 ⟨he, hne⟩, rfl⟩, hp⟩

/-- a deal is added only under an order id the hero does not hold -/
theorem addDealWaitToPay_cases (h : DreamHero) (keyCode : String) (status price orderId : ℤ) (error : GameError) :
    addDealWaitToPay h keyCode status price orderId error = h ∨
      error = .no ∧ h.dealsWaitToPay[orderId]? = none ∧
        ∃ e : DealWaitToPay, e.orderId = orderId ∧ e.type = .waitToPay ∧
          addDealWaitToPay h keyCode status price orderId error =
            { h with dealsWaitToPay := h.dealsWaitToPay.insert orderId e } := by
  unfold addDealWaitToPay
  split_ifs with herr
  · cases he : h.dealsWaitToPay[orderId]? with
    | some e => exact .inl rfl
    | none => exact .inr ⟨herr, rfl, _, rfl, rfl, rfl⟩
  · exact .inl rfl

/-! ### The replay -/

theorem loadDeals_cons (m : Std.TreeMap ℤ DealWaitToPay) (d : MsgDealInfo) (deals : List MsgDealInfo) :
    loadDeals m (d :: deals) =
      loadDeals (m.insertIfNew d.order
        { keyCode := d.productId, orderId := d.order, price := 0, status := d.status, receipt := d.curReceipt,
          type := d.completeStatus }) deals := rfl

/-- a loaded deal comes from the message, under its own order id -/
theorem loadDeals_mem {m : Std.TreeMap ℤ DealWaitToPay} {deals : List MsgDealInfo} {o : ℤ} {e : DealWaitToPay}
    (he : (loadDeals m deals)[o]? = some e) :
    m[o]? = some e ∨ e.orderId = o ∧ ∃ d ∈ deals, d.order = o ∧ d.completeStatus = e.type := by
  induction deals generalizing m with
  | nil => exact .inl he
  | cons d deals ih =>
    rw [loadDeals_cons] at he
    rcases ih he with hm | ⟨hkey, d', hd', ho⟩
    · rw [get_insertIfNew] at hm
      split_ifs at hm with hnew
      · rw [← Option.some.inj hm]
        exact .inr ⟨hnew.1.symm, d, List.mem_cons_self, hnew.1.symm, rfl⟩
      · exact .inl hm
    · exact .inr ⟨hkey, d', List.mem_cons_of_mem d hd', ho⟩

theorem loadDeals_new {deals : List MsgDealInfo} {o : ℤ} {e : DealWaitToPay} (he : (loadDeals {} deals)[o]? = some e) :
    e.orderId = o ∧ ∃ d ∈ deals, d.order = o ∧ d.completeStatus = e.type := by
  rcases loadDeals_mem he with hempty | hmem
  · simp at hempty
  · exact hmem

/-- one deal of the replay: a payment, or a verification of a deal that waits for one -/
theorem replayDeal_spec (now : ℕ) (r : Replay) (o : ℤ) :
    ∃ recs, Pays r.hero (replayDeal env now r o).hero (recs.map DealPayRecord.orderId) ∧
      (replayDeal env now r o).records = r.records ++ recs ∧
      ((∀ j, dealType r.hero j ≠ some .waitPrepareToVerify) → (replayDeal env now r o).verifies = r.verifies) := by
  have hnil : r.records = r.records ++ [] := (List.append_nil _).symm
  unfold replayDeal
  cases he : r.hero.dealsWaitToPay[o]? with
  | none => exact ⟨[], Pays.refl _, hnil, fun _ => rfl⟩
  | some e =>
    cases htype : e.type with
    | waitPrepareToPay =>
      simp only [htype]
      exact ⟨_, pays_addDealPay env now r.hero e.keyCode e.status e.orderId .no, rfl, fun _ => trivial⟩
    | waitPrepareToVerify =>
      simp only [htype]
      refine ⟨[], Pays.refl _, hnil, fun hno => absurd ?_ (hno o)⟩
      rw [dealType, he, ← htype]; rfl
    | waitToPay => simp only [htype]; exact ⟨[], Pays.refl _, hnil, fun _ => trivial⟩
    | complete => simp only [htype]; exact ⟨[], Pays.refl _, hnil, fun _ => trivial⟩
    | failed => simp only [htype]; exact ⟨[], Pays.refl _, hnil, fun _ => trivial⟩

theorem replay_spec (now : ℕ) (orders : List ℤ) (r : Replay) :
    ∃ recs, Pays r.hero (orders.foldl (replayDeal env now) r).hero (recs.map DealPayRecord.orderId) ∧
      (orders.foldl (replayDeal env now) r).records = r.records ++ recs ∧
      ((∀ j, dealType r.hero j ≠ some .waitPrepareToVerify) →
        (orders.foldl (replayDeal env now) r).verifies = r.verifies) := by
  induction orders generalizing r with
  | nil => exact ⟨[], Pays.refl _, (List.append_nil _).symm, fun _ => rfl⟩
  | cons o orders ih =>
    obtain ⟨recs1, hp1, hr1, hv1⟩ := replayDeal_spec env now r o
    obtain ⟨recs2, hp2, hr2, hv2⟩ := ih (replayDeal env now r o)
    refine ⟨recs1 ++ recs2, ?_, ?_, ?_⟩
    · rw [List.map_append]
      exact hp1.trans hp2
    · rw [List.foldl_cons, hr2, hr1, List.append_assoc]
    · intro hno
      rw [List.foldl_cons, hv2 fun j hj => hno j (hp1.verify j hj), hv1 hno]

/-! ### The state -/

theorem update_some {f : ℕ → Option DreamHero} {a b : ℕ} {x y : DreamHero}
    (h : Function.update f a (some x) b = some y) : b = a ∧ y = x ∨ b ≠ a ∧ f b = some y := by
  rcases eq_or_ne b a with rfl | hne
  · rw [Function.update_self] at h
    exact .inl ⟨rfl, (Option.some.inj h).symm⟩
  · rw [Function.update_of_ne hne] at h
    exact .inr ⟨hne, h⟩

/-! ### The statements -/

@[simp] theorem settled_emit (s : St) (stmts : List Stmt) :
    settled env (emit s stmts) = run (applyStmt env) (settled env s) stmts := run_append _ _ _ _

theorem settled_execute (s : St) : settled env (step env s .execute) = settled env s := by
  unfold settled
  cases hdb : s.toDB with
  | nil => simp only [step, hdb]
  | cons stmt rest => simp only [step, hdb, run_cons]

/-- a row after a REPLACE of several values is the row of one of them, or none of them is about it -/
theorem replaceDeals_get {t : Std.TreeMap ℤ DealRow} {rows : List DealValues} {o : ℤ} {row : DealRow}
    (hrow : (replaceDeals env t rows)[o]? = some row) :
    (∃ v ∈ rows, v.orderId = o ∧ row = rowOf env v) ∨ t[o]? = some row := by
  induction rows generalizing t with
  | nil => exact .inr hrow
  | cons v rows ih =>
    rcases ih (t := t.insert v.orderId (rowOf env v)) hrow with ⟨v', hv', heq⟩ | hold
    · exact .inl ⟨v', List.mem_cons_of_mem v hv', heq⟩
    · rw [get_insert] at hold
      split_ifs at hold with ho
      · exact .inl ⟨v, List.mem_cons_self, ho.symm, (Option.some.inj hold).symm⟩
      · exact .inr hold

/-- the values of `SaveHero` are the deals the hero holds -/
theorem mem_dealRows {h : DreamHero} {now : ℕ} {v : DealValues} (hk : Keyed h) (hv : v ∈ dealRows env.time h now) :
    dealType h v.orderId = some v.completeStatus ∧ v.accountId = h.account := by
  obtain ⟨⟨o, e⟩, he, rfl⟩ := List.mem_map.1 hv
  have hget : h.dealsWaitToPay[o]? = some e := Std.TreeMap.mem_toList_iff_getElem?_eq_some.1 he
  refine ⟨?_, rfl⟩
  change dealType h e.orderId = some e.type
  rw [hk o e hget, dealType, hget]
  rfl

end DreamHeroes.Hero.Deals

/-
The loops that erase from a map while an iterator goes over it: `obj_map::eraseValue`, `UserManager::removeUsers`, and
the two loops of `DreamHero` over the deals.

`#ifdef WIN32` they take the iterator that `erase` returns (`Advance.returned`); in the other branch they increment the
iterator of the erased element (`Advance.increment`).

- `EraseValueRight`, `CrearteDealRight`, `RemoveUsersRight`, `SaveHeroRight`: what each of the loops is for. What is
  left and what is marked is what the models of the maps, the deals and the gate have.
- `erase_loops_win32`: the first three do it with the returned iterator, for every content.
- `erase_loops_iff`: with the increment they do it exactly when nothing matches. The loop of `SaveHero` starts at the
  end in both branches and erases nothing.
-/
import Mathlib.Tactic
import DreamHeroes.Lib.MapCursor
import DreamHeroes.Lib.Text
import DreamHeroes.Gate.UserManager
import DreamHeroes.Hero.Deals

namespace DreamHeroes.EraseLoops

open DreamHeroes.Lib DreamHeroes.Lib.MapCursor DreamHeroes.Hero DreamHeroes.Gate

/-! ## Model -/

section

variable {K V : Type*} [DecidableEq K] [Ord K] [DecidableEq V]

/-- a round of `eraseValue` -/
def valueRound (v : V) (s : Unit) (e : K × V) : Unit × Bool := (s, decide (e.2 = v))

def eraseValue (how : Advance) (m : Std.TreeMap K V) (v : V) : Option (Loop K V Unit) :=
  eraseLoop (valueRound v) how () m.toList

end

structure GiveUpDealRecord where
  account : ℕ
  keyCode : String
  status : ℤ
  price : ℤ
  orderId : ℤ
deriving DecidableEq, Repr

def giveUpDealRecord (account : ℕ) (e : DealWaitToPay) : GiveUpDealRecord where
  account := account
  keyCode := cStr e.keyCode
  status := e.status
  price := e.price
  orderId := e.orderId

/-- a round of `ReqCrearteDeal` -/
def giveUpRound (account : ℕ) (records : List GiveUpDealRecord) (e : ℤ × DealWaitToPay) :
    List GiveUpDealRecord × Bool :=
  if e.2.type = .waitToPay then (records ++ [giveUpDealRecord account e.2], true) else (records, false)

def reqCrearteDeal (how : Advance) (h : DreamHero) : Option (Loop ℤ DealWaitToPay (List GiveUpDealRecord)) :=
  eraseLoop (giveUpRound h.account) how [] h.dealsWaitToPay.toList

/-- a round of `removeUsers`, over a copy of `m_onlines` -/
def removeRound (gs : ℕ) (sess : ℕ → UserSession) (e : ℕ × ℕ) : (ℕ → UserSession) × Bool :=
  if (sess e.2).gsId = gs then (Function.update sess e.2 ((sess e.2).setState .waitClose), true) else (sess, false)

def removeUsers (how : Advance) (s : Gate.St) (gs : ℕ) : Option (Loop ℕ ℕ (ℕ → UserSession) × Loop ℕ ℕ Unit) :=
  (eraseLoop (removeRound gs) how s.sess s.onlines.toList).bind fun users =>
    (eraseValue how s.reconMap gs).map fun recon => (users, recon)

/-- a round of the loop of `SaveHero` -/
def completeRound (s : Unit) (e : ℤ × DealWaitToPay) : Unit × Bool := (s, decide (e.2.type = .complete))

/-- `it_deal != _deals_wait_to_pay.begin();` compares and assigns nothing, so the loop starts at the end -/
def dropCompleteDeals (how : Advance) (h : DreamHero) : Option (Loop ℤ DealWaitToPay Unit) :=
  let l := h.dealsWaitToPay.toList
  if l.length ≠ 0 then walk completeRound how l.length { left := l, state := () } none
  else some { left := l, state := () }

/-! ## Values of a map -/

section

variable {K V : Type*} [DecidableEq K] [Ord K] [DecidableEq V]

def EraseValueRight (how : Advance) (m : Std.TreeMap K V) (v : V) : Prop :=
  ∃ r, eraseValue how m v = some r ∧ r.left = m.toList.filter (fun e => e.2 ≠ v) ∧ r.visited = m.toList

omit [DecidableEq K] in
theorem valueRound_right (m : Std.TreeMap K V) (v : V) :
    (sweep (valueRound v) () m.toList).left = m.toList.filter (fun e => e.2 ≠ v) ∧
      (sweep (valueRound v) () m.toList).visited = m.toList := by
  refine ⟨?_, sweep_visited _ _⟩
  rw [sweep_left_of_same (fun e => decide (e.2 = v)) fun _ _ => rfl]
  simp

variable [Std.TransOrd K] {m : Std.TreeMap K V} {v : V}

theorem eraseValue_win32 : EraseValueRight .returned m v :=
  ⟨_, eraseLoop_returned (toList_keys_nodup m), valueRound_right m v⟩

variable [Std.LawfulEqOrd K]

theorem eraseValue_right_iff : EraseValueRight .increment m v ↔ ∀ k : K, m[k]? ≠ some v := by
  rw [EraseValueRight, eraseValue, eraseLoop_increment_iff (fun _ _ _ => rfl) (toList_keys_nodup m)
    (valueRound_right m v)]
  constructor
  · intro hall k hk
    have hmem := hall (k, v) (Std.TreeMap.mem_toList_iff_getElem?_eq_some.2 hk)
    simp [valueRound] at hmem
  · intro hall e he
    have hne := hall e.1
    rw [Std.TreeMap.mem_toList_iff_getElem?_eq_some.1 he] at hne
    simpa [valueRound] using hne

/-- what is left is the map the other models have -/
theorem mem_left_iff {how : Advance} {r : Loop K V Unit} (h : eraseValue how m v = some r)
    (hright : EraseValueRight how m v) (k : K) (w : V) : (k, w) ∈ r.left ↔ (eraseVal m v)[k]? = some w := by
  obtain ⟨r', hr', hleft, -⟩ := hright
  obtain rfl := Option.some.inj (h.symm.trans hr')
  rw [hleft, get_eraseVal_eq_some, List.mem_filter, Std.TreeMap.mem_toList_iff_getElem?_eq_some, decide_eq_true_eq]

end

/-! ## Deals -/

def CrearteDealRight (how : Advance) (h : DreamHero) : Prop :=
  ∃ r, reqCrearteDeal how h = some r ∧ r.left = (Deals.giveUpDeals h).dealsWaitToPay.toList ∧
    r.state = (h.dealsWaitToPay.toList.filter fun e => e.2.type = .waitToPay).map
      (fun e => giveUpDealRecord h.account e.2) ∧
    r.visited = h.dealsWaitToPay.toList

def SaveHeroRight (how : Advance) (h : DreamHero) : Prop :=
  ∃ r, dropCompleteDeals how h = some r ∧ r.left = h.dealsWaitToPay.toList.filter fun e => e.2.type ≠ .complete

variable {h : DreamHero}

theorem giveUpRound_hit (account : ℕ) (records : List GiveUpDealRecord) (e : ℤ × DealWaitToPay) :
    (giveUpRound account records e).2 = decide (e.2.type = .waitToPay) := by
  rw [giveUpRound]
  split_ifs with hwait <;> simp [hwait]

theorem giveUpRound_records (account : ℕ) (l : List (ℤ × DealWaitToPay)) (records : List GiveUpDealRecord) :
    l.foldl (fun records e => (giveUpRound account records e).1) records =
      records ++ (l.filter fun e => e.2.type = .waitToPay).map fun e => giveUpDealRecord account e.2 := by
  induction l generalizing records with
  | nil => simp
  | cons e l ih =>
    rw [List.foldl_cons, ih, giveUpRound, List.filter_cons]
    split_ifs with hwait <;> simp_all

theorem giveUpRound_right (h : DreamHero) :
    (sweep (giveUpRound h.account) [] h.dealsWaitToPay.toList).left = (Deals.giveUpDeals h).dealsWaitToPay.toList ∧
      (sweep (giveUpRound h.account) [] h.dealsWaitToPay.toList).state =
        (h.dealsWaitToPay.toList.filter fun e => e.2.type = .waitToPay).map
          (fun e => giveUpDealRecord h.account e.2) ∧
      (sweep (giveUpRound h.account) [] h.dealsWaitToPay.toList).visited = h.dealsWaitToPay.toList := by
  refine ⟨?_, ?_, sweep_visited _ _⟩
  · rw [sweep_left_of_same (fun e => decide (e.2.type = .waitToPay)) (giveUpRound_hit h.account), Deals.giveUpDeals,
      Std.TreeMap.toList_filter]
    simp
  · rw [sweep_state, giveUpRound_records, List.nil_append]

theorem crearteDeal_win32 : CrearteDealRight .returned h :=
  ⟨_, eraseLoop_returned (toList_keys_nodup _), giveUpRound_right h⟩

theorem crearteDeal_right_iff :
    CrearteDealRight .increment h ↔ ∀ (k : ℤ) e, h.dealsWaitToPay[k]? = some e → e.type ≠ .waitToPay := by
  have hquiet : ∀ records e, (giveUpRound h.account records e).2 = false →
      (giveUpRound h.account records e).1 = records := by
    intro records e hit
    rw [giveUpRound_hit, decide_eq_false_iff_not] at hit
    rw [giveUpRound, if_neg hit]
  rw [CrearteDealRight, reqCrearteDeal, eraseLoop_increment_iff hquiet (toList_keys_nodup _) (giveUpRound_right h)]
  simp only [giveUpRound_hit, decide_eq_false_iff_not]
  constructor
  · intro hall k e hk
    exact hall (k, e) (Std.TreeMap.mem_toList_iff_getElem?_eq_some.2 hk)
  · intro hall e he
    exact hall e.1 e.2 (Std.TreeMap.mem_toList_iff_getElem?_eq_some.1 he)

/-- the loop does nothing, so nothing may have to be dropped -/
theorem saveHero_right_iff (how : Advance) :
    SaveHeroRight how h ↔ ∀ (k : ℤ) e, h.dealsWaitToPay[k]? = some e → e.type ≠ .complete := by
  have hloop : dropCompleteDeals how h = some { left := h.dealsWaitToPay.toList, state := () } := by
    simp only [dropCompleteDeals, walk, ite_self]
  rw [SaveHeroRight, hloop]
  constructor
  · rintro ⟨r, hr, hleft⟩ k e hk
    obtain rfl := Option.some.inj hr
    have hmem := List.filter_eq_self.1 hleft.symm (k, e) (Std.TreeMap.mem_toList_iff_getElem?_eq_some.2 hk)
    simpa using hmem
  · intro hall
    refine ⟨_, rfl, ?_⟩
    symm
    rw [List.filter_eq_self]
    intro e he
    simpa using hall e.1 e.2 (Std.TreeMap.mem_toList_iff_getElem?_eq_some.1 he)

/-! ## Sessions -/

/-- the sessions of the game server are told to close, and it is out of the map of the reconnects -/
def RemoveUsersRight (how : Advance) (s : Gate.St) (gs : ℕ) : Prop :=
  ∃ r, removeUsers how s gs = some r ∧ r.1.state = (Gate.removeUsers s gs).sess ∧
    (r.1.left = s.onlines.toList.filter fun e => (s.sess e.2).gsId ≠ gs) ∧ r.1.visited = s.onlines.toList ∧
    (r.2.left = s.reconMap.toList.filter fun e => e.2 ≠ gs) ∧ r.2.visited = s.reconMap.toList

variable {s : Gate.St} {gs : ℕ}

theorem removeRound_gsId (sess : ℕ → UserSession) (e : ℕ × ℕ) (p : ℕ) :
    ((removeRound gs sess e).1 p).gsId = (sess p).gsId := by
  rw [removeRound]
  split_ifs
  · show (Function.update sess e.2 ((sess e.2).setState .waitClose) p).gsId = (sess p).gsId
    rcases eq_or_ne p e.2 with rfl | hp
    · rw [Function.update_self]
      rfl
    · rw [Function.update_of_ne hp]
  · rfl

theorem removeRound_hit (sess : ℕ → UserSession) (e : ℕ × ℕ) :
    (removeRound gs sess e).2 = decide ((sess e.2).gsId = gs) := by
  rw [removeRound]
  split_ifs with hgs <;> simp [hgs]

theorem removeRound_right (s : Gate.St) (gs : ℕ) :
    (sweep (removeRound gs) s.sess s.onlines.toList).state = (Gate.removeUsers s gs).sess ∧
      ((sweep (removeRound gs) s.sess s.onlines.toList).left =
        s.onlines.toList.filter fun e => (s.sess e.2).gsId ≠ gs) ∧
      (sweep (removeRound gs) s.sess s.onlines.toList).visited = s.onlines.toList := by
  refine ⟨?_, ?_, sweep_visited _ _⟩
  · rw [sweep_state, Gate.removeUsers, Std.TreeMap.foldl_eq_foldl_toList]
    congr 1
    funext sess e
    rw [removeRound]
    split_ifs <;> rfl
  · rw [sweep_left (fun sess => ∀ p, (sess p).gsId = (s.sess p).gsId) (fun e => decide ((s.sess e.2).gsId = gs)) ?_ ?_
      (fun _ => rfl)]
    · simp
    · intro sess e hsess p
      rw [removeRound_gsId, hsess]
    · intro sess e hsess
      rw [removeRound_hit, hsess]

theorem removeUsers_win32 : RemoveUsersRight .returned s gs := by
  obtain ⟨hstate, hleft, hvisited⟩ := removeRound_right s gs
  obtain ⟨r, hr, hrecon⟩ : EraseValueRight .returned s.reconMap gs := eraseValue_win32
  refine ⟨(_, r), ?_, hstate, hleft, hvisited, hrecon⟩
  rw [removeUsers, eraseLoop_returned (toList_keys_nodup _), Option.bind_some, hr]
  rfl

theorem removeUsers_right_iff :
    RemoveUsersRight .increment s gs ↔
      (∀ (t : ℕ) p, s.onlines[t]? = some p → (s.sess p).gsId ≠ gs) ∧ ∀ t : ℕ, s.reconMap[t]? ≠ some gs := by
  have hquiet : ∀ sess e, (removeRound gs sess e).2 = false → (removeRound gs sess e).1 = sess := by
    intro sess e hit
    rw [removeRound_hit, decide_eq_false_iff_not] at hit
    rw [removeRound, if_neg hit]
  have husers := eraseLoop_increment_iff (s := s.sess)
    (P := fun r => r.state = (Gate.removeUsers s gs).sess ∧
      (r.left = s.onlines.toList.filter fun e => (s.sess e.2).gsId ≠ gs) ∧ r.visited = s.onlines.toList)
    hquiet (toList_keys_nodup s.onlines) (removeRound_right s gs)
  have hnone : (∀ e ∈ s.onlines.toList, (removeRound gs s.sess e).2 = false) ↔
      ∀ (t : ℕ) p, s.onlines[t]? = some p → (s.sess p).gsId ≠ gs := by
    simp only [removeRound_hit, decide_eq_false_iff_not]
    constructor
    · intro hall t p ht
      exact hall (t, p) (Std.TreeMap.mem_toList_iff_getElem?_eq_some.2 ht)
    · intro hall e he
      exact hall e.1 e.2 (Std.TreeMap.mem_toList_iff_getElem?_eq_some.1 he)
  rw [← hnone, ← husers, ← eraseValue_right_iff]
  constructor
  · rintro ⟨r, hr, hstate, hleft, hvisited, hrecon⟩
    obtain ⟨users, hloop, hr⟩ := Option.bind_eq_some_iff.1 hr
    obtain ⟨recon, hvalue, rfl⟩ := Option.map_eq_some_iff.1 hr
    exact ⟨⟨users, hloop, hstate, hleft, hvisited⟩, ⟨recon, hvalue, hrecon⟩⟩
  · rintro ⟨⟨users, hloop, hstate, hleft, hvisited⟩, ⟨recon, hvalue, hrecon⟩⟩
    refine ⟨(users, recon), ?_, hstate, hleft, hvisited, hrecon⟩
    rw [removeUsers, hloop, Option.bind_some, hvalue]
    rfl

/-! ## All of them -/

section

variable {K V : Type*} [DecidableEq K] [Ord K] [DecidableEq V] [Std.TransOrd K]

theorem erase_loops_win32 (m : Std.TreeMap K V) (v : V) (h : DreamHero) (s : Gate.St) (gs : ℕ) :
    EraseValueRight .returned m v ∧ CrearteDealRight .returned h ∧ RemoveUsersRight .returned s gs :=
  ⟨eraseValue_win32, crearteDeal_win32, removeUsers_win32⟩

variable [Std.LawfulEqOrd K]

/-- **Erasing while iterating.** Each of the loops does what it is for exactly when no entry matches: no entry has the
value, no deal waits to be paid, no online session and no reconnect is of the game server, no deal is complete. -/
theorem erase_loops_iff (m : Std.TreeMap K V) (v : V) (h saved : DreamHero) (s : Gate.St) (gs : ℕ) :
    (EraseValueRight .increment m v ↔ ∀ k : K, m[k]? ≠ some v) ∧
      (CrearteDealRight .increment h ↔ ∀ (k : ℤ) e, h.dealsWaitToPay[k]? = some e → e.type ≠ .waitToPay) ∧
      (RemoveUsersRight .increment s gs ↔
        (∀ (t : ℕ) p, s.onlines[t]? = some p → (s.sess p).gsId ≠ gs) ∧ ∀ t : ℕ, s.reconMap[t]? ≠ some gs) ∧
      (SaveHeroRight .increment saved ↔ ∀ (k : ℤ) e, saved.dealsWaitToPay[k]? = some e → e.type ≠ .complete) :=
  ⟨eraseValue_right_iff, crearteDeal_right_iff, removeUsers_right_iff, saveHero_right_iff .increment⟩

end

/-! ### Two accounts, two deals, two transactions -/

def paidDeal : DealWaitToPay where
  keyCode := "gem"
  status := 0
  price := 6
  orderId := 1
  type := .complete

def waitingDeal : DealWaitToPay where
  keyCode := "gem"
  status := 0
  price := 6
  orderId := 2
  type := .waitToPay

def accounts : Std.TreeMap ℕ ℕ := ((∅ : Std.TreeMap ℕ ℕ).insert 1 7).insert 2 8

def payer : DreamHero where
  dealsWaitToPay := ((∅ : Std.TreeMap ℤ DealWaitToPay).insert 1 paidDeal).insert 2 waitingDeal

/-- the session 10 of the transaction 7 is on the game server 3, and the transaction 8 waits for the game server 4 -/
def twoTrans : Gate.St where
  onlines := (∅ : Std.TreeMap ℕ ℕ).insert 7 10
  reconMap := (∅ : Std.TreeMap ℕ ℕ).insert 8 4
  sess := fun _ => { tranid := 7, gsId := 3, state := .connect }

/-- what matches nothing is done right, and what matches is not -/
theorem erase_loops_iff_nat :
    (EraseValueRight .increment accounts 9 ∧ RemoveUsersRight .increment twoTrans 5) ∧
      ¬EraseValueRight .increment accounts 7 ∧ ¬CrearteDealRight .increment payer ∧
      ¬RemoveUsersRight .increment twoTrans 4 ∧ ¬SaveHeroRight .increment payer := by
  obtain ⟨hvalue, -, husers, -⟩ := erase_loops_iff accounts 9 payer payer twoTrans 5
  obtain ⟨hvalue', hdeals', husers', hsave'⟩ := erase_loops_iff accounts 7 payer payer twoTrans 4
  have hfirst : accounts[1]? = some 7 := by decide
  have hpaid : payer.dealsWaitToPay[(1 : ℤ)]? = some paidDeal := by decide
  have hwaiting : payer.dealsWaitToPay[(2 : ℤ)]? = some waitingDeal := by decide
  have hpark : twoTrans.reconMap[8]? = some 4 := by decide
  refine ⟨⟨hvalue.2 fun k hk => ?_, husers.2 ⟨fun t p _ => by simp [twoTrans], fun t ht => ?_⟩⟩,
    fun h => hvalue'.1 h 1 hfirst, fun h => hdeals'.1 h 2 waitingDeal hwaiting rfl,
    fun h => (husers'.1 h).2 8 hpark, fun h => hsave'.1 h 1 paidDeal hpaid rfl⟩
  · rw [accounts, get_insert, get_insert] at hk
    split_ifs at hk <;> simp at hk
  · rw [twoTrans, get_insert] at ht
    split_ifs at ht <;> simp at ht

/-- the account 1 of the transaction 7 is erased, and a complete deal is kept -/
theorem erase_loops_wrong :
    ¬EraseValueRight .increment ((∅ : Std.TreeMap ℕ ℕ).insert 1 7) 7 ∧
      ¬SaveHeroRight .increment { dealsWaitToPay := (∅ : Std.TreeMap ℤ DealWaitToPay).insert 1 paidDeal } := by
  rw [eraseValue_right_iff, saveHero_right_iff]
  constructor
  · intro hall
    exact hall 1 Std.TreeMap.getElem?_insert_self
  · intro hall
    exact hall 1 paidDeal Std.TreeMap.getElem?_insert_self rfl

end DreamHeroes.EraseLoops

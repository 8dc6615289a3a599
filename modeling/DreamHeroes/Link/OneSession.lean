/-
One account, one session: the login server and any number of gates, with a connection in order between them.

A new login of an account that is in makes the login server kick the old session from its gate and let the account in
somewhere with a new transaction id. A gate is named by the session object of the login server for its connection.

- `Proper`: the connections hold, each gate registers once under an id of its own, and no client logs in with an id that
  its gate has handled the kick of.
- `Admits`: who is online at a gate, waits there or may reconnect, against what the gate has been told.
- `one_session`: whoever is online somewhere is there by the table of accounts of the login server, or a message about
  him is on its way; so an account that no message is on its way about is online once.
- `back_after_kick`: a client that comes back after the kick; the account is online at two gates.
-/
import Mathlib.Tactic
import DreamHeroes.Gate.KickFinal
import DreamHeroes.Gate.MapInvariant
import DreamHeroes.Link.Authentic
import DreamHeroes.Login.Mails

namespace DreamHeroes.Link.OneSession

open DreamHeroes.Lib
open DreamHeroes.Login (GateMsg admitted admitted_snoc admitted_append mem_of_admitted keepsGates)
open DreamHeroes.Link.Authentic (gateEvent toGateOp Vouched)

/-! ## The servers -/

structure St where
  login : Login.St
  gate : ℕ → Gate.St
  /-- how many of the messages on its connection the gate has handled -/
  handled : ℕ → ℕ

def told (s : St) (q : ℕ) : List GateMsg := (s.login.mail q).take (s.handled q)

def coming (s : St) (q : ℕ) : List GateMsg := (s.login.mail q).drop (s.handled q)

/-- `UserManager::makeRegisterData` -/
def makeRegisterData (g : Gate.St) : List Login.GTLGData :=
  g.onlineaccs.toList.map fun e => ⟨e.1, UInt32.ofNat e.2⟩

inductive Op where
  | login (o : Login.Op)
  /-- `GateLoginClient::on_connect` of the gate `q`, and the login server handles what it sends -/
  | register (q serverid : ℕ) (ip : String) (port : ℕ)
  | gate (q : ℕ) (o : Gate.Op)
  /-- the gate `q` handles the next message on its connection -/
  | deliver (q : ℕ)

def setGate (s : St) (q : ℕ) (o : Gate.Op) : St :=
  { s with gate := Function.update s.gate q (Gate.step (s.gate q) o) }

variable (cfg : Login.Cfg)

def step (s : St) : Op → St
  | .login o => if keepsGates o then { s with login := Login.step cfg s.login o } else s
  | .register q serverid ip port =>
    { s with login := Login.step cfg s.login (.gateRegister q ⟨serverid, ip, port, makeRegisterData (s.gate q)⟩) }
  | .gate q o => if gateEvent o then setGate s q o else s
  | .deliver q =>
    match (s.login.mail q)[s.handled q]? with
    | some m => { setGate s q (toGateOp m) with handled := Function.update s.handled q (s.handled q + 1) }
    | none => s

def start (n onceListenCount : ℕ) (gsIdleMax : ℕ → ℕ) : St where
  login := Login.create n onceListenCount
  gate q := Gate.init (gsIdleMax q)
  handled _ := 0

/-- the last that the gate has been told about the id is its kick -/
def Kicked (l : List GateMsg) (t : ℕ) : Prop := admitted l t = none ∧ ∃ m ∈ l, m.transid = t

instance (l : List GateMsg) (t : ℕ) : Decidable (Kicked l t) := inferInstanceAs (Decidable (_ ∧ _))

def Proper (s : St) : Op → Prop
  | .login o => keepsGates o = true
  | .register q serverid _ _ => (0 < serverid % 2 ^ 8 ∧ serverid % 2 ^ 8 < Login.maxGateId) ∧
      s.login.gates (serverid % 2 ^ 8) = none ∧ (s.login.gate q).gateId = 0
  | .gate q (.loginGame _ t) => ¬Kicked (told s q) t
  | _ => True

instance (s : St) : (o : Op) → Decidable (Proper s o)
  | .login _ => inferInstanceAs (Decidable (_ = _))
  | .register .. => inferInstanceAs (Decidable (_ ∧ _ ∧ _))
  | .gate _ (.loginGame ..) => inferInstanceAs (Decidable ¬_)
  | .gate _ (.accept _) => isTrue trivial
  | .gate _ (.addToWait ..) => isTrue trivial
  | .gate _ (.kickUser ..) => isTrue trivial
  | .gate _ (.onClose _) => isTrue trivial
  | .gate _ (.fireRemoveWait _) => isTrue trivial
  | .gate _ (.fireRemoveReconn _) => isTrue trivial
  | .gate _ (.changeGS ..) => isTrue trivial
  | .gate _ (.gameRegister _) => isTrue trivial
  | .gate _ (.gameOnlines ..) => isTrue trivial
  | .gate _ (.gameClose _) => isTrue trivial
  | .deliver _ => isTrue trivial

/-! ## A gate -/

/-- the maps of a gate that has been told `l` -/
structure Admits (l : List GateMsg) (g : Gate.St) : Prop where
  wait : ∀ t a : ℕ, g.waitMap[t]? = some a → admitted l t ≠ none
  online : ∀ t p : ℕ, g.onlines[t]? = some p → admitted l t ≠ none
  recon : ∀ t gs : ℕ, g.reconMap[t]? = some gs → ∃ m ∈ l, m.transid = t
  conn : ∀ p, (g.sess p).state = .connect → ∃ m ∈ l, m.transid = (g.sess p).tranid

variable {l : List GateMsg} {g g' : Gate.St}

/-- a session that was connected before, with the same id -/
def SameConn (u u' : Gate.UserSession) : Prop := u'.state = .connect → u.state = .connect ∧ u'.tranid = u.tranid

theorem Admits.less (h : Admits l g) (hwait : ∀ t a : ℕ, g'.waitMap[t]? = some a → g.waitMap[t]? = some a)
    (honline : ∀ t p : ℕ, g'.onlines[t]? = some p → g.onlines[t]? = some p)
    (hrecon : ∀ t gs : ℕ, g'.reconMap[t]? = some gs → g.reconMap[t]? = some gs)
    (hconn : ∀ p, SameConn (g.sess p) (g'.sess p)) : Admits l g' := by
  refine ⟨fun t a ht => h.wait t a (hwait t a ht), fun t p ht => h.online t p (honline t p ht),
    fun t gs ht => h.recon t gs (hrecon t gs ht), fun p hp => ?_⟩
  obtain ⟨hstate, htran⟩ := hconn p hp
  rw [htran]
  exact h.conn p hstate

theorem Admits.congr (h : Admits l g) (hwait : g'.waitMap = g.waitMap) (honline : g'.onlines = g.onlines)
    (hrecon : g'.reconMap = g.reconMap) (hconn : ∀ p, SameConn (g.sess p) (g'.sess p)) : Admits l g' := by
  refine h.less (fun t a ht => ?_) (fun t p ht => ?_) (fun t gs ht => ?_) hconn
  · rwa [hwait] at ht
  · rwa [honline] at ht
  · rwa [hrecon] at ht

theorem sameConn_update (f : ℕ → Gate.UserSession) (p : ℕ) {u : Gate.UserSession} (hu : SameConn (f p) u) (q : ℕ) :
    SameConn (f q) (Function.update f p u q) := by
  rcases eq_or_ne q p with rfl | hq
  · rw [Function.update_self]
    exact hu
  · rw [Function.update_of_ne hq]
    exact fun hstate => ⟨hstate, rfl⟩

/-- a session that changes to another state than connected -/
theorem sameConn_setState (g : Gate.St) (p : ℕ) {x : Gate.SessionState} (hx : x ≠ .connect) (q : ℕ) :
    SameConn (g.sess q) ((g.modSess p (·.setState x)).sess q) := by
  refine sameConn_update g.sess p (fun hstate => absurd ?_ hx) q
  cases x with
  | connect => rfl
  | disable => cases hstate
  | waitAccount => cases hstate
  | waitClose => cases hstate

theorem sameConn_removeUsers (gs : ℕ) (es : List (ℕ × ℕ)) (f : ℕ → Gate.UserSession) (q : ℕ) :
    SameConn (f q) (es.foldl (fun f e => if (f e.2).gsId = gs then
      Function.update f e.2 ((f e.2).setState .waitClose) else f) f q) := by
  induction es generalizing f with
  | nil => exact fun hstate => ⟨hstate, rfl⟩
  | cons e es ih =>
    rw [List.foldl_cons]
    intro hstate
    obtain ⟨hnext, htran⟩ := ih _ hstate
    rw [htran]
    split_ifs at hnext ⊢ with hgs
    · exact sameConn_update f e.2 (fun hclose => by cases hclose) q hnext
    · exact ⟨hnext, rfl⟩

theorem admits_login (h : Admits l g) (p : ℕ) {t : ℕ} (ht : ¬Kicked l t) : Admits l (Gate.parseLoginGame g p t) := by
  have hremove : Admits l (Gate.eventCallRemoveWait g t) :=
    h.less (fun j a hj => ((get_erase_eq_some _ _ _ _).1 hj).2) (fun _ _ hj => hj) (fun _ _ hj => hj)
      fun _ hstate => ⟨hstate, rfl⟩
  -- a login that passes: the id is admitted
  have hpass {g' : Gate.St} (hin : admitted l t ≠ none)
      (hwait : ∀ j a : ℕ, g'.waitMap[j]? = some a → g.waitMap[j]? = some a)
      (honline : g'.onlines = g.onlines.insertIfNew t p)
      (hrecon : ∀ j gs : ℕ, g'.reconMap[j]? = some gs → g.reconMap[j]? = some gs) (gs : ℕ)
      (hsess : g'.sess = Function.update g.sess p { g.sess p with gsId := gs, state := .connect, tranid := t }) :
      Admits l g' := by
    refine ⟨fun j a hj => h.wait j a (hwait j a hj), fun j p' hj => ?_, fun j gs hj => h.recon j gs (hrecon j gs hj),
      fun p' hstate => ?_⟩
    · rw [honline, get_insertIfNew] at hj
      split_ifs at hj with hjt
      · rw [hjt.1]
        exact hin
      · exact h.online j p' hj
    · rw [hsess] at hstate ⊢
      rcases eq_or_ne p' p with rfl | hp
      · rw [Function.update_self]
        obtain ⟨a, ha⟩ := Option.ne_none_iff_exists'.1 hin
        exact mem_of_admitted ha
      · rw [Function.update_of_ne hp] at hstate ⊢
        exact h.conn p' hstate
  rcases Gate.parseLoginGame_cases g p t with ⟨e, -⟩ | ⟨e, -⟩ | ⟨e, -⟩ | ⟨v, gs, e, -, hv, -⟩ |
    ⟨gs, e, -, -, hr⟩ <;> rw [e]
  · exact h
  · exact hremove.congr rfl rfl rfl (sameConn_setState _ p (by decide))
  · exact h.congr rfl rfl rfl (sameConn_setState _ p (by decide))
  · exact hpass (h.wait t v hv) (fun j a hj => ((get_erase_eq_some _ _ _ _).1 hj).2) rfl (fun _ _ hj => hj) gs rfl
  · exact hpass (fun hnone => ht ⟨hnone, h.recon t gs hr⟩) (fun _ _ hj => hj) rfl
      (fun j gs hj => ((get_erase_eq_some _ _ _ _).1 hj).2) gs rfl

theorem admits_onClose (h : Admits l g) (p : ℕ) : Admits l (Gate.onClose g p) := by
  have hsess : (Gate.onClose g p).sess = Function.update g.sess p ((g.sess p).setState .disable) := by
    simp only [Gate.onClose, Gate.checkClose]
    split_ifs <;> rfl
  refine ⟨fun t a ht => ?_, fun t p' ht => ?_, fun t gs ht => ?_, fun p' hstate => ?_⟩
  · rw [(Gate.onClose_waits g p).1] at ht
    exact h.wait t a ht
  · rw [Gate.onClose_onlines] at ht
    exact h.online t p' ((get_erase_eq_some _ _ _ _).1 ht).2
  · rw [Gate.onClose_reconMap] at ht
    split_ifs at ht with hparks
    · rw [hparks.1.1]
      exact h.conn p hparks.1.2.1
    · exact h.recon t gs ht
  · rw [hsess] at hstate ⊢
    obtain ⟨hold, htran⟩ := sameConn_update g.sess p (fun hdisable => by cases hdisable) p' hstate
    rw [htran]
    exact h.conn p' hold

/-- **The gate's own events.** -/
theorem admits_event (h : Admits l g) (o : Gate.Op) (ho : gateEvent o = true)
    (hlogin : ∀ p t, o = .loginGame p t → ¬Kicked l t) : Admits l (Gate.step g o) := by
  have hsame (p : ℕ) : SameConn (g.sess p) (g.sess p) := fun hstate => ⟨hstate, rfl⟩
  cases o with
  | accept p =>
    rw [Gate.step]
    split_ifs
    · exact h.congr rfl rfl rfl (sameConn_setState g p (by decide))
    · exact h
  | addToWait t a c => cases ho
  | kickUser t a => cases ho
  | loginGame p t =>
    rw [Gate.step]
    split_ifs
    · exact h
    · exact admits_login h p (hlogin p t rfl)
  | onClose p =>
    rw [Gate.step]
    split_ifs
    · exact h
    · exact admits_onClose h p
  | fireRemoveWait t =>
    rw [Gate.step]
    split_ifs
    · exact h.less (fun j a hj => ((get_erase_eq_some _ _ _ _).1 hj).2) (fun _ _ hj => hj) (fun _ _ hj => hj) hsame
    · exact h
  | fireRemoveReconn t =>
    rw [Gate.step]
    split_ifs
    · have hless : Admits l { g with
          reconTimers := g.reconTimers.erase t
          reconMap := g.reconMap.erase t
          onlineaccs := eraseVal g.onlineaccs t } :=
        h.less (fun _ _ hj => hj) (fun _ _ hj => hj) (fun j gs hj => ((get_erase_eq_some _ _ _ _).1 hj).2) hsame
      rw [Gate.eventCallRemoveReconn]
      dsimp only
      split_ifs
      · exact hless.congr rfl rfl rfl hsame
      · exact hless
    · exact h
  | changeGS gs t newGs =>
    rw [Gate.step]
    split_ifs
    · rw [Gate.parseChangeGS]
      split
      · exact h
      · rename_i p _
        dsimp only
        split_ifs
        · exact h
        · exact h.congr rfl rfl rfl (sameConn_update g.sess p fun hstate => ⟨hstate, rfl⟩)
        · exact h.congr rfl rfl rfl hsame
    · exact h
  | gameRegister gs =>
    rw [Gate.step]
    split_ifs
    · exact h.congr rfl rfl rfl hsame
    · exact h
  | gameOnlines gs n =>
    rw [Gate.step]
    split_ifs
    · exact h.congr rfl rfl rfl hsame
    · exact h
  | gameClose gs =>
    rw [Gate.step, Gate.removeActiveGameClient]
    split_ifs
    · refine h.less (fun _ _ hj => hj) (fun _ _ hj => hj) (fun j gs' hj => ?_) fun p => ?_
      · exact ((get_eraseVal_eq_some _ _ _ _).1 hj).1
      · simp only [Gate.removeUsers]
        rw [Std.TreeMap.foldl_eq_foldl_toList]
        exact sameConn_removeUsers gs _ g.sess p
    · exact h

/-- **A message of the login server.** -/
theorem admits_deliver (h : Admits l g) (hw : Gate.WaitInv g) (m : GateMsg) :
    Admits (l ++ [m]) (Gate.step g (toGateOp m)) := by
  have hmention {t : ℕ} (ht : ∃ m ∈ l, m.transid = t) : ∃ m' ∈ l ++ [m], m'.transid = t := by
    obtain ⟨m', hm', ht⟩ := ht
    exact ⟨m', List.mem_append_left _ hm', ht⟩
  have hother {t : ℕ} (ht : m.transid ≠ t) : admitted (l ++ [m]) t = admitted l t := by
    rw [admitted_snoc, if_neg ht]
  cases m with
  | kickUser data =>
    rw [toGateOp, Gate.step]
    have hsess : (Gate.kickUser g data.transid.toNat data.account).sess = g.sess := by
      unfold Gate.kickUser Gate.removePlayer Gate.sendActive
      split
      · rfl
      · dsimp only
        split <;> rfl
    refine ⟨fun t a ht => ?_, fun t p ht => ?_, fun t gs ht => hmention (h.recon t gs ?_), fun p hp => ?_⟩
    · rw [Gate.kickUser_waitMap] at ht
      split_ifs at ht with hin
      rw [hother]
      · exact h.wait t a ht
      · rintro rfl
        rcases hw.onWait data.transid.toNat with hnone | hnone
        · exact hin ⟨rfl, hnone⟩
        · exact Option.some_ne_none a (ht.symm.trans hnone)
    · rw [Gate.kickUser_onlines] at ht
      split_ifs at ht with hin
      rw [hother fun heq => hin heq.symm]
      exact h.online t p ht
    · rw [Gate.kickUser_reconMap] at ht
      split_ifs at ht
      exact ht
    · rw [hsess] at hp ⊢
      exact hmention (h.conn p hp)
  | userLogin data c =>
    rw [toGateOp, Gate.step]
    have hconn (p : ℕ) : SameConn (g.sess p) ((Gate.addToWait g data.transid.toNat data.account c).sess p) := by
      cases honline : g.onlines[data.transid.toNat]? with
      | some p' =>
        simp only [Gate.addToWait, honline]
        have hkick : (g.modSess p' fun u => { u with channel := c }).onlines[data.transid.toNat]? = some p' := honline
        rw [Gate.kickUser_online hkick]
        simp only [Gate.removePlayer, Gate.sendActive]
        exact sameConn_update g.sess p' (u := { g.sess p' with channel := c }) (fun hstate => ⟨hstate, rfl⟩) p
      | none =>
        simp only [Gate.addToWait, honline]
        exact fun hstate => ⟨hstate, rfl⟩
    refine ⟨fun t a ht => ?_, fun t p ht => ?_, fun t gs ht => hmention (h.recon t gs ?_), fun p hp => ?_⟩
    · rw [admitted_snoc]
      split_ifs with hin
      · exact Option.some_ne_none data.account
      · rw [Gate.addToWait_waitMap, if_neg fun heq => hin heq.1.symm] at ht
        exact h.wait t a ht
    · rw [Gate.addToWait_onlines] at ht
      split_ifs at ht with hin
      rw [hother fun heq => hin heq.symm]
      exact h.online t p ht
    · rw [Gate.addToWait_reconMap] at ht
      exact ht
    · obtain ⟨hold, htran⟩ := hconn p hp
      rw [htran]
      exact hmention (h.conn p hold)

/-! ## The invariant -/

structure Inv (s : St) : Prop where
  books : Login.Books s.login
  handled : ∀ q, s.handled q ≤ (s.login.mail q).length
  waits : ∀ q, Gate.WaitInv (s.gate q)
  admits : ∀ q, Admits (told s q) (s.gate q)
  vouched : ∀ q, Vouched (fun t _ => ∃ m ∈ told s q, m.transid = t) (s.gate q)

variable {s s' : St} {cfg}

/-- the login server goes on, and its old messages stay -/
theorem inv_mail (hs : Inv s) (hbooks : Login.Books s'.login) (hgate : s'.gate = s.gate)
    (hhandled : s'.handled = s.handled) (hmail : ∀ q, s.login.mail q <+: s'.login.mail q) : Inv s' := by
  have htold (q : ℕ) : told s' q = told s q := by
    obtain ⟨new, hnew⟩ := hmail q
    rw [told, told, hhandled, ← hnew, List.take_append_of_le_length (hs.handled q)]
  refine ⟨hbooks, fun q => ?_, fun q => ?_, fun q => ?_, fun q => ?_⟩
  · rw [hhandled]
    exact (hs.handled q).trans (hmail q).length_le
  · rw [hgate]
    exact hs.waits q
  · rw [htold, hgate]
    exact hs.admits q
  · rw [htold, hgate]
    exact hs.vouched q

theorem mail_mails {u u' : Login.St} (h : Login.Mails u u') (q : ℕ) : u.mail q <+: u'.mail q := by
  have happend {new : List (ℕ × GateMsg)} (hnew : u'.toGate = u.toGate ++ new) : u.mail q <+: u'.mail q := by
    rw [Login.St.mail, Login.St.mail, hnew, Login.mailTo_append]
    exact List.prefix_append _ _
  cases h with
  | still h => exact happend (by rw [h.toGate, List.append_nil])
  | drop a accts toGate => exact happend toGate
  | give a q' u c idle accts toGate => exact happend (by rw [toGate, List.append_assoc])

/-- a gate that has not registered has been told nothing -/
theorem told_new (hs : Inv s) {q : ℕ} (hnew : (s.login.gate q).gateId = 0) : told s q = [] := by
  have hnone : s.login.mail q = [] := by
    refine List.eq_nil_iff_forall_not_mem.2 fun m hm => ?_
    obtain ⟨-, hpos, -⟩ := hs.books.gates _ _ (hs.books.mailed q m (Login.mem_mailTo.1 hm))
    rw [hnew] at hpos
    exact lt_irrefl 0 hpos
  rw [told, hnone, List.take_nil]

theorem makeRegisterData_new (hs : Inv s) {q : ℕ} (hnew : (s.login.gate q).gateId = 0) :
    makeRegisterData (s.gate q) = [] := by
  rw [makeRegisterData, List.map_eq_nil_iff]
  refine List.eq_nil_iff_forall_not_mem.2 fun e he => ?_
  obtain ⟨m, hm, -⟩ := (hs.vouched q).accs e.1 e.2 (Std.TreeMap.mem_toList_iff_getElem?_eq_some.1 he)
  rw [told_new hs hnew] at hm
  exact List.not_mem_nil hm

theorem inv_register (hs : Inv s) {q serverid : ℕ} (ip : String) (port : ℕ)
    (h : Proper s (.register q serverid ip port)) : Inv (step cfg s (.register q serverid ip port)) := by
  obtain ⟨hid, hfree, hnew⟩ := h
  rw [step, makeRegisterData_new hs hnew]
  refine inv_mail hs (Login.books_register cfg hs.books ip port hid hfree hnew) rfl rfl fun q' => ?_
  have htoGate : (Login.step cfg s.login (.gateRegister q ⟨serverid, ip, port, []⟩)).toGate = s.login.toGate := by
    unfold Login.step
    split_ifs
    · rfl
    · dsimp only
      rw [Login.parseGateRegister, Login.registerAccounts, Login.addGate]
      split_ifs <;> rfl
  dsimp only
  rw [Login.St.mail, Login.St.mail, htoGate]

theorem inv_event (hs : Inv s) {q : ℕ} {o : Gate.Op} (ho : gateEvent o = true) (h : Proper s (.gate q o)) :
    Inv (setGate s q o) := by
  have hlogin (p t : ℕ) (hlog : o = .loginGame p t) : ¬Kicked (told s q) t := by
    rw [hlog] at h
    exact h
  refine ⟨hs.books, hs.handled, fun q' => ?_, fun q' => ?_, fun q' => ?_⟩ <;> rw [setGate] <;> dsimp only <;>
    rcases eq_or_ne q' q with rfl | hq
  · rw [Function.update_self]
    exact Gate.waitInv_step _ o (hs.waits q')
  · rw [Function.update_of_ne hq]
    exact hs.waits q'
  · rw [Function.update_self]
    exact admits_event (hs.admits q') o ho hlogin
  · rw [Function.update_of_ne hq]
    exact hs.admits q'
  · rw [Function.update_self]
    refine Authentic.vouched_step (hs.vouched q') o fun t a c hadd => ?_
    rw [hadd] at ho
    cases ho
  · rw [Function.update_of_ne hq]
    exact hs.vouched q'

theorem inv_deliver (hs : Inv s) (q : ℕ) : Inv (step cfg s (.deliver q)) := by
  rw [step]
  split
  · rename_i m hm
    have hlt : s.handled q < (s.login.mail q).length := (List.getElem?_eq_some_iff.1 hm).1
    have htold (q' : ℕ) : told { setGate s q (toGateOp m) with
        handled := Function.update s.handled q (s.handled q + 1) } q' =
          if q' = q then told s q ++ [m] else told s q' := by
      rw [told]
      dsimp only [setGate]
      rcases eq_or_ne q' q with rfl | hq
      · rw [Function.update_self, if_pos rfl, List.take_add_one, hm]
        rfl
      · rw [Function.update_of_ne hq, if_neg hq]
        rfl
    have hmention {t : ℕ} (ht : ∃ m' ∈ told s q, m'.transid = t) : ∃ m' ∈ told s q ++ [m], m'.transid = t := by
      obtain ⟨m', hm', ht⟩ := ht
      exact ⟨m', List.mem_append_left _ hm', ht⟩
    refine ⟨hs.books, fun q' => ?_, fun q' => ?_, fun q' => ?_, fun q' => ?_⟩
    · dsimp only [setGate]
      rcases eq_or_ne q' q with rfl | hq
      · rw [Function.update_self]
        exact hlt
      · rw [Function.update_of_ne hq]
        exact hs.handled q'
    · dsimp only [setGate]
      rcases eq_or_ne q' q with rfl | hq
      · rw [Function.update_self]
        exact Gate.waitInv_step _ _ (hs.waits q')
      · rw [Function.update_of_ne hq]
        exact hs.waits q'
    · rw [htold]
      dsimp only [setGate]
      rcases eq_or_ne q' q with rfl | hq
      · rw [Function.update_self, if_pos rfl]
        exact admits_deliver (hs.admits q') (hs.waits q') m
      · rw [Function.update_of_ne hq, if_neg hq]
        exact hs.admits q'
    · rw [htold]
      dsimp only [setGate]
      rcases eq_or_ne q' q with rfl | hq
      · rw [Function.update_self, if_pos rfl]
        refine Authentic.vouched_step ((hs.vouched q').mono fun t _ ht => hmention ht) _ fun t a c hadd => ?_
        cases m with
        | kickUser data => cases hadd
        | userLogin data channel =>
          cases hadd
          exact ⟨_, List.mem_append_right _ (List.mem_singleton_self _), rfl⟩
      · rw [Function.update_of_ne hq, if_neg hq]
        exact hs.vouched q'
  · exact hs

theorem inv_step (s : St) (o : Op) (hs : Inv s) (h : Proper s o) : Inv (step cfg s o) := by
  cases o with
  | login o =>
    have hkeeps : keepsGates o = true := h
    rw [step, if_pos hkeeps]
    have hmails := Login.mails_step cfg s.login hkeeps
    exact inv_mail hs (Login.books_mails hs.books hmails) rfl rfl (mail_mails hmails)
  | register q serverid ip port => exact inv_register hs ip port h
  | gate q o =>
    rw [step]
    split_ifs with ho
    · exact inv_event hs ho h
    · exact hs
  | deliver q => exact inv_deliver hs q

theorem inv_start (n onceListenCount : ℕ) (gsIdleMax : ℕ → ℕ) : Inv (start n onceListenCount gsIdleMax) where
  books := Login.books_create n onceListenCount
  handled _ := Nat.zero_le _
  waits q := Gate.waitInv_init (gsIdleMax q)
  admits q := ⟨by simp [start, Gate.init], by simp [start, Gate.init], by simp [start, Gate.init],
    fun p hp => (by cases hp)⟩
  vouched q := Authentic.vouched_init (gsIdleMax q)

/-! ## One session -/

/-- the table of accounts has the account at the gate, under the id -/
def Current (s : St) (q t a : ℕ) : Prop :=
  ∃ p, s.login.accts a = some p ∧ p.nGateId = (s.login.gate q).gateId ∧ p.nTranId.toNat = t

/-- the account is online at the gate, under the id, and no message about the id is on its way there -/
structure Plays (s : St) (q t a : ℕ) : Prop where
  online : (s.gate q).onlines[t]? ≠ none
  told : admitted (told s q) t = some a
  settled : ∀ m ∈ coming s q, m.transid ≠ t

structure Single (s : St) : Prop where
  current : ∀ q t, (s.gate q).onlines[t]? ≠ none →
    ∃ a, admitted (told s q) t = some a ∧ (Current s q t a ∨ ∃ m ∈ coming s q, m.transid = t)
  once : ∀ a q q' t t', Plays s q t a → Plays s q' t' a → q = q' ∧ t = t'

theorem admitted_mail {q t a : ℕ} (ha : admitted (told s q) t = some a) (hsettled : ∀ m ∈ coming s q, m.transid ≠ t) :
    admitted (s.login.mail q) t = some a := by
  have hsplit : s.login.mail q = told s q ++ coming s q := (List.take_append_drop _ _).symm
  rw [hsplit, admitted_append hsettled]
  exact ha

theorem single_inv (hs : Inv s) : Single s := by
  refine ⟨fun q t honline => ?_, fun a q q' t t' h h' => ?_⟩
  · obtain ⟨p, hp⟩ := Option.ne_none_iff_exists'.1 honline
    obtain ⟨a, ha⟩ := Option.ne_none_iff_exists'.1 ((hs.admits q).online t p hp)
    refine ⟨a, ha, ?_⟩
    by_cases hcoming : ∃ m ∈ coming s q, m.transid = t
    · exact Or.inr hcoming
    · push Not at hcoming
      exact Or.inl (hs.books.accts q t a (admitted_mail ha hcoming))
  · have hmail := admitted_mail h.told h.settled
    have hmail' := admitted_mail h'.told h'.settled
    obtain ⟨p, hp, hgate, ht⟩ := hs.books.accts q t a hmail
    obtain ⟨p', hp', hgate', ht'⟩ := hs.books.accts q' t' a hmail'
    obtain rfl : p = p' := Option.some.inj (hp.symm.trans hp')
    have hq := hs.books.mailed_of_admitted hmail
    have hq' := hs.books.mailed_of_admitted hmail'
    rw [← hgate] at hq
    rw [← hgate'] at hq'
    exact ⟨Option.some.inj (hq.symm.trans hq'), ht.symm.trans ht'⟩

/-- **One account, one session.** -/
theorem one_session (n onceListenCount : ℕ) (gsIdleMax : ℕ → ℕ) (ops : List Op)
    (hops : Along (step cfg) Proper (start n onceListenCount gsIdleMax) ops) :
    Single (run (step cfg) (start n onceListenCount gsIdleMax) ops) :=
  single_inv (inv_run inv_step (inv_start n onceListenCount gsIdleMax) hops)

/-- Ann logs in and goes to the gate `7`; she logs in again and is sent to the gate `8` -/
def twiceOps (id id' : ℕ) : List Op :=
  [.register 7 1 "10.0.0.9" 9000, .register 8 2 "10.0.0.9" 9001] ++ Login.askedOps.tail.map .login ++
    [.login (.dbDone 0 (some (5, 0)) true 1000), .deliver 7, .gate 7 (.gameRegister 3), .gate 7 (.accept 10),
      .gate 7 (.loginGame 10 id), .login (.read 0 1 .frames [.loginRequest { name := "ann", pwd := "pw" }]),
      .login (.process 0), .login (.dbDone 0 (some (5, 0)) true 1001), .deliver 7, .deliver 8,
      .gate 8 (.gameRegister 3), .gate 8 (.accept 20), .gate 8 (.loginGame 20 id')]

def annsIds : ℕ × ℕ :=
  ((Login.makeTransId "annpw10.0.0.1" 1000).toNat, (Login.makeTransId "annpw10.0.0.1" 1001).toNat)

theorem one_session_twice : Single (run (step Login.annsCfg) (start 1 1 fun _ => 100) (twiceOps annsIds.1 annsIds.2)) :=
  one_session 1 1 (fun _ => 100) (twiceOps annsIds.1 annsIds.2) (by decide +kernel)

/-- the client at the gate `7` comes back after its kick: the account is online at both gates -/
theorem back_after_kick : ∃ ops s, s = run (step Login.annsCfg) (start 1 1 fun _ => 100) ops ∧ Plays s 8 annsIds.2 5 ∧
    (s.gate 7).onlines[annsIds.1]? = some 10 ∧ coming s 7 = [] := by
  refine ⟨twiceOps annsIds.1 annsIds.2 ++
    [.gate 7 (.onClose 10), .gate 7 (.accept 10), .gate 7 (.loginGame 10 annsIds.1)], _, rfl, ⟨?_, ?_, ?_⟩, ?_, ?_⟩
  · decide +kernel
  · decide +kernel
  · decide +kernel
  · decide +kernel
  · decide +kernel

end DreamHeroes.Link.OneSession

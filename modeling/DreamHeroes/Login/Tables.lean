/-
What an event of the login server does to the accounts, to the waiting sessions and to the grants, and which replies it
sends.

- `Quiet`: the tables stay as they are, and no reply that is sent carries a transaction id. This is what every function
  does except four (`quiet_netStep`, `quiet_process` and the others).
- `Given`: a login gets its id and waits for the gate (`checkAccountCall_cases`).
- `step_cases`: the five things an event can be. The invariants of the modules on top follow from it alone.
-/
import Mathlib.Tactic
import DreamHeroes.Lib.OrdMap
import DreamHeroes.Login.LoginServer

namespace DreamHeroes.Login

open DreamHeroes.Lib

variable (cfg : Cfg)

/-- the transaction id a reply carries -/
def Reply.transId : Reply → Option UInt32
  | .loginResponse m => m.userAccount
  | _ => none

/-! ## Events that leave the tables alone -/

structure Quiet (s s' : St) : Prop where
  accts : s'.accts = s.accts
  waits : s'.waits = s.waits
  granted : s'.granted = s.granted
  sent : ∃ new, s'.sent = s.sent ++ new ∧ ∀ r ∈ new, r.2.transId = none

theorem Quiet.of_eq {s s' : St} (h1 : s'.accts = s.accts) (h2 : s'.waits = s.waits) (h3 : s'.granted = s.granted)
    (h4 : s'.sent = s.sent) : Quiet s s' :=
  ⟨h1, h2, h3, [], by rw [h4, List.append_nil], fun _ hr => absurd hr List.not_mem_nil⟩

theorem Quiet.refl (s : St) : Quiet s s := .of_eq rfl rfl rfl rfl

theorem Quiet.trans {s s' s'' : St} (h : Quiet s s') (h' : Quiet s' s'') : Quiet s s'' := by
  obtain ⟨new, hnew, hn⟩ := h.sent
  obtain ⟨new', hnew', hn'⟩ := h'.sent
  refine ⟨h'.accts.trans h.accts, h'.waits.trans h.waits, h'.granted.trans h.granted, new ++ new', ?_, ?_⟩
  · rw [hnew', hnew, List.append_assoc]
  · intro r hr
    rcases List.mem_append.1 hr with hr | hr
    · exact hn r hr
    · exact hn' r hr

theorem quiet_modUser (s : St) (p : ℕ) (f : UserLoginSession → UserLoginSession) : Quiet s (s.modUser p f) :=
  .of_eq rfl rfl rfl rfl

theorem quiet_setState (s : St) (p : ℕ) (x : SessionState) : Quiet s (setState s p x) := quiet_modUser s p _

theorem quiet_modGate (s : St) (q : ℕ) (f : GateSession → GateSession) : Quiet s (s.modGate q f) :=
  .of_eq rfl rfl rfl rfl

theorem quiet_sendPBMessage (s : St) (p : ℕ) {r : Reply} (h : r.transId = none) : Quiet s (sendPBMessage s p r) := by
  refine ⟨rfl, rfl, rfl, _, rfl, ?_⟩
  intro r' hr'
  split_ifs at hr'
  · rw [List.mem_singleton.1 hr']
    exact h
  · cases hr'

theorem quiet_checkAccount (s : St) (name pwd : String) (channel : ℤ) (p : ℕ) (t : CheckType) (conn : ℕ × ℕ) :
    Quiet s (checkAccount s name pwd channel p t conn) := .of_eq rfl rfl rfl rfl

theorem quiet_addGate (s : St) (nId q : ℕ) : Quiet s (addGate s nId q) := by
  unfold addGate
  split_ifs
  · exact .of_eq rfl rfl rfl rfl
  · exact .refl s

theorem addGate_sent (s : St) (nId q : ℕ) : (addGate s nId q).sent = s.sent := by
  unfold addGate
  split_ifs
  · rfl
  · rfl

theorem quiet_removeGate (s : St) (q : ℕ) : Quiet s (removeGate s q) := by
  unfold removeGate
  dsimp only
  split_ifs
  · exact .of_eq rfl rfl rfl rfl
  · exact .refl s

theorem quiet_netStep (s : St) (o : Net.Op) : Quiet s (netStep s o) := by
  have hnext : Quiet s { s with net := Net.step s.net o } := .of_eq rfl rfl rfl rfl
  unfold netStep
  dsimp only
  split
  · split_ifs
    · exact hnext.trans (quiet_modUser _ _ _)
    · exact hnext
  · split
    · exact hnext
    · exact hnext.trans (quiet_setState _ _ _)
    · split_ifs
      · exact (hnext.trans (quiet_modUser _ _ _)).trans (quiet_modUser _ _ _)
      · exact hnext.trans (quiet_modUser _ _ _)
  · exact hnext

theorem quiet_read (s : St) (p gen : ℕ) (r : Net.ReadResult) (msgs : List Msg) : Quiet s (read s p gen r msgs) := by
  have hnet := quiet_netStep s (.readSome p gen r)
  unfold read
  dsimp only
  split_ifs
  · exact hnet.trans (.of_eq rfl rfl rfl rfl)
  · exact hnet

theorem quiet_parsePlatformVerify (s : St) (p : ℕ) (m : C2SPlatformVerifyReq) (status : ℤ) (conn : ℕ × ℕ) :
    Quiet s (parsePlatformVerify s p m status conn) := by
  unfold parsePlatformVerify
  split_ifs
  · exact .of_eq rfl rfl rfl rfl
  · exact .refl s

theorem requestResult_transId {m : LoginRequest} {r : LoginResponse} (h : requestResult cfg m = some r) :
    r.userAccount = none := by
  unfold requestResult at h
  split_ifs at h
  · rw [← Option.some.inj h]
  · rw [← Option.some.inj h]
  · rw [← Option.some.inj h]

theorem quiet_parseLoginGame (s : St) (p : ℕ) (m : LoginRequest) (conn : ℕ × ℕ) :
    Quiet s (parseLoginGame cfg s p m conn) := by
  have herror : Quiet s (if mustVerify cfg m ∧ refused s p m then
      sendPBMessage s p (.loginResponse { result := .errorNeedThirdVerify }) else s) := by
    split_ifs
    · exact quiet_sendPBMessage s p rfl
    · exact .refl s
  unfold parseLoginGame
  refine iteInduction (fun _ => ?_) fun _ => herror
  split
  · rename_i r hr
    exact herror.trans (quiet_sendPBMessage _ p (requestResult_transId cfg hr))
  · exact herror.trans (quiet_checkAccount _ _ _ _ _ _ _)

theorem quiet_process (s : St) (status : ℤ) : Quiet s (process cfg s status) := by
  unfold process
  split
  · exact .refl s
  · rename_i conn m rest hrecv
    have hpop : Quiet s { s with recv := rest } := .of_eq rfl rfl rfl rfl
    dsimp only
    split_ifs
    · cases m with
      | loginRequest m => exact hpop.trans (quiet_parseLoginGame cfg _ _ _ _)
      | registerAccountRequest m => exact hpop.trans (quiet_checkAccount _ _ _ _ _ _ _)
      | platformVerifyReq m => exact hpop.trans (quiet_parsePlatformVerify _ _ _ _ _)
    · exact hpop

theorem quiet_createNewAccount (s : St) (d : CheckAcct) (sucess : Bool) : Quiet s (createNewAccount s d sucess) := by
  have hfail := (quiet_sendPBMessage s d.ower (r := .registerAccountFaildACK) rfl).trans
    (quiet_setState _ d.ower .waitClose)
  unfold createNewAccount
  split_ifs
  · exact hfail
  · exact hfail
  · exact .of_eq rfl rfl rfl rfl
  · exact .refl s

theorem quiet_httpUpdate (s : St) (r : HttpReply) : Quiet s (httpUpdate s r) := by
  unfold httpUpdate
  split
  · exact .refl s
  · exact .of_eq rfl rfl rfl rfl

theorem quiet_logicUpdate (s : St) : Quiet s (logicUpdate s) := by
  unfold logicUpdate
  split
  · exact .refl s
  · rename_i t rest hcomplete
    have hpop : Quiet s { s with complete := rest } := .of_eq rfl rfl rfl rfl
    unfold logicExcute
    dsimp only
    refine Quiet.trans ?_ (quiet_sendPBMessage _ _ rfl)
    split_ifs
    · exact hpop.trans (quiet_modUser _ _ _)
    · exact hpop

/-! ## A login that is checked -/

/-- the account `a` gets the id `t`, and the object waits under it unless another does -/
structure Given (s s' : St) (a : ℕ) (t : UInt32) (w : Wait) : Prop where
  acct : w.acct = a
  accts : ∃ g, s'.accts = Function.update s.accts a (some ⟨g, a, t⟩)
  waits : s'.waits = Function.update s.waits t ((s.waits t).or (some w))
  granted : s'.granted = s.granted ++ [(a, t, w.conn)]
  sent : s'.sent = s.sent

/-- which gate is idle is read from the gates alone -/
theorem getIdleGate_congr {s s' : St} (h1 : s'.gates = s.gates) (h2 : s'.gate = s.gate) :
    getIdleGate s' = getIdleGate s := by
  rw [getIdleGate, getIdleGate, h1, h2]

theorem giveUserToGate_given {s s' : St} {a p g : ℕ} {t : UInt32} {conn : ℕ × ℕ}
    (h : giveUserToGate s a ⟨g, a, t⟩ p conn = some s') : getIdleGate s ≠ none ∧ Given s s' a t ⟨p, a, conn⟩ := by
  unfold giveUserToGate at h
  split at h
  · cases h
  · rename_i q hidle
    obtain rfl := Option.some.inj h
    exact ⟨by rw [hidle]; exact Option.some_ne_none q, rfl, ⟨_, rfl⟩, rfl, rfl, rfl⟩

/-- **What the callback of a check does.** It leaves the tables alone, or it takes the account out because there is no
gate, or the login gets its id. -/
theorem checkAccountCall_cases (s : St) (d : CheckAcct) (sucess : Bool) (now : ℕ) :
    Quiet s (checkAccountCall cfg s d sucess now) ∨
      (∃ new, (checkAccountCall cfg s d sucess now).accts = Function.update s.accts d.acct none ∧
        (checkAccountCall cfg s d sucess now).waits = s.waits ∧
        (checkAccountCall cfg s d sucess now).granted = s.granted ∧
        (checkAccountCall cfg s d sucess now).sent = s.sent ++ new ∧ ∀ r ∈ new, r.2.transId = none) ∨
      ((s.net.sess d.ower).isvalid = true ∧ sucess = true ∧ d.acct ≠ 0 ∧ getIdleGate s ≠ none ∧
        Given s (checkAccountCall cfg s d sucess now) d.acct (loginId cfg s d now) ⟨d.ower, d.acct, d.conn⟩) := by
  obtain ⟨msgs, hkick⟩ := kickOld_eq s d.acct
  unfold checkAccountCall
  split_ifs with hvalid hsucess hacct
  · exact .inl ((quiet_sendPBMessage s d.ower rfl).trans (quiet_setState _ _ _))
  · right
    dsimp only
    rw [hkick]
    split
    · rename_i s' hgive
      obtain ⟨hidle, hgiven⟩ := giveUserToGate_given hgive
      obtain ⟨g, hg⟩ := hgiven.accts
      have haccts : s'.accts = Function.update s.accts d.acct (some ⟨g, d.acct, loginId cfg s d now⟩) :=
        hg.trans (Function.update_idem _ _ _)
      have hsame : getIdleGate (setAcct { s with toGate := s.toGate ++ msgs } d.acct ⟨0, d.acct, loginId cfg s d now⟩) =
          getIdleGate s := getIdleGate_congr rfl rfl
      exact .inr ⟨hvalid, by simpa using hsucess, hacct, hsame ▸ hidle, rfl, ⟨g, haccts⟩, hgiven.waits, hgiven.granted,
        hgiven.sent⟩
    · obtain ⟨new, hnew, hn⟩ :=
        (quiet_sendPBMessage (removeAccount (setAcct { s with toGate := s.toGate ++ msgs } d.acct
          { nGateId := 0, nId := d.acct, nTranId := loginId cfg s d now }) d.acct) d.ower
          (r := .loginResponse { result := .fail }) rfl).sent
      exact .inl ⟨new, Function.update_idem _ _ _, rfl, rfl, hnew, hn⟩
  · exact .inl ((quiet_setState s d.ower _).trans (quiet_sendPBMessage _ _ rfl))
  · exact .inl (.refl s)

/-! ## Messages of a gate -/

/-- registering touches the accounts, the gates and what is sent to them -/
theorem registerAccounts_frame (gateId : ℕ) (ds : List GTLGData) (s : St) :
    (registerAccounts cfg gateId ds s).waits = s.waits ∧ (registerAccounts cfg gateId ds s).granted = s.granted ∧
      (registerAccounts cfg gateId ds s).sent = s.sent := by
  induction ds generalizing s with
  | nil => exact ⟨rfl, rfl, rfl⟩
  | cons d ds ih =>
    unfold registerAccounts
    split
    · exact ih _
    · split_ifs
      · exact ih _
      · exact ih _
      · exact ⟨rfl, rfl, rfl⟩

/-! ## One event -/

/-- what an event can be, by what it does to the tables -/
inductive Event (s : St) : Op → St → Prop
  | quiet {o : Op} {s' : St} (h : Quiet s s') : Event s o s'
  /-- there is no gate for the login -/
  | drop {i : ℕ} {row : Option (ℕ × ℕ)} {sucess : Bool} {now : ℕ} {s' : St} {a : ℕ}
      {new : List ((ℕ × ℕ) × Reply)} (accts : s'.accts = Function.update s.accts a none) (waits : s'.waits = s.waits)
      (granted : s'.granted = s.granted) (sent : s'.sent = s.sent ++ new) (hnew : ∀ r ∈ new, r.2.transId = none) :
      Event s (.dbDone i row sucess now) s'
  | give {i : ℕ} {row : Option (ℕ × ℕ)} {now : ℕ} {s' : St} {d : CheckAcct} (task : s.tasks[i]? = some d)
      (check : d.checkType = .loginCheck) (valid : (s.net.sess d.ower).isvalid = true)
      (acct : (d.batchQuery row).acct ≠ 0) (idle : getIdleGate s ≠ none)
      (given : Given s s' (d.batchQuery row).acct (loginId cfg s d now) ⟨d.ower, (d.batchQuery row).acct, d.conn⟩) :
      Event s (.dbDone i row true now) s'
  | register {q : ℕ} {m : MsgGTRegisterLG} {s' r : St} (start : r.accts = s.accts)
      (accts : s' = registerAccounts cfg (m.serverid % 2 ^ 8) m.accounts r) (waits : s'.waits = s.waits)
      (granted : s'.granted = s.granted) (sent : s'.sent = s.sent) : Event s (.gateRegister q m) s'
  | prepar {q account : ℕ} {s' : St} {w : Wait} {m : LoginResponse} (hw : s.waits (UInt32.ofNat account) = some w)
      (hm : m.userAccount = some (UInt32.ofNat account)) (accts : s'.accts = s.accts)
      (waits : s'.waits = Function.update s.waits (UInt32.ofNat account) none) (granted : s'.granted = s.granted)
      (sent : s'.sent = s.sent ++
        if (s.net.sess w.session).isvalid ∧ (s.net.sess w.session).isconnected then
          [(s.net.conn w.session, .loginResponse m)] else []) :
      Event s (.gateUserPrepar q account) s'

@[simp] theorem batchQuery_fields (d : CheckAcct) (row : Option (ℕ × ℕ)) :
    (d.batchQuery row).str = d.str ∧ (d.batchQuery row).pwd = d.pwd ∧ (d.batchQuery row).ower = d.ower ∧
      (d.batchQuery row).conn = d.conn := by
  unfold CheckAcct.batchQuery
  split
  · exact ⟨rfl, rfl, rfl, rfl⟩
  · exact ⟨rfl, rfl, rfl, rfl⟩

/-- the id a login gets depends on what was asked, not on the row -/
theorem loginId_batchQuery (s : St) (d : CheckAcct) (row : Option (ℕ × ℕ)) (now : ℕ) :
    loginId cfg s (d.batchQuery row) now = loginId cfg s d now := by
  obtain ⟨h1, h2, h3, -⟩ := batchQuery_fields d row
  rw [loginId, loginId, h1, h2, h3]

theorem event_dbDone (s : St) (i : ℕ) (row : Option (ℕ × ℕ)) (sucess : Bool) (now : ℕ) :
    Event cfg s (.dbDone i row sucess now) (dbDone cfg s i row sucess now) := by
  unfold dbDone
  split
  · exact .quiet (.refl s)
  · rename_i d htask
    have hpop : Quiet s { s with tasks := s.tasks.eraseIdx i } := .of_eq rfl rfl rfl rfl
    dsimp only
    split
    · rename_i hcheck
      rcases checkAccountCall_cases cfg { s with tasks := s.tasks.eraseIdx i } (d.batchQuery row) sucess now with
        hquiet | ⟨new, h1, h2, h3, h4, h5⟩ | ⟨hvalid, rfl, hacct, hidle, hgiven⟩
      · exact .quiet (hpop.trans hquiet)
      · exact .drop h1 h2 h3 h4 h5
      · obtain ⟨-, -, hower, hconn⟩ := batchQuery_fields d row
        rw [loginId_batchQuery, hower, hconn] at hgiven
        rw [hower] at hvalid
        exact .give htask hcheck hvalid hacct hidle
          ⟨hgiven.acct, hgiven.accts, hgiven.waits, hgiven.granted, hgiven.sent⟩
    · exact .quiet (hpop.trans (quiet_createNewAccount _ _ _))

theorem event_gateRegister (s : St) (q : ℕ) (m : MsgGTRegisterLG) :
    Event cfg s (.gateRegister q m) (parseGateRegister cfg s q m) := by
  unfold parseGateRegister
  dsimp only
  have hmod := quiet_modGate s q fun g =>
    { g with gateId := m.serverid % 2 ^ 8, onlines := m.accounts.length, outIp := m.ip, outPort := m.port % 2 ^ 16 }
  have hadd := hmod.trans (quiet_addGate _ (m.serverid % 2 ^ 8) q)
  obtain ⟨h1, h2, h3⟩ := registerAccounts_frame cfg (m.serverid % 2 ^ 8) m.accounts (addGate (s.modGate q fun g =>
    { g with gateId := m.serverid % 2 ^ 8, onlines := m.accounts.length, outIp := m.ip, outPort := m.port % 2 ^ 16 })
    (m.serverid % 2 ^ 8) q)
  exact .register hadd.accts rfl (h1.trans hadd.waits) (h2.trans hadd.granted) (h3.trans (addGate_sent _ _ _))

theorem event_gateUserPrepar (s : St) (q account : ℕ) :
    Event cfg s (.gateUserPrepar q account) (parseGateUserPrepar s q account) := by
  unfold parseGateUserPrepar receiveUserPrepar
  dsimp only
  split
  · exact .quiet (.refl s)
  · rename_i w hw
    exact .prepar hw rfl rfl rfl rfl rfl

/-- **One event of the login server**, by what it does to the tables. -/
theorem step_event (s : St) (o : Op) : Event cfg s o (step cfg s o) := by
  unfold step
  split_ifs
  · exact .quiet (.refl s)
  · cases o with
    | net o => exact .quiet (quiet_netStep s o)
    | read p gen r msgs => exact .quiet (quiet_read s p gen r msgs)
    | process status => exact .quiet (quiet_process cfg s status)
    | dbDone i row sucess now => exact event_dbDone cfg s i row sucess now
    | httpUpdate r => exact .quiet (quiet_httpUpdate s r)
    | logicUpdate => exact .quiet (quiet_logicUpdate s)
    | gateRegister q m => exact event_gateRegister cfg s q m
    | gateOnlines q onlines => exact .quiet (quiet_modGate s q _)
    | gateUserPrepar q account => exact event_gateUserPrepar cfg s q account
    | gateClose q => exact .quiet (quiet_removeGate s q)
    | balenceInfoEvent q => exact .quiet (quiet_modGate s q _)
    | tick now => exact .quiet (.of_eq rfl rfl rfl rfl)

/-- only the account of the row can come in with a callback -/
theorem accts_dbDone (s : St) (i result : ℕ) (sucess : Bool) (now : ℕ) {a acct : ℕ} (h : s.accts a = none)
    (ha : a ≠ acct) : (step cfg s (.dbDone i (some (acct, result)) sucess now)).accts a = none := by
  cases step_event cfg s (.dbDone i (some (acct, result)) sucess now) with
  | quiet hquiet => rwa [hquiet.accts]
  | drop accts _ _ _ _ =>
    rw [accts, Function.update_apply, h]
    exact ite_self none
  | give _ _ _ _ _ given =>
    obtain ⟨g, hg⟩ := given.accts
    exact hg ▸ (Function.update_of_ne ha _ _).trans h

end DreamHeroes.Login

/-
When the answers of the gates find their clients.

`Prompt` asks, at each answer of a gate, who is waiting there. Here the same is had from what comes before: no object
starts a connection while something still names it for an earlier one, and no account gets an id that another account
has or waits under.

- `Names`: what holds the address of an object across events. `Fewer`: an event hands the names on. `Calm`: only the
  start of a connection changes which one an object serves.
- `current_step`: every name is for the connection that the object serves, when objects start clean.
- `waitsHeld_step`: an id that is waited under is held by no account but the one that waits.
- `prompt_of_orderly`: an orderly run is prompt.
- `replies_to_requester`: in an orderly run, and in any prompt one, every reply that carries an id goes to a connection
  on which the id was granted to each account that holds it.
- `reply_to_later_connection`: a client that leaves while its login is checked has its reply sent to the next client.
-/
import Mathlib.Tactic
import DreamHeroes.Login.Replies
import DreamHeroes.Login.TransIds

namespace DreamHeroes.Login

open DreamHeroes.Lib

variable (cfg : Cfg)

/-! ## Names of an object -/

/-- the object is named for the connection by a read, by a message, by a task or by a waiting session -/
inductive Names (s : St) : ℕ → ℕ × ℕ → Prop
  | read {c : ℕ × ℕ} (h : c ∈ s.net.reads) : Names s c.1 c
  | recv {c : ℕ × ℕ} {m : Msg} (h : (c, m) ∈ s.recv) : Names s c.1 c
  | task {d : CheckAcct} (h : d ∈ s.tasks) : Names s d.ower d.conn
  | wait {t : UInt32} {w : Wait} (h : s.waits t = some w) : Names s w.session w.conn

/-- the network layer is left alone, and nothing is named that was not named before -/
structure Fewer (s s' : St) : Prop where
  net : s'.net = s.net
  names : ∀ p c, Names s' p c → Names s p c

theorem Fewer.of_subset {s s' : St} (hnet : s'.net = s.net) (hrecv : s'.recv ⊆ s.recv) (htasks : s'.tasks ⊆ s.tasks)
    (hwaits : ∀ t w, s'.waits t = some w → s.waits t = some w) : Fewer s s' := by
  refine ⟨hnet, ?_⟩
  intro p c hname
  cases hname with
  | read h => exact .read (hnet ▸ h)
  | recv h => exact .recv (hrecv h)
  | task h => exact .task (htasks h)
  | wait h => exact .wait (hwaits _ _ h)

theorem Fewer.of_eq {s s' : St} (hnet : s'.net = s.net) (hrecv : s'.recv = s.recv) (htasks : s'.tasks = s.tasks)
    (hwaits : s'.waits = s.waits) : Fewer s s' :=
  .of_subset hnet (hrecv ▸ List.Subset.refl _) (htasks ▸ List.Subset.refl _) (hwaits ▸ fun _ _ hw => hw)

theorem Fewer.refl (s : St) : Fewer s s := .of_eq rfl rfl rfl rfl

theorem Fewer.trans {s s' s'' : St} (h : Fewer s s') (h' : Fewer s' s'') : Fewer s s'' :=
  ⟨h'.net.trans h.net, fun p c hname => h.names p c (h'.names p c hname)⟩

theorem fewer_sendPBMessage (s : St) (p : ℕ) (r : Reply) : Fewer s (sendPBMessage s p r) := .of_eq rfl rfl rfl rfl

theorem fewer_setState (s : St) (p : ℕ) (x : SessionState) : Fewer s (setState s p x) := .of_eq rfl rfl rfl rfl

/-- a new task for an object and a connection that were named -/
theorem Fewer.addTask {s s' s'' : St} (h : Fewer s s') {d : CheckAcct} (hd : Names s d.ower d.conn)
    (hnet : s''.net = s'.net) (hrecv : s''.recv = s'.recv) (htasks : s''.tasks = s'.tasks ++ [d])
    (hwaits : s''.waits = s'.waits) : Fewer s s'' := by
  refine ⟨hnet.trans h.net, ?_⟩
  intro p c hname
  cases hname with
  | read hc => exact h.names _ _ (.read (hnet ▸ hc))
  | recv hc => exact h.names _ _ (.recv (hrecv ▸ hc))
  | task hd' =>
    rw [htasks] at hd'
    rcases List.mem_append.1 hd' with hd' | hd'
    · exact h.names _ _ (.task hd')
    · rw [List.mem_singleton.1 hd']
      exact hd
  | wait hw => exact h.names _ _ (.wait (hwaits ▸ hw))

theorem Fewer.checkAccount {s s' : St} (h : Fewer s s') {q : ℕ} {conn : ℕ × ℕ} (hconn : Names s q conn)
    (name pwd : String) (channel : ℤ) (t : CheckType) : Fewer s (checkAccount s' name pwd channel q t conn) :=
  h.addTask (d := { str := name, pwd, channel, checkType := t, ower := q, conn }) hconn rfl rfl rfl rfl

theorem fewer_parseLoginGame {s s' : St} (h : Fewer s s') {conn : ℕ × ℕ} (hconn : Names s conn.1 conn)
    (m : LoginRequest) : Fewer s (parseLoginGame cfg s' conn.1 m conn) := by
  have herror : Fewer s (if mustVerify cfg m ∧ refused s' conn.1 m then
      sendPBMessage s' conn.1 (.loginResponse { result := .errorNeedThirdVerify }) else s') := by
    split_ifs
    · exact h.trans (fewer_sendPBMessage _ _ _)
    · exact h
  unfold parseLoginGame
  refine iteInduction (fun _ => ?_) fun _ => herror
  split
  · exact herror.trans (fewer_sendPBMessage _ _ _)
  · exact herror.checkAccount hconn _ _ _ _

theorem fewer_process (s : St) (status : ℤ) : Fewer s (process cfg s status) := by
  unfold process
  split
  · exact .refl s
  · rename_i conn m rest hrecv
    have hconn : Names s conn.1 conn := .recv (hrecv ▸ List.mem_cons_self)
    have hpop : Fewer s { s with recv := rest } :=
      .of_subset rfl (hrecv ▸ List.subset_cons_self _ _) (List.Subset.refl _) fun _ _ hw => hw
    dsimp only
    split_ifs
    · cases m with
      | loginRequest m => exact fewer_parseLoginGame cfg hpop hconn m
      | registerAccountRequest m => exact hpop.checkAccount hconn _ _ _ _
      | platformVerifyReq m =>
        unfold procMessage parsePlatformVerify
        dsimp only
        split_ifs
        · exact hpop.trans (.of_eq rfl rfl rfl rfl)
        · exact hpop
    · exact hpop

/-! ## Tasks -/

theorem giveUserToGate_frame {s s' : St} {a p : ℕ} {pkAccount : Account} {conn : ℕ × ℕ}
    (h : giveUserToGate s a pkAccount p conn = some s') :
    s'.net = s.net ∧ s'.recv = s.recv ∧ s'.tasks = s.tasks := by
  unfold giveUserToGate at h
  split at h
  · cases h
  · obtain rfl := Option.some.inj h
    exact ⟨rfl, rfl, rfl⟩

theorem checkAccountCall_frame (s : St) (d : CheckAcct) (sucess : Bool) (now : ℕ) :
    (checkAccountCall cfg s d sucess now).net = s.net ∧ (checkAccountCall cfg s d sucess now).recv = s.recv ∧
      (checkAccountCall cfg s d sucess now).tasks = s.tasks := by
  obtain ⟨msgs, hkick⟩ := kickOld_eq s d.acct
  unfold checkAccountCall
  split_ifs
  · exact ⟨rfl, rfl, rfl⟩
  · dsimp only
    rw [hkick]
    split
    · rename_i s' hgive
      exact (giveUserToGate_frame hgive :)
    · exact ⟨rfl, rfl, rfl⟩
  · exact ⟨rfl, rfl, rfl⟩
  · exact ⟨rfl, rfl, rfl⟩

/-- a login that gets its id waits for the connection of its task -/
theorem fewer_checkAccountCall {s s' : St} (h : Fewer s s') {d : CheckAcct} (hd : Names s d.ower d.conn)
    (sucess : Bool) (now : ℕ) : Fewer s (checkAccountCall cfg s' d sucess now) := by
  obtain ⟨hnet, hrecv, htasks⟩ := checkAccountCall_frame cfg s' d sucess now
  rcases checkAccountCall_cases cfg s' d sucess now with hquiet | ⟨_, -, hwaits, -, -, -⟩ | ⟨-, -, -, -, hgiven⟩
  · exact h.trans (.of_eq hnet hrecv htasks hquiet.waits)
  · exact h.trans (.of_eq hnet hrecv htasks hwaits)
  · refine ⟨hnet.trans h.net, ?_⟩
    intro p c hname
    cases hname with
    | read hc => exact h.names _ _ (.read (hnet ▸ hc))
    | recv hc => exact h.names _ _ (.recv (hrecv ▸ hc))
    | task hd' => exact h.names _ _ (.task (htasks ▸ hd'))
    | @wait t w hw =>
      rw [hgiven.waits] at hw
      rcases of_update_or hw with hold | ⟨-, rfl⟩
      · exact h.names _ _ (.wait hold)
      · exact hd

/-- an account that is made is checked for the same connection -/
theorem fewer_createNewAccount {s s' : St} (h : Fewer s s') {d : CheckAcct} (hd : Names s d.ower d.conn)
    (sucess : Bool) : Fewer s (createNewAccount s' d sucess) := by
  have hfail : Fewer s (setState (sendPBMessage s' d.ower .registerAccountFaildACK) d.ower .waitClose) :=
    h.trans ((fewer_sendPBMessage _ _ _).trans (fewer_setState _ _ _))
  have hlogin : Fewer s { s' with tasks := s'.tasks ++
      [{ str := d.str, pwd := d.pwd, channel := 0, checkType := .loginCheck, ower := d.ower, conn := d.conn }] } :=
    h.addTask (d := ⟨d.str, d.pwd, 0, .loginCheck, d.ower, 0, 0, d.conn⟩) hd rfl rfl rfl rfl
  unfold createNewAccount
  split_ifs
  · exact hfail
  · exact hfail
  · exact hlogin
  · exact h

theorem fewer_dbDone (s : St) (i : ℕ) (row : Option (ℕ × ℕ)) (sucess : Bool) (now : ℕ) :
    Fewer s (dbDone cfg s i row sucess now) := by
  unfold dbDone
  split
  · exact .refl s
  · rename_i d htask
    obtain ⟨-, -, hower, hconn⟩ := batchQuery_fields d row
    have hd : Names s (d.batchQuery row).ower (d.batchQuery row).conn := by
      rw [hower, hconn]
      exact .task (List.mem_of_getElem? htask)
    have hpop : Fewer s { s with tasks := s.tasks.eraseIdx i } :=
      .of_subset rfl (List.Subset.refl _) (List.eraseIdx_subset) fun _ _ hw => hw
    dsimp only
    split
    · exact fewer_checkAccountCall cfg hpop hd sucess now
    · exact fewer_createNewAccount hpop hd sucess

/-! ## The other events -/

theorem fewer_logicUpdate (s : St) : Fewer s (logicUpdate s) := by
  unfold logicUpdate
  split
  · exact .refl s
  · unfold logicExcute
    dsimp only
    split_ifs
    · exact .of_eq rfl rfl rfl rfl
    · exact .of_eq rfl rfl rfl rfl

theorem fewer_registerAccounts (gateId : ℕ) (ds : List GTLGData) (s : St) :
    Fewer s (registerAccounts cfg gateId ds s) := by
  induction ds generalizing s with
  | nil => exact .refl s
  | cons d ds ih =>
    have hadd : ∀ s', Fewer s s' →
        Fewer s (registerAccounts cfg gateId ds (addAccount s' d.account d.transid gateId)) := by
      intro s' h
      have hnext : Fewer s' (addAccount s' d.account d.transid gateId) := .of_eq rfl rfl rfl rfl
      exact (h.trans hnext).trans (ih _)
    unfold registerAccounts
    split
    · exact hadd s (.refl s)
    · rename_i p hp
      split_ifs
      · exact hadd s (.refl s)
      · exact hadd (kickUserFromGate s p) (.of_eq rfl rfl rfl rfl)
      · exact .of_eq rfl rfl rfl rfl

theorem fewer_parseGateRegister (s : St) (q : ℕ) (m : MsgGTRegisterLG) : Fewer s (parseGateRegister cfg s q m) := by
  have hadd : ∀ s nId, Fewer s (addGate s nId q) := by
    intro s nId
    unfold addGate
    split_ifs
    · exact .of_eq rfl rfl rfl rfl
    · exact .refl s
  have hmod : ∀ f, Fewer s (s.modGate q f) := fun _ => .of_eq rfl rfl rfl rfl
  exact ((hmod _).trans (hadd _ _)).trans (fewer_registerAccounts cfg _ _ _)

theorem fewer_parseGateUserPrepar (s : St) (q account : ℕ) : Fewer s (parseGateUserPrepar s q account) := by
  unfold parseGateUserPrepar receiveUserPrepar
  dsimp only
  split
  · exact .refl s
  · refine .of_subset rfl (List.Subset.refl _) (List.Subset.refl _) ?_
    intro t w hw
    exact of_update_none hw

theorem fewer_removeGate (s : St) (q : ℕ) : Fewer s (removeGate s q) := by
  unfold removeGate
  dsimp only
  split_ifs
  · exact .of_eq rfl rfl rfl rfl
  · exact .refl s

/-! ## The network layer -/

/-- the objects serve the connections they served, and new reads are for these -/
structure Calm (s s' : Net.St) : Prop where
  conns : ∀ q, s'.conn q = s.conn q
  reads : ∀ c ∈ s'.reads, c ∈ s.reads ∨ s.conn c.1 = c

theorem Calm.of_eq {s s' : Net.St} (hsess : s'.sess = s.sess) (hreads : s'.reads ⊆ s.reads) : Calm s s' :=
  ⟨fun q => by rw [Net.St.conn, Net.St.conn, hsess], fun _ hc => .inl (hreads hc)⟩

theorem Calm.refl (s : Net.St) : Calm s s := .of_eq rfl (List.Subset.refl _)

theorem Calm.trans {s s' s'' : Net.St} (h : Calm s s') (h' : Calm s' s'') : Calm s s'' := by
  refine ⟨fun q => (h'.conns q).trans (h.conns q), ?_⟩
  intro c hc
  rcases h'.reads c hc with hc | hc
  · exact h.reads c hc
  · exact .inr ((h.conns c.1).symm.trans hc)

theorem calm_modSess (s : Net.St) (p : ℕ) {f : Net.TcpSession → Net.TcpSession} (hf : ∀ u, (f u).gen = u.gen) :
    Calm s (s.modSess p f) :=
  ⟨fun q => s.conn_modSess p q hf, fun _ hc => .inl hc⟩

theorem calm_freeSession (s : Net.St) (p : ℕ) : Calm s (Net.freeSession s p) :=
  (calm_modSess s p (f := Net.TcpSession.reset) fun _ => rfl).trans (.of_eq rfl (List.Subset.refl _))

theorem calm_handleClose (s : Net.St) (p : ℕ) : Calm s (Net.handleClose s p) := calm_modSess s p fun _ => rfl

theorem calm_onCloseIntern (s : Net.St) (p : ℕ) : Calm s (Net.onCloseIntern s p) := by
  have hmod : Calm s (s.modSess p fun u => { u with shut := true, isconnected := false }) :=
    calm_modSess s p fun _ => rfl
  unfold Net.onCloseIntern
  dsimp only
  split_ifs
  · exact hmod.trans (.of_eq rfl (List.Subset.refl _))
  · exact hmod

theorem calm_writeMessage (s : Net.St) (p : ℕ) (more : Bool) : Calm s (Net.writeMessage s p more) := by
  unfold Net.writeMessage
  split_ifs
  · exact Calm.trans (calm_modSess s p (f := fun u => { u with isSendingData := true }) fun _ => rfl)
      (.of_eq rfl (List.Subset.refl _))
  · exact .refl s

theorem calm_handleReadSome (s : Net.St) (p : ℕ) (r : Net.ReadResult) : Calm s (Net.handleReadSome s p r) := by
  have hclose : Calm s (Net.close s p) := .of_eq rfl (List.Subset.refl _)
  unfold Net.handleReadSome
  split_ifs
  · cases r with
    | error => exact calm_onCloseIntern s p
    | frames =>
      refine ⟨fun _ => rfl, ?_⟩
      intro c hc
      rcases List.mem_append.1 hc with hc | hc
      · exact .inl hc
      · rw [List.mem_singleton.1 hc]
        exact .inr rfl
    | badLength => exact hclose
    | badCheckSum => exact hclose.trans (calm_onCloseIntern _ p)
  · exact .refl s

theorem calm_handleWrite (s : Net.St) (p : ℕ) (ok more : Bool) : Calm s (Net.handleWrite s p ok more) := by
  have hmod : Calm s (s.modSess p fun u => { u with isSendingData := false }) := calm_modSess s p fun _ => rfl
  unfold Net.handleWrite
  split_ifs
  · exact hmod.trans (calm_writeMessage _ p more)
  · exact calm_onCloseIntern s p
  · exact .refl s

theorem calm_serverHandleAccept (s : Net.St) (p : ℕ) (r : Net.AcceptResult) :
    Calm s (Net.serverHandleAccept s p r) := by
  have herase : Calm s { s with accepting := s.accepting.erase p } := .of_eq rfl (List.Subset.refl _)
  unfold Net.serverHandleAccept
  cases r with
  | ok =>
    have hmod := herase.trans (calm_modSess _ p (f := fun u => { u with shut := false }) fun _ => rfl)
    exact hmod.trans (.of_eq rfl (List.Subset.refl _))
  | banned => exact herase.trans ((calm_handleClose _ p).trans (calm_freeSession _ p))
  | error => exact herase.trans ((calm_handleClose _ p).trans (calm_freeSession _ p))

theorem calm_poll (s : Net.St) : Calm s (Net.poll s) := by
  unfold Net.poll
  split
  · exact .refl s
  · exact .of_eq rfl (List.Subset.refl _)
  · rename_i p g rest hcb
    have hpop : Calm s { s with cb := rest } := .of_eq rfl (List.Subset.refl _)
    unfold Net.onClose
    split_ifs
    · exact hpop.trans (calm_freeSession _ p)
    · exact hpop

/-- only the start of a connection changes which one an object serves -/
theorem calm_step (s : Net.St) {o : Net.Op} (ho : ∀ p, o ≠ .handleAccept p) : Calm s (Net.step s o) := by
  cases o with
  | listen =>
    simp only [Net.step, Net.listen]
    split
    · exact .refl s
    · split_ifs
      · exact Calm.trans (calm_modSess s _ (f := fun u => { u with isvalid := true }) fun _ => rfl)
          (.of_eq rfl (List.Subset.refl _))
      · exact .refl s
  | accept p r =>
    simp only [Net.step]
    split_ifs
    · exact calm_serverHandleAccept s p r
    · exact .refl s
  | handleAccept p => exact absurd rfl (ho p)
  | readSome p g r =>
    simp only [Net.step]
    split_ifs
    · have hpop : Calm s { s with reads := s.reads.erase (p, g) } := .of_eq rfl List.erase_subset
      exact hpop.trans (calm_handleReadSome _ p r)
    · exact .refl s
  | writeMessage p more => exact calm_writeMessage s p more
  | write p g ok more =>
    simp only [Net.step]
    split_ifs
    · have hpop : Calm s { s with writes := s.writes.erase (p, g) } := .of_eq rfl (List.Subset.refl _)
      exact hpop.trans (calm_handleWrite _ p ok more)
    · exact .refl s
  | close p =>
    simp only [Net.step]
    split_ifs
    · exact .of_eq rfl (List.Subset.refl _)
    · exact .refl s
  | handleClose p =>
    simp only [Net.step]
    split_ifs
    · have hpop : Calm s { s with closes := s.closes.erase p } := .of_eq rfl (List.Subset.refl _)
      exact hpop.trans (calm_handleClose _ p)
    · exact .refl s
  | poll => exact calm_poll s

/-- a connection that starts is the one its object serves, and the others go on -/
theorem start_step {s : Net.St} {p : ℕ} (hp : p ∈ s.posted) :
    (∀ q, q ≠ p → (Net.step s (.handleAccept p)).conn q = s.conn q) ∧
      ∀ c ∈ (Net.step s (.handleAccept p)).reads, c ∈ s.reads ∨ (Net.step s (.handleAccept p)).conn p = c := by
  simp only [Net.step, if_pos hp]
  refine ⟨?_, ?_⟩
  · intro q hq
    simp [Net.St.conn, Net.handleAccept, Net.St.modSess, hq]
  · intro c hc
    rcases List.mem_append.1 hc with hc | hc
    · exact .inl hc
    · exact .inr (List.mem_singleton.1 hc).symm

/-! ## Every name is current -/

/-- every name of an object is for the connection that the object serves -/
def Current (s : St) : Prop := ∀ p c, Names s p c → s.net.conn p = c

/-- a connection starts on an object that nothing names any more -/
def StartsClean (s : St) : Op → Prop
  | .net (.handleAccept p) => p ∈ s.net.posted → ∀ c, ¬Names s p c
  | _ => True

theorem Current.fewer {s s' : St} (h : Current s) (hs : Fewer s s') : Current s' := by
  intro p c hname
  rw [hs.net]
  exact h p c (hs.names p c hname)

/-- the network layer goes on, and the messages that come in are those of a read -/
theorem Current.calm {s s' : St} (h : Current s) (hs : Calm s.net s'.net) (htasks : s'.tasks = s.tasks)
    (hwaits : s'.waits = s.waits) (hrecv : ∀ x ∈ s'.recv, x ∈ s.recv ∨ x.1 ∈ s.net.reads) : Current s' := by
  intro p c hname
  rw [hs.conns]
  cases hname with
  | read hc =>
    rcases hs.reads _ hc with hc | hc
    · exact h _ _ (.read hc)
    · exact hc
  | recv hc =>
    rcases hrecv _ hc with hc | hc
    · exact h _ _ (.recv hc)
    · exact h _ _ (.read hc)
  | task hd => exact h _ _ (.task (htasks ▸ hd))
  | wait hw => exact h _ _ (.wait (hwaits ▸ hw))

theorem netStep_frame (s : St) (o : Net.Op) :
    (netStep s o).net = Net.step s.net o ∧ (netStep s o).recv = s.recv ∧ (netStep s o).tasks = s.tasks ∧
      (netStep s o).waits = s.waits := by
  unfold netStep
  dsimp only
  split
  · split_ifs
    · exact ⟨rfl, rfl, rfl, rfl⟩
    · exact ⟨rfl, rfl, rfl, rfl⟩
  · split
    · exact ⟨rfl, rfl, rfl, rfl⟩
    · exact ⟨rfl, rfl, rfl, rfl⟩
    · split_ifs
      · exact ⟨rfl, rfl, rfl, rfl⟩
      · exact ⟨rfl, rfl, rfl, rfl⟩
  · exact ⟨rfl, rfl, rfl, rfl⟩

theorem current_netStep {s : St} (h : Current s) {o : Net.Op} (ho : StartsClean s (.net o)) :
    Current (netStep s o) := by
  obtain ⟨hnet, hrecv, htasks, hwaits⟩ := netStep_frame s o
  by_cases hstart : ∃ p, o = .handleAccept p ∧ p ∈ s.net.posted
  · obtain ⟨p, rfl, hp⟩ := hstart
    obtain ⟨hothers, hreads⟩ := start_step hp
    have hkept : ∀ q c, Names s q c → (netStep s (.handleAccept p)).net.conn q = c := by
      intro q c hname
      have hq : q ≠ p := fun hq => ho hp c (hq ▸ hname)
      rw [hnet, hothers q hq]
      exact h q c hname
    intro q c hname
    cases hname with
    | read hc =>
      rcases hreads c (hnet ▸ hc) with hc | hc
      · exact hkept _ _ (.read hc)
      · rw [hnet, ← hc]
        rfl
    | recv hc => exact hkept _ _ (.recv (hrecv ▸ hc))
    | task hd => exact hkept _ _ (.task (htasks ▸ hd))
    | wait hw => exact hkept _ _ (.wait (hwaits ▸ hw))
  · have hcalm : Calm s.net (Net.step s.net o) := by
      cases o with
      | handleAccept p =>
        have hp : p ∉ s.net.posted := fun hp => hstart ⟨p, rfl, hp⟩
        simp only [Net.step, if_neg hp]
        exact .refl s.net
      | _ => exact calm_step s.net fun _ => by simp
    refine h.calm (hnet ▸ hcalm) htasks hwaits ?_
    intro x hx
    exact .inl (hrecv ▸ hx)

theorem current_step (s : St) (o : Op) (h : Current s) (ho : StartsClean s o) : Current (step cfg s o) := by
  unfold step
  split_ifs
  · exact h
  · cases o with
    | net o => exact current_netStep h ho
    | read p gen r msgs =>
      obtain ⟨hnet, hrecv, htasks, hwaits⟩ := netStep_frame s (.readSome p gen r)
      have hcalm : Calm s.net (netStep s (.readSome p gen r)).net := hnet ▸ calm_step s.net fun _ => by simp
      dsimp only
      unfold read
      dsimp only
      split_ifs with hread
      · refine h.calm hcalm htasks hwaits ?_
        intro x hx
        rcases List.mem_append.1 hx with hx | hx
        · exact .inl (hrecv ▸ hx)
        · obtain ⟨m, -, rfl⟩ := List.mem_map.1 hx
          exact .inr (List.contains_iff_mem.1 hread.1)
      · exact h.calm hcalm htasks hwaits fun x hx => .inl (hrecv ▸ hx)
    | process status => exact h.fewer (fewer_process cfg s status)
    | dbDone i row sucess now => exact h.fewer (fewer_dbDone cfg s i row sucess now)
    | httpUpdate r =>
      dsimp only
      unfold httpUpdate
      split
      · exact h
      · exact h.fewer (.of_eq rfl rfl rfl rfl)
    | logicUpdate => exact h.fewer (fewer_logicUpdate s)
    | gateRegister q m => exact h.fewer (fewer_parseGateRegister cfg s q m)
    | gateOnlines q onlines => exact h.fewer (.of_eq rfl rfl rfl rfl)
    | gateUserPrepar q account => exact h.fewer (fewer_parseGateUserPrepar s q account)
    | gateClose q => exact h.fewer (fewer_removeGate s q)
    | balenceInfoEvent q => exact h.fewer (.of_eq rfl rfl rfl rfl)
    | tick now => exact h.fewer (.of_eq rfl rfl rfl rfl)

/-! ## Who holds an id that is waited under -/

/-- an id that is waited under is held by no account but the one that waits -/
def WaitsHeld (accts : ℕ → Option Account) (waits : UInt32 → Option Wait) : Prop :=
  ∀ t w, waits t = some w → ∀ a p, accts a = some p → p.nTranId = t → a = w.acct

/-- nobody waits for another account under the id the event gives -/
def NotWaited (s : St) : Op → Prop
  | .dbDone i row _ now => ∀ d, s.tasks[i]? = some d → ∀ w, s.waits (loginId cfg s d now) = some w →
      w.acct = (d.batchQuery row).acct
  | .gateRegister _ m => ∀ d ∈ m.accounts, ∀ w, s.waits d.transid = some w → w.acct = d.account
  | _ => True

theorem WaitsHeld.update {accts : ℕ → Option Account} {waits : UInt32 → Option Wait} (h : WaitsHeld accts waits)
    {a g : ℕ} {t : UInt32} (ht : ∀ w, waits t = some w → w.acct = a) :
    WaitsHeld (Function.update accts a (some ⟨g, a, t⟩)) waits := by
  intro t' w hw b p hb hp
  by_cases hba : b = a
  · rw [hba, Function.update_self] at hb
    obtain rfl := Option.some.inj hb
    obtain rfl : t = t' := hp
    rw [hba]
    exact (ht w hw).symm
  · rw [Function.update_of_ne hba] at hb
    exact h t' w hw b p hb hp

theorem waitsHeld_registerAccounts (gateId : ℕ) (ds : List GTLGData) {s : St} {waits : UInt32 → Option Wait}
    (h : WaitsHeld s.accts waits) (hds : ∀ d ∈ ds, ∀ w, waits d.transid = some w → w.acct = d.account) :
    WaitsHeld (registerAccounts cfg gateId ds s).accts waits := by
  induction ds generalizing s with
  | nil => exact h
  | cons d ds ih =>
    have hrest := fun d' hd' => hds d' (List.mem_cons_of_mem d hd')
    have hnext : WaitsHeld (addAccount s d.account d.transid gateId).accts waits := h.update (hds d List.mem_cons_self)
    unfold registerAccounts
    split
    · exact ih hnext hrest
    · split_ifs
      · exact ih hnext hrest
      · exact ih (s := addAccount (kickUserFromGate s _) d.account d.transid gateId) hnext hrest
      · exact h

theorem waitsHeld_step (s : St) (o : Op) (h : WaitsHeld s.accts s.waits) (hfresh : Fresh cfg s o)
    (hwaited : NotWaited cfg s o) : WaitsHeld (step cfg s o).accts (step cfg s o).waits := by
  cases step_event cfg s o with
  | quiet hquiet => rwa [hquiet.accts, hquiet.waits]
  | drop accts waits _ _ _ =>
    rw [accts, waits]
    intro t w hw b p hb hp
    exact h t w hw b p (of_update_none hb) hp
  | @give i row now _ d task check valid acct idle given =>
    obtain ⟨g, hg⟩ := given.accts
    have hother := hfresh d task check valid rfl acct idle
    have hupdate : WaitsHeld (step cfg s (.dbDone i row true now)).accts s.waits := by
      rw [hg]
      exact h.update (hwaited d task)
    rw [given.waits]
    intro t w hw b p hb hp
    rcases of_update_or hw with hold | ⟨rfl, rfl⟩
    · exact hupdate t w hold b p hb hp
    · by_contra hba
      rw [hg, Function.update_of_ne hba] at hb
      exact hother b p hba hb hp
  | register start accts waits _ _ =>
    rw [waits, accts]
    exact waitsHeld_registerAccounts cfg _ _ (start ▸ h) hwaited
  | prepar _ _ accts waits _ _ =>
    rw [accts, waits]
    intro t w hw
    exact h t w (of_update_none hw)

/-! ## Orderly runs -/

theorem reads_create (n onceListenCount : ℕ) : (Net.create n onceListenCount).reads = [] := by
  have hfold : ∀ (l : List ℕ) (s : Net.St), (l.foldl Net.freeSession s).reads = s.reads := by
    intro l
    induction l with
    | nil => exact fun _ => rfl
    | cons p l ih => exact fun s => ih (Net.freeSession s p)
  exact hfold _ _

/-- connections start on objects that nothing names, and accounts get ids that nobody has or waits under -/
structure Orderly (s : St) (o : Op) : Prop where
  clean : StartsClean s o
  fresh : Fresh cfg s o
  notWaited : NotWaited cfg s o

/-- **Orderly runs are prompt.** If no object starts a connection while something names it, and no account gets an id
that another has or waits under, then every answer of a gate finds the connection and the account of the request. -/
theorem prompt_of_orderly {n onceListenCount : ℕ} {ops : List Op}
    (hops : Along (step cfg) (Orderly cfg) (create n onceListenCount) ops) :
    Along (step cfg) Prompt (create n onceListenCount) ops := by
  have hstep : ∀ s o, Current s ∧ WaitsHeld s.accts s.waits → Orderly cfg s o →
      Current (step cfg s o) ∧ WaitsHeld (step cfg s o).accts (step cfg s o).waits :=
    fun s o h ho => ⟨current_step cfg s o h.1 ho.clean, waitsHeld_step cfg s o h.2 ho.fresh ho.notWaited⟩
  refine hops.imp (I := fun s => Current s ∧ WaitsHeld s.accts s.waits) hstep ?_ ⟨?_, ?_⟩
  · rintro s o ⟨hcurrent, hheld⟩ -
    cases o with
    | gateUserPrepar q account =>
      intro w hw _ _
      exact ⟨hcurrent _ _ (.wait hw), hheld _ w hw⟩
    | _ => trivial
  · intro p c hname
    cases hname with
    | read hc => exact absurd (reads_create n onceListenCount ▸ hc) List.not_mem_nil
    | recv hc => exact absurd hc List.not_mem_nil
    | task hd => exact absurd hd List.not_mem_nil
    | wait hw => cases hw
  · intro t w hw
    cases hw

/-! ## Replies -/

/-- **Replies go to the requester.** In a run in which connections start on objects that nothing names and accounts get
ids that nobody has or waits under, every reply that carries a transaction id goes to the connection of a request that
named the account with that id and passed the check. It is so in every run in which each answer of a gate is
`Prompt`. -/
theorem replies_to_requester {n onceListenCount : ℕ} {ops : List Op} :
    (Along (step cfg) (Orderly cfg) (create n onceListenCount) ops →
      Along (step cfg) (RepliesToRequester cfg) (create n onceListenCount) ops) ∧
    (Along (step cfg) Prompt (create n onceListenCount) ops →
      Along (step cfg) (RepliesToRequester cfg) (create n onceListenCount) ops) :=
  ⟨fun hops => repliesToRequester_run cfg (prompt_of_orderly cfg hops), repliesToRequester_run cfg⟩

/-- one client asks, and gets its reply -/
theorem replies_to_requester_prompt :
    Along (step annsCfg) (RepliesToRequester annsCfg) (create 1 1)
      (askedOps ++ [.dbDone 0 (some (5, 0)) true 1000, .gateUserPrepar 7 (annsId "10.0.0.1").toNat]) := by
  refine (replies_to_requester annsCfg).1 ⟨⟨trivial, trivial, fun d hd => absurd hd List.not_mem_nil⟩,
    ⟨trivial, trivial, trivial⟩, ⟨trivial, trivial, trivial⟩, ⟨fun _ => ?_, trivial, trivial⟩,
    ⟨trivial, trivial, trivial⟩, ⟨trivial, trivial, trivial⟩, ⟨trivial, trivial, trivial⟩,
    ⟨trivial, fun d _ _ _ _ _ _ b p _ hb => ?_, fun d _ w hw => ?_⟩, ⟨trivial, trivial, trivial⟩, trivial⟩
  · -- nothing has been read when the first connection starts
    suffices hnone : ∀ q c, ¬Names _ q c from hnone 0
    intro q c hname
    cases hname with
    | read h => cases h
    | recv h => cases h
    | task h => cases h
    | wait h => cases h
  · cases hb
  · cases hw

/-- the client leaves, and the object serves the next one -/
def nextClientOps : List Op :=
  [.net (.readSome 0 1 .error), .net .poll, .net .listen, .net (.accept 0 .ok), .net (.handleAccept 0), .net .poll]

/-- the client with the second connection gets the reply that was meant for the first -/
theorem reply_to_later_connection :
    ¬Along (step annsCfg) (RepliesToRequester annsCfg) (create 1 1) (askedOps ++ nextClientOps ++
      [.dbDone 0 (some (5, 0)) true 1000, .gateUserPrepar 7 (annsId "10.0.0.2").toNat]) := by
  intro h
  have hlast := ((along_append (step annsCfg) _ _ (askedOps ++ nextClientOps ++ [.dbDone 0 (some (5, 0)) true 1000])
    [.gateUserPrepar 7 (annsId "10.0.0.2").toNat]).1 (by simpa using h)).2.1
  have hsent := hlast [((0, 2), .loginResponse ⟨"10.0.0.9", 9000, some (annsId "10.0.0.2"), .success, none⟩)]
    (by decide +kernel)
  obtain ⟨⟨a, ha⟩, -⟩ := hsent _ List.mem_cons_self (annsId "10.0.0.2") rfl
  have hgranted : (run (step annsCfg) (create 1 1) (askedOps ++ nextClientOps ++
      [.dbDone 0 (some (5, 0)) true 1000])).granted = [(5, annsId "10.0.0.2", (0, 1))] := by decide +kernel
  rw [hgranted, List.mem_singleton, Prod.mk.injEq, Prod.mk.injEq, Prod.mk.injEq] at ha
  exact absurd ha.2.2.2 (by decide)

end DreamHeroes.Login

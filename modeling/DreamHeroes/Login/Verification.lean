/-
The verification of a user by the platform, and what it means for a login.

`parseLoginGame` answers a request that is not verified with `ErrorNeedThirdVerify` and then passes it to the account
check all the same; a request that is verified ends there, without an answer. The comparison is with
`_platform_user_id`, which nothing ever sets (`noUserId_step`).

- `checksAccount_iff`: which requests reach `checkAccount`, read off the code.
- `gated_iff`: the requests for which this is as it should be.
- `verification_iff`: every request of a run is treated as its verification demands exactly when each of them fails the
  other checks, or is verified for a name that is not empty, or has the empty name and is not verified for it on a
  connection in `_platform_success_`.
- `unverified_request_checked`: a client that has asked for no verification.
-/
import Mathlib.Tactic
import DreamHeroes.Login.LoginServer

namespace DreamHeroes.Login

open DreamHeroes.Lib

variable (cfg : Cfg)

/-! ## The user id of a session -/

/-- no session has a user id -/
def NoUserId (s : St) : Prop := ∀ p, (s.user p).platformUserId = ""

protected theorem NoUserId.modUser {s : St} (h : NoUserId s) (p : ℕ) {f : UserLoginSession → UserLoginSession}
    (hf : (s.user p).platformUserId = "" → (f (s.user p)).platformUserId = "") : NoUserId (s.modUser p f) := by
  intro q
  by_cases hq : q = p
  · subst hq
    simpa [St.modUser] using hf (h q)
  · simpa [St.modUser, hq] using h q

protected theorem NoUserId.setState {s : St} (h : NoUserId s) (p : ℕ) (x : SessionState) : NoUserId (setState s p x) :=
  h.modUser p fun hp => hp

protected theorem NoUserId.sendPBMessage {s : St} (h : NoUserId s) (p : ℕ) (r : Reply) :
NoUserId (sendPBMessage s p r) := h

protected theorem NoUserId.checkAccount {s : St} (h : NoUserId s) (name pwd : String) (channel : ℤ) (p : ℕ)
  (t : CheckType)
    (conn : ℕ × ℕ) : NoUserId (checkAccount s name pwd channel p t conn) := h.setState p .checkingData

protected theorem NoUserId.netStep {s : St} (h : NoUserId s) (o : Net.Op) : NoUserId (netStep s o) := by
  have hnext : NoUserId { s with net := Net.step s.net o } := h
  have hclose : ∀ p, NoUserId (onClose { s with net := Net.step s.net o } p) := fun p => hnext.modUser p fun _ => rfl
  unfold netStep
  dsimp only
  split
  · split_ifs
    · exact hnext.modUser _ fun hp => hp
    · exact hnext
  · split
    · exact hnext
    · exact hnext.setState _ _
    · split_ifs
      · exact (hclose _).modUser _ fun hp => hp
      · exact hclose _
  · exact hnext

protected theorem NoUserId.parseLoginGame {s : St} (h : NoUserId s) (p : ℕ) (m : LoginRequest) (conn : ℕ × ℕ) :
    NoUserId (parseLoginGame cfg s p m conn) := by
  have herror : NoUserId (if mustVerify cfg m ∧ refused s p m then
      sendPBMessage s p (.loginResponse { result := .errorNeedThirdVerify }) else s) := by
    split_ifs
    · exact h.sendPBMessage p _
    · exact h
  unfold parseLoginGame
  refine iteInduction (fun _ => ?_) fun _ => herror
  split
  · exact herror.sendPBMessage p _
  · exact herror.checkAccount _ _ _ _ _ _

protected theorem NoUserId.procMessage {s : St} (h : NoUserId s) (conn : ℕ × ℕ) (m : Msg) (status : ℤ) :
    NoUserId (procMessage cfg s conn m status) := by
  cases m with
  | loginRequest m => exact h.parseLoginGame cfg _ _ _
  | registerAccountRequest m => exact h.checkAccount _ _ _ _ _ _
  | platformVerifyReq m =>
    unfold procMessage parsePlatformVerify
    dsimp only
    split_ifs
    · exact NoUserId.setState (s := { s with https := _ }) h _ _
    · exact h

protected theorem NoUserId.giveUserToGate {s s' : St} (h : NoUserId s) {a p : ℕ} {pkAccount : Account} {conn : ℕ × ℕ}
    (hgive : giveUserToGate s a pkAccount p conn = some s') : NoUserId s' := by
  unfold giveUserToGate at hgive
  split at hgive
  · cases hgive
  · rename_i q hidle
    obtain rfl := Option.some.inj hgive
    have hacct : NoUserId (setAcct s a { pkAccount with nGateId := (s.gate q).gateId }) := h
    exact (hacct.modUser p (f := fun u => { u with accid := pkAccount.nId }) fun hp => hp).setState p .waitGate

protected theorem NoUserId.checkAccountCall {s : St} (h : NoUserId s) (d : CheckAcct) (sucess : Bool) (now : ℕ) :
    NoUserId (checkAccountCall cfg s d sucess now) := by
  obtain ⟨msgs, hkick⟩ := kickOld_eq s d.acct
  have hin : ∀ p, NoUserId (setAcct { s with toGate := s.toGate ++ msgs } d.acct p) := fun _ => h
  have hout :
    ∀ p, NoUserId (removeAccount (setAcct { s with toGate := s.toGate ++ msgs } d.acct p) d.acct) := fun _ => h
  unfold checkAccountCall
  split_ifs
  · exact (h.sendPBMessage _ _).setState _ _
  · dsimp only
    rw [hkick]
    split
    · rename_i s' hgive
      exact (hin _).giveUserToGate hgive
    · exact ((hout _).sendPBMessage _ _).setState _ _
  · exact (h.setState _ _).sendPBMessage _ _
  · exact h

protected theorem NoUserId.createNewAccount {s : St} (h : NoUserId s) (d : CheckAcct) (sucess : Bool) :
    NoUserId (createNewAccount s d sucess) := by
  unfold createNewAccount
  split_ifs
  · exact (h.sendPBMessage _ _).setState _ _
  · exact (h.sendPBMessage _ _).setState _ _
  · exact h
  · exact h

protected theorem NoUserId.dbDone {s : St} (h : NoUserId s) (i : ℕ) (row : Option (ℕ × ℕ)) (sucess : Bool) (now : ℕ) :
    NoUserId (dbDone cfg s i row sucess now) := by
  unfold dbDone
  split
  · exact h
  · have hpop : NoUserId { s with tasks := s.tasks.eraseIdx i } := h
    dsimp only
    split
    · exact hpop.checkAccountCall cfg _ sucess now
    · exact hpop.createNewAccount _ sucess

protected theorem NoUserId.registerAccounts {s : St} (h : NoUserId s) (gateId : ℕ) (ds : List GTLGData) :
    NoUserId (registerAccounts cfg gateId ds s) := by
  induction ds generalizing s with
  | nil => exact h
  | cons d ds ih =>
    unfold registerAccounts
    split
    · exact ih h
    · split_ifs
      · exact ih h
      · exact ih h
      · exact h

protected theorem NoUserId.addGate {s : St} (h : NoUserId s) (nId q : ℕ) : NoUserId (addGate s nId q) := by
  unfold addGate
  split_ifs
  · exact h
  · exact h

protected theorem NoUserId.logicUpdate {s : St} (h : NoUserId s) : NoUserId (logicUpdate s) := by
  unfold logicUpdate
  split
  · exact h
  · rename_i t rest hcomplete
    have hpop : NoUserId { s with complete := rest } := h
    unfold logicExcute
    dsimp only
    split_ifs
    · exact (hpop.modUser t.session (f := fun u =>
        { u with state := .platformSuccess, channel := t.channelId, confirm := some ⟨t.conn, t.answer⟩ })
        fun hp => hp).sendPBMessage _ _
    · exact hpop.sendPBMessage _ _

theorem noUserId_step (s : St) (o : Op) (h : NoUserId s) : NoUserId (step cfg s o) := by
  unfold step
  split_ifs
  · exact h
  · cases o with
    | net o => exact h.netStep o
    | read p gen r msgs =>
      have hnet : NoUserId (netStep s (.readSome p gen r)) := h.netStep _
      dsimp only
      unfold read
      dsimp only
      split_ifs
      · exact hnet
      · exact hnet
    | process status =>
      dsimp only
      unfold process
      split
      · exact h
      · rename_i conn m rest hrecv
        have hpop : NoUserId { s with recv := rest } := h
        dsimp only
        split_ifs
        · exact hpop.procMessage cfg _ _ _
        · exact hpop
    | dbDone i row sucess now => exact h.dbDone cfg i row sucess now
    | httpUpdate r =>
      dsimp only
      unfold httpUpdate
      split
      · exact h
      · exact h
    | logicUpdate => exact h.logicUpdate
    | gateRegister q m => exact (NoUserId.addGate (s := s.modGate q _) h _ q).registerAccounts cfg _ _
    | gateOnlines q onlines => exact h
    | gateUserPrepar q account =>
      dsimp only
      unfold parseGateUserPrepar receiveUserPrepar
      dsimp only
      split
      · exact h
      · exact NoUserId.setState (s := sendPBMessage _ _ _) h _ _
    | gateClose q =>
      dsimp only
      unfold removeGate
      dsimp only
      split_ifs
      · exact h
      · exact h
    | balenceInfoEvent q => exact h
    | tick now => exact h

/-! ## Requests -/

/-- the login request that the event handles, with its connection -/
def loginOf (s : St) : Op → Option ((ℕ × ℕ) × LoginRequest)
  | .process _ =>
    match s.recv with
    | (conn, .loginRequest m) :: _ =>
      if s.aborted = false ∧ (s.net.sess conn.1).isvalid ∧ (s.net.sess conn.1).isconnected then some (conn, m) else none
    | _ => none
  | _ => none

/-- `checkAccount` is called for the request -/
def ChecksAccount (s : St) (o : Op) (conn : ℕ × ℕ) (m : LoginRequest) : Prop :=
  (step cfg s o).tasks = s.tasks ++
    [{ str := m.name, pwd := m.pwd, channel := m.channel, checkType := .loginCheck, ower := conn.1, conn }]

/-- the connection of the request has asked the platform, and a reply with status 0 has confirmed the name -/
def Verified (s : St) (conn : ℕ × ℕ) (name : String) : Prop :=
  s.net.conn conn.1 = conn ∧ (s.user conn.1).state = .platformSuccess ∧
    (s.user conn.1).confirm = some ⟨conn, some name⟩

instance decidableChecksAccount (s : St) (o : Op) (conn : ℕ × ℕ) (m : LoginRequest) :
    Decidable (ChecksAccount cfg s o conn m) := inferInstanceAs (Decidable (_ = _))

instance decidableVerified (s : St) (conn : ℕ × ℕ) (name : String) : Decidable (Verified s conn name) :=
  inferInstanceAs (Decidable (_ ∧ _ ∧ _))

/-- the request on its way through `parseLoginGame` -/
theorem step_loginOf {s : St} {o : Op} {conn : ℕ × ℕ} {m : LoginRequest} (h : loginOf s o = some (conn, m)) :
    ∃ rest, step cfg s o = parseLoginGame cfg { s with recv := rest } conn.1 m conn := by
  cases o with
  | process status =>
    simp only [loginOf] at h
    split at h
    · rename_i conn' m' rest hrecv
      split_ifs at h with hlive
      obtain ⟨rfl, rfl⟩ := Prod.mk.inj (Option.some.inj h)
      refine ⟨rest, ?_⟩
      simp only [step, process, hrecv, hlive.1, Bool.false_eq_true, if_false]
      rw [if_pos hlive.2]
      rfl
    · cases h
  | _ => cases h

/-- which requests reach `checkAccount` -/
theorem checksAccount_iff {s : St} {o : Op} {conn : ℕ × ℕ} {m : LoginRequest} (h : NoUserId s)
    (ho : loginOf s o = some (conn, m)) (hverify : mustVerify cfg m = true) :
    ChecksAccount cfg s o conn m ↔
      requestResult cfg m = none ∧ ((s.user conn.1).state ≠ .platformSuccess ∨ m.name ≠ "") := by
  obtain ⟨rest, hstep⟩ := step_loginOf cfg ho
  have hrefused : refused { s with recv := rest } conn.1 m = true ↔
      (s.user conn.1).state ≠ .platformSuccess ∨ m.name ≠ "" := by
    rw [refused, decide_eq_true_iff]
    exact or_congr Iff.rfl (by rw [h conn.1])
  rw [ChecksAccount, hstep, ← hrefused]
  unfold parseLoginGame
  simp only [hverify, if_true]
  by_cases href : refused { s with recv := rest } conn.1 m = true
  · simp only [href, if_true, and_self]
    cases hr : requestResult cfg m with
    | some r => simp [sendPBMessage]
    | none => simp [checkAccount, sendPBMessage, setState, St.modUser]
  · simp [href]

/-- the request is treated as its verification demands -/
def Gated (s : St) (o : Op) : Prop :=
  ∀ x ∈ loginOf s o, x.2.channel ≠ 0 →
    (ChecksAccount cfg s o x.1 x.2 → Verified s x.1 x.2.name) ∧
    (Verified s x.1 x.2.name → requestResult cfg x.2 = none → ChecksAccount cfg s o x.1 x.2)

/-- the request fails another check, or is verified and has a name, or has no name on a connection that is in
`_platform_success_` without being verified for the empty name -/
def Decided (s : St) (o : Op) : Prop :=
  ∀ x ∈ loginOf s o, x.2.channel ≠ 0 →
    requestResult cfg x.2 ≠ none ∨ (Verified s x.1 x.2.name ∧ x.2.name ≠ "") ∨
      (¬Verified s x.1 x.2.name ∧ (s.user x.1.1).state = .platformSuccess ∧ x.2.name = "")

instance decidableGated (s : St) (o : Op) : Decidable (Gated cfg s o) :=
  inferInstanceAs (Decidable (∀ x ∈ loginOf s o, _ ≠ _ → (_ → _) ∧ (_ → _ → _)))

instance decidableDecided (s : St) (o : Op) : Decidable (Decided cfg s o) :=
  inferInstanceAs (Decidable (∀ x ∈ loginOf s o, _ ≠ _ → _ ≠ _ ∨ _ ∨ _))

theorem gated_iff (hverify : cfg.config.needPlatformVerify = true) {s : St} (o : Op) (h : NoUserId s) :
    Gated cfg s o ↔ Decided cfg s o := by
  apply forall_congr'
  rintro ⟨conn, m⟩
  apply imp_congr_right
  intro ho
  apply imp_congr_right
  intro hchannel
  have hmust : mustVerify cfg m = true := by
    rw [mustVerify, decide_eq_true_iff]
    exact ⟨hverify, hchannel⟩
  have hstate : Verified s conn m.name → (s.user conn.1).state = .platformSuccess := fun hv => hv.2.1
  dsimp only
  rw [checksAccount_iff cfg h ho hmust]
  by_cases hr : requestResult cfg m = none
  · by_cases hname : m.name = ""
    · by_cases hs : (s.user conn.1).state = .platformSuccess
      · simp [hr, hname, hs]
      · have hnot : ¬Verified s conn "" := fun hv => hs hv.2.1
        simp [hr, hname, hs, hnot]
    · simp [hr, hname]
  · simp [hr]

/-- **The platform gate.** With verification on, every login request of a run that names a channel is passed to
`checkAccount` exactly as its verification demands if and only if each of them is `Decided`. -/
theorem verification_iff (hverify : cfg.config.needPlatformVerify = true) (n onceListenCount : ℕ) (ops : List Op) :
    Along (step cfg) (Gated cfg) (create n onceListenCount) ops ↔
      Along (step cfg) (Decided cfg) (create n onceListenCount) ops := by
  have htrue : Along (step cfg) (fun _ _ => True) (create n onceListenCount) ops :=
    Along.of_forall _ ops fun _ _ _ => trivial
  exact along_iff_steps (I := NoUserId) (fun s o h _ _ => noUserId_step cfg s o h)
    (fun s o h _ => gated_iff cfg hverify o h) (fun _ => rfl) htrue

/-! ## Runs -/

def verifyCfg : Cfg := { config := { channels := [3], needPlatformVerify := true } }

/-- a client connects -/
def connected : List Op := [.net .listen, .net (.accept 0 .ok), .net (.handleAccept 0), .net .poll]

def annsLogin : List Op :=
  [.read 0 1 .frames [.loginRequest { name := "ann", pwd := "pw", channel := 3 }], .process 0]

/-- a verified client -/
theorem verification_iff_verified :
    Along (step verifyCfg) (Gated verifyCfg) (create 1 1) (connected ++
      [.read 0 1 .frames [.platformVerifyReq ⟨"ann", 3⟩], .process 77,
        .httpUpdate { status := some 0, userId := some "ann" }, .logicUpdate] ++ annsLogin) :=
  (verification_iff verifyCfg rfl 1 1 _).2 (by decide +kernel)

/-- a client that has asked for no verification is told to, and has its account checked -/
theorem unverified_request_checked :
    ¬Along (step verifyCfg) (Gated verifyCfg) (create 1 1) (connected ++ annsLogin) := by decide +kernel

end DreamHeroes.Login

/-
Where the transaction ids that the login server hands out come from (`AccountManager::checkAccountCall`,
`GateManager::giveUserToGate`).

- `Keeps`: what an event does to the checks that are under way and to what is sent to the gates. `keeps_step`.
- `Checked`: at some event of a run the database has answered the check of a name and a password with the account.
- `checked_of_granted`: so it is for every id that is granted.
-/
import Mathlib.Tactic
import DreamHeroes.Login.Tables

namespace DreamHeroes.Login

open DreamHeroes.Lib

variable (cfg : Cfg) {s s' s'' : St}

/-! ## Checks and messages to the gates -/

/-- a new check has no account yet, and a gate is told nothing but what is granted -/
structure Keeps (s s' : St) : Prop where
  tasks : ∀ d ∈ s'.tasks, d ∈ s.tasks ∨ d.acct = 0
  granted : ∀ x ∈ s.granted, x ∈ s'.granted
  toGate : ∀ q data c, (q, GateMsg.userLogin data c) ∈ s'.toGate → (q, GateMsg.userLogin data c) ∈ s.toGate ∨
    ∃ conn, (data.account, data.transid, conn) ∈ s'.granted

theorem Keeps.of_eq (htasks : s'.tasks = s.tasks) (hgranted : s'.granted = s.granted) (htoGate : s'.toGate = s.toGate) :
    Keeps s s' :=
  ⟨fun _ hd => Or.inl (htasks ▸ hd), fun _ hx => hgranted ▸ hx, fun _ _ _ h => Or.inl (htoGate ▸ h)⟩

theorem Keeps.refl (s : St) : Keeps s s := .of_eq rfl rfl rfl

theorem Keeps.trans (h : Keeps s s') (h' : Keeps s' s'') : Keeps s s'' := by
  refine ⟨fun d hd => ?_, fun x hx => h'.granted x (h.granted x hx), fun q data c hm => ?_⟩
  · exact (h'.tasks d hd).elim (h.tasks d) Or.inr
  · rcases h'.toGate q data c hm with hm | hm
    · exact (h.toGate q data c hm).imp id fun ⟨conn, hconn⟩ => ⟨conn, h'.granted _ hconn⟩
    · exact Or.inr hm

theorem keeps_netStep (s : St) (o : Net.Op) : Keeps s (netStep s o) := by
  unfold netStep
  dsimp only
  split
  · split_ifs <;> exact .of_eq rfl rfl rfl
  · split
    · exact .of_eq rfl rfl rfl
    · exact .of_eq rfl rfl rfl
    · split_ifs <;> exact .of_eq rfl rfl rfl
  · exact .of_eq rfl rfl rfl

theorem keeps_read (s : St) (p gen : ℕ) (r : Net.ReadResult) (msgs : List Msg) : Keeps s (read s p gen r msgs) := by
  have hnet := keeps_netStep s (.readSome p gen r)
  unfold read
  dsimp only
  split_ifs
  · exact hnet.trans (.of_eq rfl rfl rfl)
  · exact hnet

/-- a check is asked for -/
theorem keeps_task {d : CheckAcct} (htasks : s'.tasks = s.tasks ++ [d]) (hgranted : s'.granted = s.granted)
    (htoGate : s'.toGate = s.toGate) (hd : d.acct = 0) : Keeps s s' := by
  refine ⟨fun d' hd' => ?_, fun _ hx => hgranted ▸ hx, fun _ _ _ h => Or.inl (htoGate ▸ h)⟩
  rw [htasks] at hd'
  rcases List.mem_append.1 hd' with h | h
  · exact Or.inl h
  · rw [List.mem_singleton.1 h]
    exact Or.inr hd

theorem keeps_checkAccount (s : St) (name pwd : String) (channel : ℤ) (p : ℕ) (t : CheckType) (conn : ℕ × ℕ) :
    Keeps s (checkAccount s name pwd channel p t conn) := keeps_task rfl rfl rfl rfl

theorem keeps_parseLoginGame (s : St) (p : ℕ) (m : LoginRequest) (conn : ℕ × ℕ) :
    Keeps s (parseLoginGame cfg s p m conn) := by
  have hsend (s : St) (r : Reply) : Keeps s (sendPBMessage s p r) := .of_eq rfl rfl rfl
  have herror : Keeps s (if mustVerify cfg m ∧ refused s p m then
      sendPBMessage s p (.loginResponse { result := .errorNeedThirdVerify }) else s) := by
    split_ifs
    · exact hsend s _
    · exact .refl s
  unfold parseLoginGame
  refine iteInduction (fun _ => ?_) fun _ => herror
  split
  · exact herror.trans (hsend _ _)
  · exact herror.trans (keeps_checkAccount _ _ _ _ _ _ _)

theorem keeps_process (s : St) (status : ℤ) : Keeps s (process cfg s status) := by
  unfold process
  split
  · exact .refl s
  · rename_i conn m rest hrecv
    have hpop : Keeps s { s with recv := rest } := .of_eq rfl rfl rfl
    dsimp only
    split_ifs
    · cases m with
      | loginRequest m => exact hpop.trans (keeps_parseLoginGame cfg _ _ _ _)
      | registerAccountRequest m => exact hpop.trans (keeps_checkAccount _ _ _ _ _ _ _)
      | platformVerifyReq m =>
        refine hpop.trans ?_
        rw [procMessage, parsePlatformVerify]
        split_ifs
        · exact .of_eq rfl rfl rfl
        · exact .refl _
    · exact hpop

theorem keeps_createNewAccount (s : St) (d : CheckAcct) (sucess : Bool) : Keeps s (createNewAccount s d sucess) := by
  unfold createNewAccount
  split_ifs
  · exact .of_eq rfl rfl rfl
  · exact .of_eq rfl rfl rfl
  · exact keeps_task rfl rfl rfl rfl
  · exact .refl s

/-- a gate is told to kick -/
theorem keeps_kick (s : St) (p : Account) : Keeps s (kickUserFromGate s p) := by
  refine ⟨fun _ hd => Or.inl hd, fun _ hx => hx, fun q data c hm => ?_⟩
  rw [kickUserFromGate] at hm
  rcases List.mem_append.1 hm with hm | hm
  · exact Or.inl hm
  · split_ifs at hm
    · obtain ⟨_, -, heq⟩ := List.mem_map.1 hm
      cases heq
    · exact absurd hm List.not_mem_nil

theorem keeps_kickOld (s : St) (a : ℕ) : Keeps s (kickOld s a) := by
  unfold kickOld
  split
  · exact keeps_kick s _
  · exact .refl s

theorem keeps_giveUserToGate {a : ℕ} {p : Account} {q : ℕ} {conn : ℕ × ℕ} (hp : p.nId = a)
    (h : giveUserToGate s a p q conn = some s') : Keeps s s' := by
  unfold giveUserToGate at h
  split at h
  · cases h
  · obtain rfl := Option.some.inj h
    refine ⟨fun _ hd => Or.inl hd, fun _ hx => List.mem_append_left _ hx, fun q' data c hm => ?_⟩
    rcases List.mem_append.1 hm with hm | hm
    · exact Or.inl hm
    · cases List.mem_singleton.1 hm
      dsimp only
      rw [hp]
      exact Or.inr ⟨conn, List.mem_append_right _ (List.mem_singleton_self _)⟩

theorem keeps_checkAccountCall (s : St) (d : CheckAcct) (sucess : Bool) (now : ℕ) :
    Keeps s (checkAccountCall cfg s d sucess now) := by
  unfold checkAccountCall
  split_ifs
  · exact .of_eq rfl rfl rfl
  · dsimp only
    have hkick : Keeps s (setAcct (kickOld s d.acct) d.acct
        { nGateId := 0, nId := d.acct, nTranId := loginId cfg s d now }) :=
      (keeps_kickOld s d.acct).trans (.of_eq rfl rfl rfl)
    split
    · rename_i s' hgive
      exact hkick.trans (keeps_giveUserToGate rfl hgive)
    · exact hkick.trans (.of_eq rfl rfl rfl)
  · exact .of_eq rfl rfl rfl
  · exact .refl s

theorem keeps_dbDone (s : St) (i : ℕ) (row : Option (ℕ × ℕ)) (sucess : Bool) (now : ℕ) :
    Keeps s (dbDone cfg s i row sucess now) := by
  unfold dbDone
  split
  · exact .refl s
  · rename_i d htask
    have hpop : Keeps s { s with tasks := s.tasks.eraseIdx i } :=
      ⟨fun _ hd => Or.inl (List.mem_of_mem_eraseIdx hd), fun _ hx => hx, fun _ _ _ h => Or.inl h⟩
    dsimp only
    split
    · exact hpop.trans (keeps_checkAccountCall cfg _ _ _ _)
    · exact hpop.trans (keeps_createNewAccount _ _ _)

theorem keeps_registerAccounts (gateId : ℕ) (ds : List GTLGData) (s : St) :
    Keeps s (registerAccounts cfg gateId ds s) := by
  induction ds generalizing s with
  | nil => exact .refl s
  | cons d ds ih =>
    have hadd (s : St) : Keeps s (addAccount s d.account d.transid gateId) := .of_eq rfl rfl rfl
    unfold registerAccounts
    split
    · exact (hadd s).trans (ih _)
    · split_ifs
      · exact (hadd s).trans (ih _)
      · exact ((keeps_kick s _).trans (hadd _)).trans (ih _)
      · exact .of_eq rfl rfl rfl

theorem keeps_step (s : St) (o : Op) : Keeps s (step cfg s o) := by
  unfold step
  split_ifs
  · exact .refl s
  · cases o with
    | net o => exact keeps_netStep s o
    | read p gen r msgs => exact keeps_read s p gen r msgs
    | process status => exact keeps_process cfg s status
    | dbDone i row sucess now => exact keeps_dbDone cfg s i row sucess now
    | httpUpdate r =>
      dsimp only
      unfold httpUpdate
      split <;> exact .of_eq rfl rfl rfl
    | logicUpdate =>
      dsimp only
      unfold logicUpdate logicExcute
      split
      · exact .refl s
      · dsimp only
        split_ifs <;> exact .of_eq rfl rfl rfl
    | gateRegister q m =>
      have hgate (s : St) (gateId : ℕ) : Keeps s (addGate s gateId q) := by
        unfold addGate
        split_ifs <;> exact .of_eq rfl rfl rfl
      have hmod : Keeps s (s.modGate q fun g => { g with
          gateId := m.serverid % 2 ^ 8, onlines := m.accounts.length, outIp := m.ip, outPort := m.port % 2 ^ 16 }) :=
        .of_eq rfl rfl rfl
      exact (hmod.trans (hgate _ _)).trans (keeps_registerAccounts cfg _ _ _)
    | gateOnlines q onlines => exact .of_eq rfl rfl rfl
    | gateUserPrepar q account =>
      dsimp only
      unfold parseGateUserPrepar receiveUserPrepar
      dsimp only
      split <;> exact .of_eq rfl rfl rfl
    | gateClose q =>
      dsimp only
      unfold removeGate
      dsimp only
      split_ifs <;> exact .of_eq rfl rfl rfl
    | balenceInfoEvent q => exact .of_eq rfl rfl rfl
    | tick now => exact .of_eq rfl rfl rfl

/-! ## Runs -/

/-- the event at which the database has answered, with the account `a`, the check that was asked for on `conn`; the id
is made of what was asked -/
def Answers (s : St) (o : Op) (a : ℕ) (u : UInt32) (conn : ℕ × ℕ) : Prop :=
  ∃ i r now d, o = .dbDone i (some (a, r)) true now ∧ s.tasks[i]? = some d ∧ d.checkType = .loginCheck ∧
    d.conn = conn ∧ u = loginId cfg s d now

/-- some event of the run is one -/
def Checked (start : St) (ops : List Op) (a : ℕ) (u : UInt32) (conn : ℕ × ℕ) : Prop :=
  ∃ pre o, pre ++ [o] <+: ops ∧ Answers cfg (run (step cfg) start pre) o a u conn

variable {cfg}

theorem Checked.snoc {start : St} {ops : List Op} {a : ℕ} {u : UInt32} {conn : ℕ × ℕ}
    (h : Checked cfg start ops a u conn) (o : Op) : Checked cfg start (ops ++ [o]) a u conn := by
  obtain ⟨pre, o', hpre, hanswers⟩ := h
  exact ⟨pre, o', hpre.trans (List.prefix_append _ _), hanswers⟩

/-- no check that is under way has an account -/
theorem tasks_run (n onceListenCount : ℕ) (ops : List Op) :
    ∀ d ∈ (run (step cfg) (create n onceListenCount) ops).tasks, d.acct = 0 := by
  have hstep (s : St) (o : Op) (hs : ∀ d ∈ s.tasks, d.acct = 0) : ∀ d ∈ (step cfg s o).tasks, d.acct = 0 :=
    fun d hd => ((keeps_step cfg s o).tasks d hd).elim (hs d) id
  have hnone : (create n onceListenCount).tasks = [] := rfl
  exact inv_run_all hstep ops (by rw [hnone]; exact fun _ hd => absurd hd List.not_mem_nil)

/-- what one event grants, it was answered -/
theorem answers_of_granted (htasks : ∀ d ∈ s.tasks, d.acct = 0) {o : Op} {x : ℕ × UInt32 × (ℕ × ℕ)}
    (hx : x ∈ (step cfg s o).granted) : x ∈ s.granted ∨ Answers cfg s o x.1 x.2.1 x.2.2 := by
  have hevent := step_event cfg s o
  generalize hnext : step cfg s o = s' at hevent hx
  cases hevent with
  | quiet h => exact Or.inl (h.granted ▸ hx)
  | drop _ _ granted _ _ => exact Or.inl (granted ▸ hx)
  | register _ _ _ granted _ => exact Or.inl (granted ▸ hx)
  | prepar _ _ _ _ granted _ => exact Or.inl (granted ▸ hx)
  | give task check valid acct idle given =>
    rename_i i row now d
    rw [given.granted] at hx
    rcases List.mem_append.1 hx with hx | hx
    · exact Or.inl hx
    · obtain rfl := List.mem_singleton.1 hx
      cases row with
      | none => exact absurd (htasks d (List.mem_of_getElem? task)) acct
      | some row => exact Or.inr ⟨i, row.2, now, d, rfl, task, check, rfl, rfl⟩

theorem checked_of_granted (n onceListenCount : ℕ) (ops : List Op) {x : ℕ × UInt32 × (ℕ × ℕ)}
    (hx : x ∈ (run (step cfg) (create n onceListenCount) ops).granted) :
    Checked cfg (create n onceListenCount) ops x.1 x.2.1 x.2.2 := by
  induction ops using List.reverseRecOn with
  | nil => exact absurd hx List.not_mem_nil
  | append_singleton ops o ih =>
    rw [run_snoc] at hx
    rcases answers_of_granted (tasks_run n onceListenCount ops) hx with hx | hanswers
    · exact (ih hx).snoc o
    · exact ⟨ops, o, List.prefix_refl _, hanswers⟩

end DreamHeroes.Login

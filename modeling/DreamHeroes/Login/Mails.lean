/-
What the login server tells the gates, beside its tables of accounts and of gates (`AccountManager::checkAccountCall`,
`GateManager::giveUserToGate`, `kickUserFromGate`).

- `admitted l t`: the account that the id `t` lets in at a gate that has been told `l`.
- `Mails`: an event tells the gates nothing; or to kick the account that is in; or to kick it and to let it in with a
  new id.
- `Books`: an id lets an account in at the gate, and only there, that the table of accounts has for it. `books_mails`,
  `books_register`.
-/
import Mathlib.Tactic
import DreamHeroes.Login.LoginServer

namespace DreamHeroes.Login

open DreamHeroes.Lib

variable {cfg : Cfg} {s s' s'' : St}

/-! ## What a gate has been told -/

def GateMsg.transid : GateMsg → ℕ
  | .kickUser data => data.transid.toNat
  | .userLogin data _ => data.transid.toNat

def GateMsg.lets : GateMsg → Option ℕ
  | .kickUser _ => none
  | .userLogin data _ => some data.account

/-- the last message about the id says it -/
def admitted (l : List GateMsg) (t : ℕ) : Option ℕ := l.foldl (fun a m => if m.transid = t then m.lets else a) none

theorem admitted_snoc (l : List GateMsg) (m : GateMsg) (t : ℕ) :
    admitted (l ++ [m]) t = if m.transid = t then m.lets else admitted l t := by
  rw [admitted, List.foldl_append]
  rfl

theorem admitted_append {l l' : List GateMsg} {t : ℕ} (h : ∀ m ∈ l', m.transid ≠ t) :
    admitted (l ++ l') t = admitted l t := by
  induction l' using List.reverseRecOn with
  | nil => rw [List.append_nil]
  | append_singleton l' m ih =>
    have hm : m.transid ≠ t := h m (List.mem_append_right _ (List.mem_singleton_self m))
    rw [← List.append_assoc, admitted_snoc, if_neg hm]
    exact ih fun m' hm' => h m' (List.mem_append_left _ hm')

/-- nobody is let in without a message -/
theorem mem_of_admitted {l : List GateMsg} {t a : ℕ} (h : admitted l t = some a) : ∃ m ∈ l, m.transid = t := by
  by_contra hno
  push Not at hno
  have hnone : admitted ([] ++ l) t = none := admitted_append hno
  rw [List.nil_append, h] at hnone
  cases hnone

/-- the messages on the connection `q` -/
def mailTo (l : List (ℕ × GateMsg)) (q : ℕ) : List GateMsg := (l.filter fun m => m.1 = q).map Prod.snd

def St.mail (s : St) (q : ℕ) : List GateMsg := mailTo s.toGate q

theorem mailTo_append (l l' : List (ℕ × GateMsg)) (q : ℕ) : mailTo (l ++ l') q = mailTo l q ++ mailTo l' q := by
  simp [mailTo]

theorem mem_mailTo {l : List (ℕ × GateMsg)} {q : ℕ} {m : GateMsg} : m ∈ mailTo l q ↔ (q, m) ∈ l := by
  simp [mailTo]

theorem mailTo_single (q' q : ℕ) (m : GateMsg) : mailTo [(q', m)] q = if q' = q then [m] else [] := by
  by_cases hq : q' = q
  · simp [mailTo, hq]
  · simp [mailTo, hq]

/-! ## One event -/

/-- the tables stay, and nothing is sent -/
structure Still (s s' : St) : Prop where
  accts : s'.accts = s.accts
  toGate : s'.toGate = s.toGate
  gates : s'.gates = s.gates
  gateId : ∀ q, (s'.gate q).gateId = (s.gate q).gateId

theorem Still.of_eq (haccts : s'.accts = s.accts) (htoGate : s'.toGate = s.toGate) (hgates : s'.gates = s.gates)
    (hgate : s'.gate = s.gate) : Still s s' :=
  ⟨haccts, htoGate, hgates, fun q => by rw [hgate]⟩

theorem Still.refl (s : St) : Still s s := .of_eq rfl rfl rfl rfl

theorem Still.trans (h : Still s s') (h' : Still s' s'') : Still s s'' :=
  ⟨h'.accts.trans h.accts, h'.toGate.trans h.toGate, h'.gates.trans h.gates, fun q => (h'.gateId q).trans (h.gateId q)⟩

theorem still_modGate (s : St) (q : ℕ) {f : GateSession → GateSession} (hf : ∀ g, (f g).gateId = g.gateId) :
    Still s (s.modGate q f) := by
  refine ⟨rfl, rfl, rfl, fun j => ?_⟩
  rw [St.modGate]
  dsimp only
  rcases eq_or_ne j q with rfl | hj
  · rw [Function.update_self, hf]
  · rw [Function.update_of_ne hj]

/-- the kick that `kickOld` sends, if the account is in -/
def kicks (s : St) (a : ℕ) : List (ℕ × GateMsg) :=
  match s.accts a with
  | some p =>
    if p.nGateId < maxGateId then (s.gates p.nGateId).toList.map fun q => (q, .kickUser ⟨p.nId, p.nTranId⟩) else []
  | none => []

theorem kickOld_kicks (s : St) (a : ℕ) : kickOld s a = { s with toGate := s.toGate ++ kicks s a } := by
  cases hp : s.accts a with
  | some p =>
    simp only [kickOld, kicks, hp]
    rfl
  | none => simp only [kickOld, kicks, hp, List.append_nil]

/-- what an event can tell the gates -/
inductive Mails (s s' : St) : Prop
  | still (h : Still s s')
  /-- there is no gate for the login -/
  | drop (a : ℕ) (accts : s'.accts = Function.update s.accts a none) (toGate : s'.toGate = s.toGate ++ kicks s a)
      (gates : s'.gates = s.gates) (gateId : ∀ q, (s'.gate q).gateId = (s.gate q).gateId)
  | give (a q : ℕ) (u : UInt32) (c : ℤ) (idle : getIdleGate s = some q)
      (accts : s'.accts = Function.update s.accts a (some ⟨(s.gate q).gateId, a, u⟩))
      (toGate : s'.toGate = s.toGate ++ kicks s a ++ [(q, .userLogin ⟨a, u⟩ c)])
      (gates : s'.gates = s.gates) (gateId : ∀ q, (s'.gate q).gateId = (s.gate q).gateId)

theorem still_netStep (s : St) (o : Net.Op) : Still s (netStep s o) := by
  unfold netStep
  dsimp only
  split
  · split_ifs <;> exact .of_eq rfl rfl rfl rfl
  · split
    · exact .of_eq rfl rfl rfl rfl
    · exact .of_eq rfl rfl rfl rfl
    · split_ifs <;> exact .of_eq rfl rfl rfl rfl
  · exact .of_eq rfl rfl rfl rfl

theorem still_read (s : St) (p gen : ℕ) (r : Net.ReadResult) (msgs : List Msg) : Still s (read s p gen r msgs) := by
  have hnet := still_netStep s (.readSome p gen r)
  unfold read
  dsimp only
  split_ifs
  · exact hnet.trans (.of_eq rfl rfl rfl rfl)
  · exact hnet

theorem still_parseLoginGame (cfg : Cfg) (s : St) (p : ℕ) (m : LoginRequest) (conn : ℕ × ℕ) :
    Still s (parseLoginGame cfg s p m conn) := by
  have hsend (s : St) (r : Reply) : Still s (sendPBMessage s p r) := .of_eq rfl rfl rfl rfl
  have herror : Still s (if mustVerify cfg m ∧ refused s p m then
      sendPBMessage s p (.loginResponse { result := .errorNeedThirdVerify }) else s) := by
    split_ifs
    · exact hsend s _
    · exact .refl s
  unfold parseLoginGame
  refine iteInduction (fun _ => ?_) fun _ => herror
  split
  · exact herror.trans (hsend _ _)
  · exact herror.trans (.of_eq rfl rfl rfl rfl)

theorem still_process (cfg : Cfg) (s : St) (status : ℤ) : Still s (process cfg s status) := by
  unfold process
  split
  · exact .refl s
  · rename_i conn m rest hrecv
    have hpop : Still s { s with recv := rest } := .of_eq rfl rfl rfl rfl
    dsimp only
    split_ifs
    · cases m with
      | loginRequest m => exact hpop.trans (still_parseLoginGame cfg _ _ _ _)
      | registerAccountRequest m => exact hpop.trans (.of_eq rfl rfl rfl rfl)
      | platformVerifyReq m =>
        refine hpop.trans ?_
        rw [procMessage, parsePlatformVerify]
        split_ifs
        · exact .of_eq rfl rfl rfl rfl
        · exact .refl _
    · exact hpop

theorem mails_checkAccountCall (cfg : Cfg) (s : St) (d : CheckAcct) (sucess : Bool) (now : ℕ) :
    Mails s (checkAccountCall cfg s d sucess now) := by
  unfold checkAccountCall
  split_ifs
  · exact .still (.of_eq rfl rfl rfl rfl)
  · dsimp only
    rw [kickOld_kicks]
    have hsame : getIdleGate (setAcct { s with toGate := s.toGate ++ kicks s d.acct } d.acct
        { nGateId := 0, nId := d.acct, nTranId := loginId cfg s d now }) = getIdleGate s := rfl
    cases hidle : getIdleGate s with
    | none =>
      rw [giveUserToGate, hsame, hidle]
      exact .drop d.acct (Function.update_idem _ _ _) rfl rfl fun _ => rfl
    | some q =>
      rw [giveUserToGate, hsame, hidle]
      have hgate : Still s (s.modGate q fun g => g.addBalenceTime s.serverTime) := still_modGate s q fun _ => rfl
      exact .give d.acct q (loginId cfg s d now) _ hidle (Function.update_idem _ _ _) rfl rfl hgate.gateId
  · exact .still (.of_eq rfl rfl rfl rfl)
  · exact .still (.refl s)

theorem mails_dbDone (cfg : Cfg) (s : St) (i : ℕ) (row : Option (ℕ × ℕ)) (sucess : Bool) (now : ℕ) :
    Mails s (dbDone cfg s i row sucess now) := by
  unfold dbDone
  split
  · exact .still (.refl s)
  · rename_i d htask
    dsimp only
    split
    · -- the task is taken from the list, which nothing here reads
      cases mails_checkAccountCall cfg { s with tasks := s.tasks.eraseIdx i } (d.batchQuery row) sucess now with
      | still h => exact .still ⟨h.accts, h.toGate, h.gates, h.gateId⟩
      | drop a accts toGate gates gateId => exact .drop a accts toGate gates gateId
      | give a q u c idle accts toGate gates gateId => exact .give a q u c idle accts toGate gates gateId
    · unfold createNewAccount
      split_ifs
      · exact .still (.of_eq rfl rfl rfl rfl)
      · exact .still (.of_eq rfl rfl rfl rfl)
      · exact .still (.of_eq rfl rfl rfl rfl)
      · exact .still (.of_eq rfl rfl rfl rfl)

/-- neither a gate registers nor is its connection lost -/
def keepsGates : Op → Bool
  | .gateRegister .. | .gateClose _ => false
  | _ => true

theorem mails_step (cfg : Cfg) (s : St) {o : Op} (ho : keepsGates o = true) : Mails s (step cfg s o) := by
  unfold step
  split_ifs
  · exact .still (.refl s)
  · cases o with
    | net o => exact .still (still_netStep s o)
    | read p gen r msgs => exact .still (still_read s p gen r msgs)
    | process status => exact .still (still_process cfg s status)
    | dbDone i row sucess now => exact mails_dbDone cfg s i row sucess now
    | httpUpdate r =>
      dsimp only
      unfold httpUpdate
      split <;> exact .still (.of_eq rfl rfl rfl rfl)
    | logicUpdate =>
      dsimp only
      unfold logicUpdate logicExcute
      split
      · exact .still (.refl s)
      · dsimp only
        split_ifs <;> exact .still (.of_eq rfl rfl rfl rfl)
    | gateRegister q m => exact absurd ho Bool.false_ne_true
    | gateOnlines q onlines => exact .still (still_modGate s q fun _ => rfl)
    | gateUserPrepar q account =>
      dsimp only
      unfold parseGateUserPrepar receiveUserPrepar
      dsimp only
      split <;> exact .still (.of_eq rfl rfl rfl rfl)
    | gateClose q => exact absurd ho Bool.false_ne_true
    | balenceInfoEvent q => exact .still (still_modGate s q fun _ => rfl)
    | tick now => exact .still (.of_eq rfl rfl rfl rfl)

/-! ## The books -/

structure Books (s : St) : Prop where
  gates : ∀ n q, s.gates n = some q → (s.gate q).gateId = n ∧ 0 < n ∧ n < maxGateId
  mailed : ∀ q m, (q, m) ∈ s.toGate → s.gates (s.gate q).gateId = some q
  accts : ∀ q t a, admitted (s.mail q) t = some a →
    ∃ p, s.accts a = some p ∧ p.nGateId = (s.gate q).gateId ∧ p.nTranId.toNat = t

theorem Books.mailed_of_admitted (h : Books s) {q t a : ℕ} (ha : admitted (s.mail q) t = some a) :
    s.gates (s.gate q).gateId = some q := by
  obtain ⟨m, hm, -⟩ := mem_of_admitted ha
  exact h.mailed q m (mem_mailTo.1 hm)

theorem mem_kicks {a q : ℕ} {m : GateMsg} (hm : (q, m) ∈ kicks s a) :
    ∃ p, s.accts a = some p ∧ s.gates p.nGateId = some q ∧ m = .kickUser ⟨p.nId, p.nTranId⟩ := by
  rw [kicks] at hm
  split at hm
  · rename_i p hp
    split_ifs at hm
    · obtain ⟨q', hq', heq⟩ := List.mem_map.1 hm
      cases heq
      exact ⟨p, hp, Option.mem_toList.1 hq', rfl⟩
    · exact absurd hm List.not_mem_nil
  · exact absurd hm List.not_mem_nil

/-- after the kick of an account only other accounts are let in, as before -/
theorem admitted_kicks (h : Books s) {a q t b : ℕ} (hb : admitted (mailTo (s.toGate ++ kicks s a) q) t = some b) :
    b ≠ a ∧ admitted (s.mail q) t = some b := by
  rw [mailTo_append] at hb
  by_cases hkicked : ∃ m ∈ mailTo (kicks s a) q, m.transid = t
  · -- the only message is the kick of `t`
    exfalso
    obtain ⟨m, hm, ht⟩ := hkicked
    obtain ⟨p, hp, hq, rfl⟩ := mem_kicks (mem_mailTo.1 hm)
    have hlt : p.nGateId < maxGateId := (h.gates _ _ hq).2.2
    have hkicks : kicks s a = [(q, .kickUser ⟨p.nId, p.nTranId⟩)] := by
      simp only [kicks, hp, if_pos hlt, hq, Option.toList_some, List.map_cons, List.map_nil]
    rw [hkicks, mailTo_single, if_pos rfl, admitted_snoc, if_pos ht] at hb
    cases hb
  · push Not at hkicked
    rw [admitted_append hkicked] at hb
    refine ⟨?_, hb⟩
    rintro rfl
    obtain ⟨p, hp, hgate, ht⟩ := h.accts q t b hb
    have hq : s.gates p.nGateId = some q := hgate ▸ h.mailed_of_admitted hb
    have hlt : p.nGateId < maxGateId := (h.gates _ _ hq).2.2
    have hmem : (q, GateMsg.kickUser ⟨p.nId, p.nTranId⟩) ∈ kicks s b := by
      simp only [kicks, hp, if_pos hlt, hq, Option.toList_some, List.map_cons, List.map_nil]
      exact List.mem_singleton_self _
    exact hkicked _ (mem_mailTo.2 hmem) ht

theorem getIdleGate_gates {q : ℕ} (h : getIdleGate s = some q) : ∃ n, s.gates n = some q := by
  have hfold {f : Option ℕ → ℕ → Option ℕ} (hf : ∀ best i q, f best i = some q → best = some q ∨ s.gates i = some q)
      (l : List ℕ) (best : Option ℕ) (hbest : ∀ q, best = some q → ∃ n, s.gates n = some q) (q : ℕ)
      (hq : l.foldl f best = some q) : ∃ n, s.gates n = some q := by
    induction l generalizing best with
    | nil => exact hbest q hq
    | cons i l ih =>
      refine ih _ (fun q' hq' => ?_) hq
      exact (hf best i q' hq').elim (hbest q') fun hi => ⟨i, hi⟩
  refine hfold (fun best i q' hq' => ?_) _ none (fun q hq => by cases hq) q h
  -- one round of the loop keeps the best gate, or takes the gate `i`
  split at hq'
  · exact Or.inl hq'
  · rename_i hi
    exact Or.inr (hi.trans hq')
  · rename_i hi
    split_ifs at hq'
    · exact Or.inr (hi.trans hq')
    · exact Or.inl hq'

theorem books_mails (h : Books s) (hmails : Mails s s') : Books s' := by
  have hgates (hg : s'.gates = s.gates) (hid : ∀ q, (s'.gate q).gateId = (s.gate q).gateId) (n q : ℕ)
      (hq : s'.gates n = some q) : (s'.gate q).gateId = n ∧ 0 < n ∧ n < maxGateId := by
    rw [hid]
    exact h.gates n q (hg ▸ hq)
  have hkicked {a q : ℕ} {m : GateMsg} (hm : (q, m) ∈ s.toGate ++ kicks s a) : s.gates (s.gate q).gateId = some q := by
    rcases List.mem_append.1 hm with hm | hm
    · exact h.mailed q m hm
    · obtain ⟨p, -, hq, -⟩ := mem_kicks hm
      rw [(h.gates _ _ hq).1]
      exact hq
  cases hmails with
  | still hs =>
    refine ⟨hgates hs.gates hs.gateId, fun q m hm => ?_, fun q t a ha => ?_⟩
    · rw [hs.gateId, hs.gates]
      exact h.mailed q m (hs.toGate ▸ hm)
    · rw [hs.accts, hs.gateId]
      rw [St.mail, hs.toGate] at ha
      exact h.accts q t a ha
  | drop a haccts htoGate hg hid =>
    refine ⟨hgates hg hid, fun q m hm => ?_, fun q t b hb => ?_⟩
    · rw [hid, hg]
      exact hkicked (htoGate ▸ hm)
    · rw [St.mail, htoGate] at hb
      obtain ⟨hne, hold⟩ := admitted_kicks h hb
      rw [haccts, hid, Function.update_of_ne hne]
      exact h.accts q t b hold
  | give a q' u c hidle haccts htoGate hg hid =>
    obtain ⟨n, hn⟩ := getIdleGate_gates hidle
    refine ⟨hgates hg hid, fun q m hm => ?_, fun q t b hb => ?_⟩
    · rw [hid, hg]
      rw [htoGate] at hm
      rcases List.mem_append.1 hm with hm | hm
      · exact hkicked hm
      · cases List.mem_singleton.1 hm
        rw [(h.gates _ _ hn).1]
        exact hn
    · rw [St.mail, htoGate, mailTo_append, mailTo_single] at hb
      rw [haccts, hid]
      by_cases hnew : q' = q ∧ u.toNat = t
      · obtain ⟨rfl, hu⟩ := hnew
        have hlast : (GateMsg.userLogin ⟨a, u⟩ c).transid = t := hu
        rw [if_pos rfl, admitted_snoc, if_pos hlast] at hb
        cases hb
        rw [Function.update_self]
        exact ⟨_, rfl, rfl, hu⟩
      · have hother : admitted (mailTo (s.toGate ++ kicks s a) q) t = some b := by
          rw [← hb]
          refine (admitted_append fun m hm hmt => ?_).symm
          split_ifs at hm with hq
          · rw [List.mem_singleton.1 hm] at hmt
            exact hnew ⟨hq, hmt⟩
          · exact List.not_mem_nil hm
        obtain ⟨hne, hold⟩ := admitted_kicks h hother
        rw [Function.update_of_ne hne]
        exact h.accts q t b hold

/-- a gate registers with an id that is free, before it has been told anything, and with no account -/
theorem books_register (cfg : Cfg) (h : Books s) {q serverid : ℕ} (ip : String) (port : ℕ)
    (hid : 0 < serverid % 2 ^ 8 ∧ serverid % 2 ^ 8 < maxGateId) (hfree : s.gates (serverid % 2 ^ 8) = none)
    (hnew : (s.gate q).gateId = 0) : Books (step cfg s (.gateRegister q ⟨serverid, ip, port, []⟩)) := by
  have hno (n : ℕ) : s.gates n ≠ some q := by
    intro hq
    obtain ⟨hn, hpos, -⟩ := h.gates n q hq
    rw [← hn, hnew] at hpos
    exact absurd hpos (lt_irrefl 0)
  unfold step
  split_ifs
  · exact h
  · dsimp only
    rw [parseGateRegister]
    dsimp only
    rw [registerAccounts, addGate, if_pos hid]
    have hother {q' : ℕ} (hq' : q' ≠ q) (f : GateSession → GateSession) :
        ((s.modGate q f).gate q').gateId = (s.gate q').gateId := by
      rw [St.modGate]
      dsimp only
      rw [Function.update_of_ne hq']
    refine ⟨fun n q' hq' => ?_, fun q' m hm => ?_, fun q' t a ha => ?_⟩
    · dsimp only at hq' ⊢
      rcases eq_or_ne n (serverid % 2 ^ 8) with rfl | hn
      · rw [Function.update_self] at hq'
        cases hq'
        rw [St.modGate]
        dsimp only
        rw [Function.update_self]
        exact ⟨rfl, hid⟩
      · rw [Function.update_of_ne hn] at hq'
        rw [hother fun heq => hno n (heq ▸ hq')]
        exact h.gates n q' hq'
    · have hold : s.gates (s.gate q').gateId = some q' := h.mailed q' m hm
      dsimp only
      rw [hother fun heq => hno _ (heq ▸ hold), Function.update_of_ne]
      · exact hold
      · intro heq
        rw [heq, hfree] at hold
        cases hold
    · have hold := h.mailed_of_admitted ha
      dsimp only
      rw [hother fun heq => hno _ (heq ▸ hold)]
      exact h.accts q' t a ha

theorem books_create (n onceListenCount : ℕ) : Books (create n onceListenCount) :=
  ⟨fun _ _ h => (by cases h), fun _ _ h => absurd h List.not_mem_nil, fun _ _ _ h => (by cases h)⟩

end DreamHeroes.Login

/-
The way of an account from the login server over a gate to a game server. The login server checks a name and a password,
gives the account a transaction id and tells a gate; a client that shows the id to the gate is added at a game server.

- Any number of gates and of game servers. The network may lose, repeat, delay and misroute what the login server sends
  to the gates and the gates send to the game servers; it does not make messages up.
- What the gates send to the login server, and the clients to anybody, is arbitrary (`Login.Op`, `Gate.Op`).
- `Vouched`: a gate adds at game servers only what it has been told, `seated_step` the same for a game server.
- `authentic`: whoever has a session at a game server has the account that the database answered when the login server
  made the transaction id.
-/
import Mathlib.Tactic
import DreamHeroes.Login.Grants
import DreamHeroes.Login.Replies
import DreamHeroes.Link.OnlineAgreement

namespace DreamHeroes.Link.Authentic

open DreamHeroes.Lib

/-! ## The servers -/

structure St where
  login : Login.St
  gate : ℕ → Gate.St
  game : ℕ → GameServer.St

/-- the events of a gate that no message of the login server leads to -/
def gateEvent : Gate.Op → Bool
  | .addToWait .. | .kickUser .. => false
  | _ => true

/-- the message as the gate handles it -/
def toGateOp : Login.GateMsg → Gate.Op
  | .kickUser data => .kickUser data.transid.toNat data.account
  | .userLogin data channel => .addToWait data.transid.toNat data.account channel

inductive Op where
  | login (o : Login.Op)
  | gate (g : ℕ) (o : Gate.Op)
  | game (j : ℕ) (o : GameServer.Op)
  /-- the gate `g` gets the `i`-th message that the login server has sent -/
  | toGate (g i : ℕ)
  /-- the game server `j` gets the `i`-th message that the gate `g` has sent -/
  | toGame (j g i : ℕ)

def setGate (s : St) (g : ℕ) (o : Gate.Op) : St :=
  { s with gate := Function.update s.gate g (Gate.step (s.gate g) o) }

def setGame (s : St) (j : ℕ) (o : GameServer.Op) : St :=
  { s with game := Function.update s.game j (GameServer.step (s.game j) o) }

variable (cfg : Login.Cfg)

def step (s : St) : Op → St
  | .login o => { s with login := Login.step cfg s.login o }
  | .gate g o => if gateEvent o then setGate s g o else s
  | .game j o => if ownEvent o then setGame s j o else s
  | .toGate g i => match s.login.toGate[i]? with
    | some m => setGate s g (toGateOp m.2)
    | none => s
  | .toGame j g i => match (s.gate g).toGame[i]? with
    | some m => setGame s j (toOp g m.2)
    | none => s

def start (n onceListenCount : ℕ) (gsIdleMax : ℕ → ℕ) : St where
  login := Login.create n onceListenCount
  gate g := Gate.init (gsIdleMax g)
  game _ := GameServer.init

/-! ## A gate -/

/-- what the gate has been told, by transaction id and account -/
structure Vouched (P : ℕ → ℕ → Prop) (s : Gate.St) : Prop where
  wait : ∀ t a : ℕ, s.waitMap[t]? = some a → P t a
  accs : ∀ a t : ℕ, s.onlineaccs[a]? = some t → P t a
  sent : ∀ gs t a c, (gs, Gate.GameMsg.addUser t a c) ∈ s.toGame → P t a

variable {P : ℕ → ℕ → Prop} {s s' : Gate.St}

/-- entries go, and what is sent adds nobody -/
theorem Vouched.less (hs : Vouched P s) (hwait : ∀ t a : ℕ, s'.waitMap[t]? = some a → s.waitMap[t]? = some a)
    (haccs : ∀ a t : ℕ, s'.onlineaccs[a]? = some t → s.onlineaccs[a]? = some t)
    (hsent : ∀ gs t a c, (gs, Gate.GameMsg.addUser t a c) ∈ s'.toGame → (gs, Gate.GameMsg.addUser t a c) ∈ s.toGame) :
    Vouched P s' :=
  ⟨fun t a h => hs.wait t a (hwait t a h), fun a t h => hs.accs a t (haccs a t h),
    fun gs t a c h => hs.sent gs t a c (hsent gs t a c h)⟩

theorem Vouched.congr (hs : Vouched P s) (hwait : s'.waitMap = s.waitMap) (haccs : s'.onlineaccs = s.onlineaccs)
    (hsent : s'.toGame = s.toGame) : Vouched P s' := by
  refine hs.less ?_ ?_ ?_
  · rw [hwait]
    exact fun _ _ h => h
  · rw [haccs]
    exact fun _ _ h => h
  · rw [hsent]
    exact fun _ _ _ _ h => h

theorem of_erase {m : Std.TreeMap ℕ ℕ} {k j v : ℕ} (h : (m.erase k)[j]? = some v) : m[j]? = some v :=
  ((get_erase_eq_some m k j v).1 h).2

theorem of_eraseVal {m : Std.TreeMap ℕ ℕ} {w j v : ℕ} (h : (eraseVal m w)[j]? = some v) : m[j]? = some v :=
  ((get_eraseVal_eq_some m w v j).1 h).1

/-- what is there after an insertion was there before, or is the new entry -/
theorem of_insertIfNew {m : Std.TreeMap ℕ ℕ} {k j v w : ℕ} (h : (m.insertIfNew k v)[j]? = some w) :
    m[j]? = some w ∨ (j = k ∧ v = w) := by
  rw [get_insertIfNew] at h
  split_ifs at h with hj
  · exact Or.inr ⟨hj.1, Option.some.inj h⟩
  · exact Or.inl h

theorem vouched_modSess (hs : Vouched P s) (p : ℕ) (f : Gate.UserSession → Gate.UserSession) :
    Vouched P (s.modSess p f) :=
  hs.congr rfl rfl rfl

theorem vouched_sendGame (hs : Vouched P s) (gs : ℕ) {m : Gate.GameMsg} (hm : ∀ t a c, m = .addUser t a c → P t a) :
    Vouched P (Gate.sendGame s gs m) := by
  refine ⟨hs.wait, hs.accs, fun gs' t a c h => ?_⟩
  rcases List.mem_append.1 h with h | h
  · exact hs.sent gs' t a c h
  · exact hm t a c (Prod.ext_iff.1 (List.mem_singleton.1 h)).2.symm

theorem vouched_removePlayer (hs : Vouched P s) (gs t : ℕ) : Vouched P (Gate.removePlayer s gs t) := by
  rw [Gate.removePlayer, Gate.sendActive]
  split_ifs
  · exact vouched_sendGame hs gs fun _ _ _ h => by cases h
  · exact hs.congr rfl rfl rfl

theorem vouched_kickUser (hs : Vouched P s) (t a : ℕ) : Vouched P (Gate.kickUser s t a) := by
  rw [Gate.kickUser]
  split
  · rename_i p _
    have hremove := vouched_removePlayer hs (s.sess p).gsId t
    exact hremove.less (fun _ _ h => h) (fun _ _ h => of_erase h) fun _ _ _ _ h => h
  · dsimp only
    have hless : Vouched P { s with
        waitMap := s.waitMap.erase t
        waitMapChannel := s.waitMapChannel.erase t
        onlineaccs := if s.waitMap[t]?.getD Gate.invalidAccount ≠ Gate.invalidAccount then
          s.onlineaccs.erase (s.waitMap[t]?.getD Gate.invalidAccount) else s.onlineaccs } := by
      refine hs.less (fun _ _ h => of_erase h) (fun a' t' h => ?_) fun _ _ _ _ h => h
      dsimp only at h
      split_ifs at h
      · exact of_erase h
      · exact h
    split
    · rename_i gs _
      exact vouched_removePlayer (s := { s with
        waitMap := s.waitMap.erase t
        waitMapChannel := s.waitMapChannel.erase t
        onlineaccs := if s.waitMap[t]?.getD Gate.invalidAccount ≠ Gate.invalidAccount then
          s.onlineaccs.erase (s.waitMap[t]?.getD Gate.invalidAccount) else s.onlineaccs
        reconMap := s.reconMap.erase t }) (hless.congr rfl rfl rfl) gs t
    · exact hless

theorem vouched_addToWait (hs : Vouched P s) {t a : ℕ} (h : P t a) (c : ℤ) : Vouched P (Gate.addToWait s t a c) := by
  have hadd {u : Gate.St} (hu : Vouched P u) : Vouched P { u with
      waitMap := u.waitMap.insertIfNew t a
      waitMapChannel := u.waitMapChannel.insertIfNew t c
      waitTimers := u.waitTimers ++ [t]
      toLogin := u.toLogin ++ [t] } := by
    refine ⟨fun t' a' h' => ?_, hu.accs, hu.sent⟩
    rcases of_insertIfNew h' with h' | ⟨rfl, rfl⟩
    · exact hu.wait t' a' h'
    · exact h
  cases honline : s.onlines[t]? with
  | some p =>
    simp only [Gate.addToWait, honline]
    exact hadd (vouched_kickUser (vouched_modSess hs p _) t a)
  | none =>
    simp only [Gate.addToWait, honline]
    exact hadd hs

theorem vouched_checkConn (hs : Vouched P s) (t p : ℕ) : Vouched P (Gate.checkConn s t p).2 := by
  rw [Gate.checkConn]
  split
  · rename_i v hv
    have hless : Vouched P { s with
        waitMap := s.waitMap.erase t, waitMapChannel := s.waitMapChannel.erase t } :=
      hs.less (fun _ _ h => of_erase h) (fun _ _ h => h) fun _ _ _ _ h => h
    dsimp only
    split
    · exact hless.congr rfl rfl rfl
    · rename_i gs _
      have hadd : Vouched P (Gate.addNewPlayer { s with
          waitMap := s.waitMap.erase t, waitMapChannel := s.waitMapChannel.erase t } gs t v
          (s.waitMapChannel[t]?.getD 0)) := by
        refine vouched_sendGame hless gs fun t' a' c' h => ?_
        cases h
        exact hs.wait t v hv
      refine ⟨hadd.wait, fun a' t' h => ?_, hadd.sent⟩
      rcases of_insertIfNew h with h | ⟨rfl, rfl⟩
      · exact hadd.accs a' t' h
      · exact hs.wait _ _ hv
  · split
    · exact hs.congr rfl rfl rfl
    · exact hs.congr rfl rfl rfl

theorem vouched_checkClose (hs : Vouched P s) (p : ℕ) : Vouched P (Gate.checkClose s p) := by
  rw [Gate.checkClose]
  dsimp only
  split_ifs
  · have hsend := vouched_sendGame (s := { s with
      onlines := s.onlines.erase (s.sess p).tranid
      reconMap := s.reconMap.insertIfNew (s.sess p).tranid (s.sess p).gsId }) (hs.congr rfl rfl rfl) (s.sess p).gsId
      (m := .offlineUser (s.sess p).tranid) fun _ _ _ h => by cases h
    exact hsend.congr rfl rfl rfl
  · have hless : Vouched P { s with
        onlines := s.onlines.erase (s.sess p).tranid
        onlineaccs := eraseVal s.onlineaccs (s.sess p).tranid } :=
      hs.less (fun _ _ h => h) (fun _ _ h => of_eraseVal h) fun _ _ _ _ h => h
    exact (vouched_removePlayer hless (s.sess p).gsId (s.sess p).tranid).congr rfl rfl rfl

/-- the account that is found by its id is in the map -/
theorem getAccount_mem {t : ℕ} (h : Gate.getAccount s t ≠ Gate.invalidAccount) :
    s.onlineaccs[Gate.getAccount s t]? = some t := by
  rw [Gate.getAccount] at h ⊢
  cases hfind : s.onlineaccs.toList.find? fun e => e.2 = t with
  | none => exact absurd (by rw [hfind]; rfl) h
  | some e =>
    have hmem := List.mem_of_find?_eq_some hfind
    have heq : e.2 = t := by simpa using List.find?_some hfind
    rw [Option.map_some, Option.getD_some, ← heq]
    exact Std.TreeMap.mem_toList_iff_getElem?_eq_some.1 hmem

theorem vouched_parseChangeGS (hs : Vouched P s) (gs t newGs : ℕ) : Vouched P (Gate.parseChangeGS s gs t newGs) := by
  rw [Gate.parseChangeGS]
  split
  · exact hs
  · rename_i p _
    dsimp only
    have hsend : Vouched P (Gate.sendGame s gs (.removeUser (s.sess p).tranid)) :=
      vouched_sendGame hs gs fun _ _ _ h => by cases h
    split_ifs with _ hacc
    · exact hs
    · refine vouched_sendGame (vouched_modSess hsend p _) newGs fun t' a' c' h => ?_
      cases h
      exact hsend.accs _ _ (getAccount_mem hacc)
    · exact hsend

theorem vouched_step (hs : Vouched P s) (o : Gate.Op) (ho : ∀ t a c, o = .addToWait t a c → P t a) :
    Vouched P (Gate.step s o) := by
  cases o with
  | accept p =>
    rw [Gate.step]
    split_ifs
    · exact vouched_modSess hs p _
    · exact hs
  | addToWait t a c => exact vouched_addToWait hs (ho t a c rfl) c
  | kickUser t a => exact vouched_kickUser hs t a
  | loginGame p t =>
    rw [Gate.step]
    split_ifs
    · exact hs
    · rw [Gate.parseLoginGame]
      dsimp only
      have hconn := vouched_checkConn hs t p
      split_ifs
      · exact hs
      · exact vouched_modSess hconn p _
      · exact hconn
  | onClose p =>
    rw [Gate.step]
    split_ifs
    · exact hs
    · exact vouched_modSess (vouched_checkClose hs p) p _
  | fireRemoveWait t =>
    rw [Gate.step]
    split_ifs
    · exact hs.less (fun _ _ h => of_erase h) (fun _ _ h => h) fun _ _ _ _ h => h
    · exact hs
  | fireRemoveReconn t =>
    rw [Gate.step]
    split_ifs
    · rw [Gate.eventCallRemoveReconn]
      dsimp only
      have hless : Vouched P { s with
          reconTimers := s.reconTimers.erase t
          reconMap := s.reconMap.erase t
          onlineaccs := eraseVal s.onlineaccs t } :=
        hs.less (fun _ _ h => h) (fun _ _ h => of_eraseVal h) fun _ _ _ _ h => h
      split_ifs
      · exact vouched_removePlayer hless _ t
      · exact hless
    · exact hs
  | changeGS gs t newGs =>
    rw [Gate.step]
    split_ifs
    · exact vouched_parseChangeGS hs gs t newGs
    · exact hs
  | gameRegister gs =>
    rw [Gate.step]
    split_ifs
    · exact hs.congr rfl rfl rfl
    · exact hs
  | gameOnlines gs n =>
    rw [Gate.step]
    split_ifs
    · exact hs.congr rfl rfl rfl
    · exact hs
  | gameClose gs =>
    rw [Gate.step, Gate.removeActiveGameClient]
    split_ifs
    · exact hs.congr rfl rfl rfl
    · exact hs

theorem vouched_init (n : ℕ) : Vouched P (Gate.init n) :=
  ⟨by simp [Gate.init], by simp [Gate.init], by simp [Gate.init]⟩

theorem Vouched.mono {P' : ℕ → ℕ → Prop} (h : ∀ t a, P t a → P' t a) (hs : Vouched P s) : Vouched P' s :=
  ⟨fun t a hw => h t a (hs.wait t a hw), fun a t hw => h t a (hs.accs a t hw),
    fun gs t a c hm => h t a (hs.sent gs t a c hm)⟩

/-! ## A game server -/

def Seated (P : ℕ → ℕ → Prop) (r : GameServer.Roster) : Prop := ∀ t x, r t = some x → P t x.account

theorem seated_update {r : GameServer.Roster} (hr : Seated P r) {t : ℕ} {x : Option GameServer.Seat}
    (hx : ∀ y, x = some y → P t y.account) : Seated P (Function.update r t x) := by
  intro j y hy
  rcases eq_or_ne j t with rfl | hj
  · rw [Function.update_self] at hy
    exact hx y hy
  · rw [Function.update_of_ne hj] at hy
    exact hr j y hy

theorem seated_step {r : GameServer.Roster} (hr : Seated P r) (o : GameServer.Op)
    (ho : ∀ g t a c, o = .addUser g t a c → P t a) : Seated P (r.step o) := by
  cases o with
  | addUser g t a c =>
    refine seated_update hr fun y hy => ?_
    split at hy
    · rw [← Option.some.inj hy]
      exact ho g t a c rfl
    · rename_i x hx
      have haccount : y.account = x.account := by
        rw [← Option.some.inj hy]
        split_ifs <;> rfl
      rw [haccount]
      exact hr t x hx
  | removeUser t => exact seated_update hr fun y hy => absurd hy.symm (Option.some_ne_none y)
  | offlineUser t =>
    refine seated_update hr fun y hy => ?_
    obtain ⟨x, hx, rfl⟩ := Option.map_eq_some_iff.1 hy
    exact hr t x hx
  | removeUserByGate g => exact fun t y hy => hr t y (Option.filter_eq_some_iff.1 hy).1
  | queryHeroInfo t i => exact hr
  | needCreateHero t => exact hr
  | clientMsg t => exact hr
  | fireDestroy x => exact hr

/-! ## The invariant -/

/-- the login server has granted the id to the account -/
def Granted (s : St) (t a : ℕ) : Prop := ∃ u conn, t = u.toNat ∧ (a, u, conn) ∈ s.login.granted

structure Inv (s : St) : Prop where
  told : ∀ q data c, (q, Login.GateMsg.userLogin data c) ∈ s.login.toGate → Granted s data.transid.toNat data.account
  gate : ∀ g, Vouched (Granted s) (s.gate g)
  own : ∀ j, GameServer.Own (s.game j)
  game : ∀ j, Seated (Granted s) (GameServer.roster (s.game j))

variable {s : St}

theorem inv_setGate (hs : Inv s) (g : ℕ) {o : Gate.Op} (ho : ∀ t a c, o = .addToWait t a c → Granted s t a) :
    Inv (setGate s g o) := by
  refine ⟨hs.told, fun a => ?_, hs.own, hs.game⟩
  rw [setGate]
  dsimp only
  rcases eq_or_ne a g with rfl | ha
  · rw [Function.update_self]
    exact vouched_step (hs.gate a) o ho
  · rw [Function.update_of_ne ha]
    exact hs.gate a

theorem inv_setGame (hs : Inv s) (j : ℕ) {o : GameServer.Op} (ho : ∀ g t a c, o = .addUser g t a c → Granted s t a) :
    Inv (setGame s j o) := by
  obtain ⟨hown, hroster⟩ := GameServer.roster_step (s.game j) o (hs.own j)
  refine ⟨hs.told, hs.gate, fun a => ?_, fun a => ?_⟩ <;> rw [setGame] <;> dsimp only <;>
    rcases eq_or_ne a j with rfl | ha
  · rw [Function.update_self]
    exact hown
  · rw [Function.update_of_ne ha]
    exact hs.own a
  · rw [Function.update_self, hroster]
    exact seated_step (hs.game a) o ho
  · rw [Function.update_of_ne ha]
    exact hs.game a

theorem inv_login (hs : Inv s) (o : Login.Op) : Inv { s with login := Login.step cfg s.login o } := by
  have hkeeps := Login.keeps_step cfg s.login o
  have hgranted (t a : ℕ) (h : Granted s t a) : Granted { s with login := Login.step cfg s.login o } t a := by
    obtain ⟨u, conn, ht, hconn⟩ := h
    exact ⟨u, conn, ht, hkeeps.granted _ hconn⟩
  refine ⟨fun q data c hm => ?_, fun g => (hs.gate g).mono hgranted, hs.own,
    fun j t x hx => hgranted _ _ (hs.game j t x hx)⟩
  rcases hkeeps.toGate q data c hm with hm | ⟨conn, hconn⟩
  · exact hgranted _ _ (hs.told q data c hm)
  · exact ⟨data.transid, conn, rfl, hconn⟩

theorem inv_step (s : St) (op : Op) (hs : Inv s) : Inv (step cfg s op) := by
  cases op with
  | login o => exact inv_login cfg hs o
  | gate g o =>
    rw [step]
    split_ifs with hevent
    · refine inv_setGate hs g fun t a c ho => ?_
      rw [ho] at hevent
      exact absurd hevent Bool.false_ne_true
    · exact hs
  | game j o =>
    rw [step]
    split_ifs with hevent
    · refine inv_setGame hs j fun g t a c ho => ?_
      rw [ho] at hevent
      exact absurd hevent Bool.false_ne_true
    · exact hs
  | toGate g i =>
    rw [step]
    split
    · rename_i m hm
      refine inv_setGate hs g fun t a c ho => ?_
      obtain ⟨q, msg⟩ := m
      cases msg with
      | kickUser data => cases ho
      | userLogin data channel =>
        cases ho
        exact hs.told q data c (List.mem_of_getElem? hm)
    · exact hs
  | toGame j g i =>
    rw [step]
    split
    · rename_i m hm
      refine inv_setGame hs j fun g' t a c ho => ?_
      obtain ⟨gs, msg⟩ := m
      cases msg with
      | addUser t' a' channel =>
        cases ho
        exact (hs.gate g).sent gs t a c (List.mem_of_getElem? hm)
      | offlineUser t' => cases ho
      | removeUser t' => cases ho
    · exact hs

theorem inv_start (n onceListenCount : ℕ) (gsIdleMax : ℕ → ℕ) : Inv (start n onceListenCount gsIdleMax) where
  told _ _ _ h := absurd h List.not_mem_nil
  gate g := vouched_init (gsIdleMax g)
  own _ := GameServer.own_init
  game j t x h := by simp [start, GameServer.roster, GameServer.init] at h

/-! ## Runs -/

/-- the events of the login server -/
def logins (ops : List Op) : List Login.Op := ops.filterMap fun
  | .login o => some o
  | _ => none

theorem run_login (s : St) (ops : List Op) :
    (run (step cfg) s ops).login = run (Login.step cfg) s.login (logins ops) := by
  induction ops generalizing s with
  | nil => rfl
  | cons op ops ih =>
    rw [run_cons, ih]
    cases op with
    | login o => rfl
    | gate g o =>
      rw [step]
      split_ifs <;> rfl
    | game j o =>
      rw [step]
      split_ifs <;> rfl
    | toGate g i =>
      rw [step]
      split <;> rfl
    | toGame j g i =>
      rw [step]
      split <;> rfl

/-- **Authentic.** Whatever the network and the clients do, whoever has a session at a game server has the account with
which the database answered the check that the transaction id was made for. -/
theorem authentic (n onceListenCount : ℕ) (gsIdleMax : ℕ → ℕ) (ops : List Op) {j t : ℕ} {x : GameServer.Seat}
    (hx : GameServer.roster ((run (step cfg) (start n onceListenCount gsIdleMax) ops).game j) t = some x) :
    ∃ u conn, t = UInt32.toNat u ∧
      Login.Checked cfg (Login.create n onceListenCount) (logins ops) x.account u conn := by
  have hinv := inv_run_all (inv_step cfg) ops (inv_start n onceListenCount gsIdleMax)
  obtain ⟨u, conn, ht, hgranted⟩ := hinv.game j t x hx
  rw [run_login] at hgranted
  exact ⟨u, conn, ht, Login.checked_of_granted n onceListenCount (logins ops) hgranted⟩

/-- a client logs in, takes the id to the gate, and is added at the game server `2` -/
def enteredOps : List Op :=
  Login.askedOps.map .login ++ [.gate 7 (.gameRegister 3), .login (.dbDone 0 (some (5, 0)) true 1000), .toGate 7 0,
    .gate 7 (.accept 10), .gate 7 (.loginGame 10 (Login.annsId "10.0.0.1").toNat), .toGame 2 7 0]

theorem authentic_entered : ∃ u conn, (Login.annsId "10.0.0.1").toNat = UInt32.toNat u ∧
    Login.Checked Login.annsCfg (Login.create 1 1) (logins enteredOps) 5 u conn :=
  authentic Login.annsCfg 1 1 (fun _ => 100) enteredOps (j := 2) (x := ⟨5, 7, true⟩) (by decide +kernel)

end DreamHeroes.Link.Authentic

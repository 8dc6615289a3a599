/-
One gate, one game server and the channel between them: do they agree on who is online?

The gate's `toGame` is the channel. A gate event appends to it, `deliver` hands its oldest message to the game server.
What the game server will believe once the channel is drained is the settled roster: the abstract roster of the game
server run over the messages in flight. It changes only when the gate sends (`settled_send`); a delivery and the game
server's own events leave it alone (`settled_deliver`, `settled_game`). So agreement is an invariant of the gate's maps
and the settled roster, and when nothing is in flight it speaks of the game server itself.

The gate breaks it. The reconnect branch of `checkConn` sends nothing, while the disconnect before it has sent
`OfflineUser`: the player is back at the gate, and the game server drops every reply (`reconnect_stays_offline`). The
reconnect timer removes the player from the game server even if it has come back in the meantime.

- `agrees_step`: agreement is kept by every event that meets `Safe`.
- `online_agreement`: along such events it holds in every state in which nothing is in flight.
-/
import Mathlib.Tactic
import DreamHeroes.Gate.KickFinal
import DreamHeroes.GameServer.Roster

namespace DreamHeroes.Link

open DreamHeroes.Lib

/-! ## The system -/

structure St where
  gate : Gate.St
  game : GameServer.St

/-- the message as the game server handles it on the connection of the gate `gateId` -/
def toOp (gateId : ℕ) : Gate.GameMsg → GameServer.Op
  | .addUser t a c => .addUser gateId t a c
  | .offlineUser t => .offlineUser t
  | .removeUser t => .removeUser t

/-- the events of the login server, of the clients and of the timers; the game server stays connected -/
def clientEvent : Gate.Op → Bool
  | .changeGS .. | .gameRegister _ | .gameOnlines .. | .gameClose _ => false
  | _ => true

/-- the events of the game server that are no message of a gate -/
def ownEvent : GameServer.Op → Bool
  | .addUser .. | .removeUser _ | .offlineUser _ | .removeUserByGate _ => false
  | _ => true

inductive Op where
  | gate (o : Gate.Op)
  | deliver
  | game (o : GameServer.Op)
deriving DecidableEq, Repr

def step (gateId : ℕ) (s : St) : Op → St
  | .gate o => if clientEvent o then { s with gate := Gate.step s.gate o } else s
  | .deliver => match s.gate.toGame with
    | [] => s
    | e :: rest => { gate := { s.gate with toGame := rest }, game := GameServer.step s.game (toOp gateId e.2) }
  | .game o => if ownEvent o then { s with game := GameServer.step s.game o } else s

/-- the gate with the game server `g` connected, nobody logged in -/
def init (g gsIdleMax : ℕ) : St :=
  { gate := Gate.step (Gate.init gsIdleMax) (.gameRegister g), game := GameServer.init }

/-- gate and game server agree on who is online, whenever nothing is in flight -/
structure Agree (s : St) : Prop where
  online : s.gate.toGame = [] → ∀ t p : ℕ, s.gate.onlines[t]? = some p → (s.gate.sess p).state = .connect →
    ∃ q : ℕ, s.game.onlines[t]? = some q ∧ (s.game.sess q).state = .online
  gone : s.gate.toGame = [] → ∀ t : ℕ, s.gate.onlines[t]? = none → s.gate.reconMap[t]? = none →
    s.game.onlines[t]? = none

/-! ## The settled roster -/

/-- the roster of the game server once everything in flight has arrived -/
def settled (gateId : ℕ) (s : St) : GameServer.Roster :=
  run GameServer.Roster.step (GameServer.roster s.game) (s.gate.toGame.map fun e => toOp gateId e.2)

/-- what an event has to meet:
a login with a waiting id finds no session of another account; a login with a parked id finds a session that is online;
a connection that never logged in does not close while the id 0 is online; the reconnect timer does not fire on an id
that is online again -/
def Safe (gateId : ℕ) (s : St) : Op → Prop
  | .gate (.loginGame p t) =>
    (s.gate.sess p).state = .disable ∨ (s.gate.sess p).state = .connect ∨
      ((∀ v ∈ s.gate.waitMap[t]?, ∀ x ∈ settled gateId s t, x.account = v ∧ x.gate = gateId) ∧
        (s.gate.waitMap[t]? = none → s.gate.reconMap[t]? ≠ none → ∃ x ∈ settled gateId s t, x.online = true))
  | .gate (.onClose p) =>
    (s.gate.sess p).state = .connect ∨ s.gate.onlines[(s.gate.sess p).tranid]? = none ∨
      s.gate.reconMap[(s.gate.sess p).tranid]? ≠ none
  | .gate (.fireRemoveReconn t) =>
    t ∉ s.gate.reconTimers ∨ s.gate.onlines[t]? = none ∨ s.gate.reconMap[t]? = none
  | _ => True

instance (gateId : ℕ) (s : St) (o : Op) : Decidable (Safe gateId s o) := by
  rcases o with o | _ | o
  · cases o <;> simp only [Safe] <;> infer_instance
  · exact isTrue trivial
  · exact isTrue trivial

/-- the agreement of the maps `on` and `parked` of the gate with a roster -/
structure Agrees (on parked : ℕ → Option ℕ) (r : GameServer.Roster) : Prop where
  seated : ∀ t, on t ≠ none → ∃ x ∈ r t, x.online = true
  absent : ∀ t, on t = none → parked t = none → r t = none

section
variable {on parked on' parked' : ℕ → Option ℕ} {r : GameServer.Roster}

theorem Agrees.congr (h : Agrees on parked r) (ho : ∀ j, on' j = on j) (hp : ∀ j, parked' j = parked j) :
    Agrees on' parked' r := by
  obtain rfl : on' = on := funext ho
  obtain rfl : parked' = parked := funext hp
  exact h

/-- the id is neither online nor parked any more, and the game server is told to remove it -/
theorem Agrees.remove (h : Agrees on parked r) (t : ℕ) (hon : on' t = none) (ho : ∀ j, j ≠ t → on' j = on j)
    (hp : ∀ j, j ≠ t → parked' j = parked j) : Agrees on' parked' (r.remove t) where
  seated j hj := by
    have hjt : j ≠ t := fun e => hj (e ▸ hon)
    rw [GameServer.Roster.remove, Function.update_of_ne hjt]
    exact h.seated j (ho j hjt ▸ hj)
  absent j hj hpj := by
    rw [GameServer.Roster.remove, Function.update_apply]
    split_ifs with e
    · rfl
    · exact h.absent j (ho j e ▸ hj) (hp j e ▸ hpj)

/-- the id goes online, and the game server is told to seat it -/
theorem Agrees.add (h : Agrees on parked r) (g t a : ℕ) (hsame : ∀ x ∈ r t, x.account = a ∧ x.gate = g)
    (ht : on' t ≠ none) (ho : ∀ j, j ≠ t → on' j = on j) (hp : ∀ j, parked' j = parked j) :
    Agrees on' parked' (r.add g t a) where
  seated j hj := by
    rw [GameServer.Roster.add, Function.update_apply]
    split_ifs with e
    · cases hr : r t with
      | none => exact ⟨_, rfl, rfl⟩
      | some x =>
        obtain ⟨hacc, hgate⟩ := hsame x hr
        exact ⟨_, rfl, by simp [hacc, hgate]⟩
    · exact h.seated j (ho j e ▸ hj)
  absent j hj hpj := by
    have hjt : j ≠ t := fun e => ht (e ▸ hj)
    rw [GameServer.Roster.add, Function.update_of_ne hjt]
    exact h.absent j (ho j hjt ▸ hj) (hp j ▸ hpj)

/-- the id is parked, and the game server is told that it is offline -/
theorem Agrees.offline (h : Agrees on parked r) (t : ℕ) (hon : on' t = none) (ht : parked' t ≠ none)
    (ho : ∀ j, j ≠ t → on' j = on j) (hp : ∀ j, j ≠ t → parked' j = parked j) : Agrees on' parked' (r.offline t) where
  seated j hj := by
    have hjt : j ≠ t := fun e => hj (e ▸ hon)
    rw [GameServer.Roster.offline, Function.update_of_ne hjt]
    exact h.seated j (ho j hjt ▸ hj)
  absent j hj hpj := by
    have hjt : j ≠ t := fun e => ht (e ▸ hpj)
    rw [GameServer.Roster.offline, Function.update_of_ne hjt]
    exact h.absent j (ho j hjt ▸ hj) (hp j hjt ▸ hpj)

/-- the id leaves the parked ids with its seat online, and the game server is told nothing -/
theorem Agrees.unpark (h : Agrees on parked r) (t : ℕ) (hseat : ∃ x ∈ r t, x.online = true) (ht : on' t ≠ none)
    (ho : ∀ j, j ≠ t → on' j = on j) (hp : ∀ j, j ≠ t → parked' j = parked j) : Agrees on' parked' r where
  seated j hj := by
    by_cases e : j = t
    · exact e ▸ hseat
    · exact h.seated j (ho j e ▸ hj)
  absent j hj hpj := by
    have hjt : j ≠ t := fun e => ht (e ▸ hj)
    exact h.absent j (ho j hjt ▸ hj) (hp j hjt ▸ hpj)

end

/-! ## The gate with one game server -/

structure GateInv (g : ℕ) (s : Gate.St) : Prop where
  games : s.activeGames = (∅ : Std.TreeMap ℕ ℕ).insert g 0
  playing : ∀ p, (s.sess p).state = .connect → (s.sess p).gsId = g
  idle : ∀ p, (s.sess p).state ≠ .connect → (s.sess p).tranid = 0 ∧ (s.sess p).gsId = 0
  online : ∀ t p : ℕ, s.onlines[t]? = some p → (s.sess p).state = .connect ∧ (s.sess p).tranid = t
  parked : ∀ t x : ℕ, s.reconMap[t]? = some x → x = g
  wait : Gate.WaitInv s

theorem GateInv.active {g : ℕ} {s : Gate.St} (h : GateInv g s) (hg : 0 < g ∧ g < Gate.maxGameId) :
    (Gate.getGameClient s g).isSome := by
  have hg' : Gate.invalidGameId < g ∧ g < Gate.maxGameId := hg
  rw [Gate.getGameClient, if_pos hg', h.games, get_insert, if_pos rfl]
  rfl

/-- the connected game server is the idle one -/
theorem GateInv.idleGame {g : ℕ} {s : Gate.St} (h : GateInv g s) : Gate.getIdleGameClient s = some g := by
  have hlist : s.activeGames.toList = [(g, 0)] := by rw [h.games]; rfl
  simp only [Gate.getIdleGameClient, hlist, Gate.idleLoop]
  split_ifs <;> rfl

/-- the maps may lose entries, the sessions keep what the invariant reads -/
theorem GateInv.mono {g : ℕ} {s s' : Gate.St} (h : GateInv g s) (hg : s'.activeGames = s.activeGames)
    (hs : ∀ p, (s'.sess p).state = (s.sess p).state ∧ (s'.sess p).tranid = (s.sess p).tranid ∧
      (s'.sess p).gsId = (s.sess p).gsId)
    (ho : ∀ t p : ℕ, s'.onlines[t]? = some p → s.onlines[t]? = some p)
    (hr : ∀ t x : ℕ, s'.reconMap[t]? = some x → s.reconMap[t]? = some x) (hw : Gate.WaitInv s') : GateInv g s' where
  games := hg.trans h.games
  playing p hp := by
    rw [(hs p).2.2]
    exact h.playing p ((hs p).1 ▸ hp)
  idle p hp := by
    rw [(hs p).2.1, (hs p).2.2]
    exact h.idle p ((hs p).1 ▸ hp)
  online t p hp := by
    rw [(hs p).1, (hs p).2.1]
    exact h.online t p (ho t p hp)
  parked t x hx := h.parked t x (hr t x hx)
  wait := hw

theorem gateInv_kickUser {g : ℕ} {s : Gate.St} (h : GateInv g s) (t a : ℕ) : GateInv g (Gate.kickUser s t a) := by
  have hsub : (Gate.kickUser s t a).activeGames = s.activeGames ∧ (Gate.kickUser s t a).sess = s.sess := by
    cases ho : s.onlines[t]? with
    | some p => rw [Gate.kickUser_online ho]; exact ⟨rfl, rfl⟩
    | none =>
      simp only [Gate.kickUser, ho]
      split <;> exact ⟨rfl, rfl⟩
  refine h.mono hsub.1 (fun p => by rw [hsub.2]; exact ⟨rfl, rfl, rfl⟩) ?_ ?_
    (Gate.waitInv_kickUser h.wait t a)
  · intro j p hj
    rw [Gate.kickUser_onlines] at hj
    split_ifs at hj
    exact hj
  · intro j x hj
    rw [Gate.kickUser_reconMap] at hj
    split_ifs at hj
    exact hj

/-- a session that is not online anywhere and does not play afterwards -/
theorem gateInv_idle {g : ℕ} {s : Gate.St} (h : GateInv g s) (p : ℕ) (f : Gate.UserSession → Gate.UserSession)
    (hp : ∀ t : ℕ, s.onlines[t]? ≠ some p)
    (hf : (f (s.sess p)).state ≠ .connect ∧ (f (s.sess p)).tranid = 0 ∧ (f (s.sess p)).gsId = 0) :
    GateInv g (s.modSess p f) := by
  have hself : (s.modSess p f).sess p = f (s.sess p) := by simp [Gate.St.modSess]
  have hother : ∀ q, q ≠ p → (s.modSess p f).sess q = s.sess q := fun q hq => by simp [Gate.St.modSess, hq]
  refine ⟨h.games, ?_, ?_, ?_, h.parked, Gate.waitInv_modSess h.wait p _⟩
  · intro q hq
    by_cases e : q = p
    · rw [e, hself] at hq
      exact absurd hq hf.1
    · rw [hother q e] at hq ⊢
      exact h.playing q hq
  · intro q hq
    by_cases e : q = p
    · rw [e, hself]
      exact hf.2
    · rw [hother q e] at hq ⊢
      exact h.idle q hq
  · intro t q hq
    have e : q ≠ p := fun e => hp t (e ▸ hq)
    rw [hother q e]
    exact h.online t q hq

/-- a session that is not playing changes its state, but does not start to play -/
theorem gateInv_setState {g : ℕ} {s : Gate.St} (h : GateInv g s) (p : ℕ) (x : Gate.SessionState)
    (hp : (s.sess p).state ≠ .connect) (hx : x ≠ .connect) : GateInv g (s.modSess p (·.setState x)) := by
  obtain ⟨ht, hgs⟩ := h.idle p hp
  apply gateInv_idle h p _ (fun t ht => hp (h.online t p ht).1)
  cases x with
  | connect => exact absurd rfl hx
  | disable => exact ⟨nofun, rfl, rfl⟩
  | waitAccount => exact ⟨nofun, ht, hgs⟩
  | waitClose => exact ⟨nofun, ht, hgs⟩

/-- a login passes: the session `p` plays on `g` under `t` -/
theorem gateInv_pass {g : ℕ} {s s' : Gate.St} (h : GateInv g s) {t p : ℕ} (hp : (s.sess p).state ≠ .connect)
    (hg : s'.activeGames = s.activeGames) (ho : s'.onlines = s.onlines.insertIfNew t p)
    (hs : s'.sess = Function.update s.sess p { s.sess p with gsId := g, state := .connect, tranid := t })
    (hr : ∀ j x : ℕ, s'.reconMap[j]? = some x → s.reconMap[j]? = some x) (hw : Gate.WaitInv s') : GateInv g s' := by
  refine ⟨hg.trans h.games, ?_, ?_, ?_, fun j x hx => h.parked j x (hr j x hx),
    hw⟩
  · intro q hq
    by_cases e : q = p
    · simp [hs, e]
    · simp only [hs, Function.update_of_ne e] at hq ⊢
      exact h.playing q hq
  · intro q hq
    by_cases e : q = p
    · simp [hs, e] at hq
    · simp only [hs, Function.update_of_ne e] at hq ⊢
      exact h.idle q hq
  · intro j q hq
    rw [ho, get_insertIfNew] at hq
    split_ifs at hq with e
    · obtain rfl := Option.some.inj hq
      simp [hs, e.1]
    · have hqp : q ≠ p := fun e' => hp (e' ▸ (h.online j q hq).1)
      rw [hs, Function.update_of_ne hqp]
      exact h.online j q hq

theorem addToWait_frame (s : Gate.St) (t a : ℕ) (c : ℤ) :
    (Gate.addToWait s t a c).activeGames = s.activeGames ∧
      ∀ p, ((Gate.addToWait s t a c).sess p).state = (s.sess p).state ∧
        ((Gate.addToWait s t a c).sess p).tranid = (s.sess p).tranid ∧
        ((Gate.addToWait s t a c).sess p).gsId = (s.sess p).gsId := by
  cases ho : s.onlines[t]? with
  | none => simp [Gate.addToWait, ho]
  | some p =>
    have ho' : (s.modSess p fun u => { u with channel := c }).onlines[t]? = some p := ho
    simp only [Gate.addToWait, ho, Gate.kickUser_online ho']
    refine ⟨rfl, ?_⟩
    intro q
    by_cases e : q = p
    · subst e; simp [Gate.removePlayer, Gate.sendActive, Gate.St.modSess]
    · simp [Gate.removePlayer, Gate.sendActive, Gate.St.modSess, e]

theorem checkClose_frame (s : Gate.St) (p : ℕ) :
    (Gate.checkClose s p).activeGames = s.activeGames ∧ (Gate.checkClose s p).sess = s.sess := by
  simp only [Gate.checkClose]
  split_ifs <;> exact ⟨rfl, rfl⟩

theorem gateInv_onClose {g : ℕ} {s : Gate.St} (h : GateInv g s) (p : ℕ) : GateInv g (Gate.onClose s p) := by
  have hon : (Gate.checkClose s p).onlines = s.onlines.erase (s.sess p).tranid := Gate.onClose_onlines s p
  have hwm := Gate.onClose_waits s p
  have hsub : ∀ j q : ℕ, (Gate.checkClose s p).onlines[j]? = some q →
      j ≠ (s.sess p).tranid ∧ s.onlines[j]? = some q := by
    intro j q hq
    rw [hon, get_erase] at hq
    split_ifs at hq with e
    exact ⟨e, hq⟩
  have hwait : Gate.WaitInv (Gate.checkClose s p) :=
    Gate.waitInv_eraseOnline h.wait (fun j => by rw [hon, get_erase]; split_ifs <;> simp) hwm.1 hwm.2
  have hclose : GateInv g (Gate.checkClose s p) := by
    obtain ⟨hgames, hsess⟩ := checkClose_frame s p
    refine ⟨hgames.trans h.games, ?_, ?_, ?_, ?_, hwait⟩
    · intro q hq
      rw [hsess] at hq ⊢
      exact h.playing q hq
    · intro q hq
      rw [hsess] at hq ⊢
      exact h.idle q hq
    · intro j q hq
      rw [hsess]
      exact h.online j q (hsub j q hq).2
    · intro j x hx
      have hrec := Gate.onClose_reconMap s p j
      have hx' : (Gate.onClose s p).reconMap[j]? = some x := hx
      rw [hx'] at hrec
      split_ifs at hrec with e
      · exact (Option.some.inj hrec).trans (h.playing p e.1.2.1)
      · exact h.parked j x hrec.symm
  refine gateInv_idle hclose p _ ?_ ⟨nofun, rfl, rfl⟩
  intro j hj
  obtain ⟨hne, hq⟩ := hsub j p hj
  exact hne (h.online j p hq).2.symm

theorem gateInv_step {g : ℕ} (hg : 0 < g ∧ g < Gate.maxGameId) (s : Gate.St) (o : Gate.Op)
    (ho : clientEvent o = true) (h : GateInv g s) : GateInv g (Gate.step s o) := by
  have hwait := Gate.waitInv_step s o h.wait
  cases o with
  | accept p =>
    simp only [Gate.step]
    split_ifs with hd
    · exact gateInv_setState h p _ (by simp [hd]) (by decide)
    · exact h
  | addToWait t a c =>
    refine h.mono ?_ ?_ ?_ ?_ hwait
    · exact (addToWait_frame s t a c).1
    · intro p
      exact (addToWait_frame s t a c).2 p
    · intro j p hj
      rw [Gate.step, Gate.addToWait_onlines] at hj
      split_ifs at hj
      exact hj
    · intro j x hj
      rwa [Gate.step, Gate.addToWait_reconMap] at hj
  | kickUser t a => exact gateInv_kickUser h t a
  | loginGame p t =>
    simp only [Gate.step] at hwait ⊢
    split_ifs at hwait ⊢ with hd
    · exact h
    · rcases Gate.parseLoginGame_cases s p t with ⟨e, -⟩ | ⟨e, hc, -⟩ | ⟨e, hc, -⟩ | ⟨v, gs, e, hc, hw, hgs⟩ |
          ⟨gs, e, hc, hw, hr⟩ <;>
        rw [e] at hwait ⊢
      · exact h
      · have hr : GateInv g (Gate.eventCallRemoveWait s t) :=
          h.mono rfl (fun _ => ⟨rfl, rfl, rfl⟩) (fun _ _ hj => hj) (fun _ _ hj => hj) (Gate.waitInv_removeWait h.wait t)
        exact gateInv_setState hr p _ hc (by decide)
      · exact gateInv_setState h p _ hc (by decide)
      · obtain rfl : gs = g := Option.some.inj (hgs.symm.trans h.idleGame)
        exact gateInv_pass h hc rfl rfl rfl (fun j x hx => hx) hwait
      · obtain rfl := h.parked t gs hr
        refine gateInv_pass h hc rfl rfl rfl ?_ hwait
        intro j x hx
        simp only [Gate.passRecon, get_erase] at hx
        split_ifs at hx
        exact hx
  | onClose p =>
    simp only [Gate.step] at hwait ⊢
    split_ifs at hwait ⊢ with hd
    · exact h
    · exact gateInv_onClose h p
  | fireRemoveWait t =>
    simp only [Gate.step] at hwait ⊢
    split_ifs at hwait ⊢
    · exact h.mono rfl (fun _ => ⟨rfl, rfl, rfl⟩) (fun _ _ hj => hj) (fun _ _ hj => hj) hwait
    · exact h
  | fireRemoveReconn t =>
    simp only [Gate.step, Gate.eventCallRemoveReconn] at hwait ⊢
    split_ifs at hwait ⊢
    · refine h.mono rfl (fun _ => ⟨rfl, rfl, rfl⟩) (fun _ _ hj => hj) ?_ hwait
      intro j x hx
      simp only [Gate.removePlayer, Gate.sendActive, get_erase] at hx
      split_ifs at hx
      exact hx
    · refine h.mono rfl (fun _ => ⟨rfl, rfl, rfl⟩) (fun _ _ hj => hj) ?_ hwait
      intro j x hx
      simp only [get_erase] at hx
      split_ifs at hx
      exact hx
    · exact h
  | _ => exact absurd ho Bool.false_ne_true

/-! ## Agreement, one event at a time -/

/-- the maps of the gate and the settled roster agree -/
def Settled (gateId : ℕ) (s : St) : Prop :=
  Agrees (fun t => s.gate.onlines[t]?) (fun t => s.gate.reconMap[t]?) (settled gateId s)

/-- a send is seen at the end of the settled roster -/
theorem settled_send (gateId : ℕ) (s : St) (gate' : Gate.St) (x : ℕ) (m : Gate.GameMsg)
    (h : gate'.toGame = s.gate.toGame ++ [(x, m)]) :
    settled gateId { s with gate := gate' } = (settled gateId s).step (toOp gateId m) := by
  simp only [settled, h, List.map_append, List.map_cons, List.map_nil, run_snoc]

theorem settled_quiet (gateId : ℕ) (s : St) (gate' : Gate.St) (h : gate'.toGame = s.gate.toGame) :
    settled gateId { s with gate := gate' } = settled gateId s := by
  simp only [settled, h]

/-- a delivery moves a message from the channel into the roster -/
theorem settled_deliver (gateId : ℕ) (s : St) (h : GameServer.Own s.game) :
    settled gateId (step gateId s .deliver) = settled gateId s ∧ GameServer.Own (step gateId s .deliver).game := by
  cases hc : s.gate.toGame with
  | nil => simp only [step, hc]; exact ⟨trivial, h⟩
  | cons e rest =>
    obtain ⟨hown, hroster⟩ := GameServer.roster_step s.game (toOp gateId e.2) h
    simp only [step, hc]
    refine ⟨?_, hown⟩
    simp only [settled, hc, List.map_cons, run_cons, hroster]

/-- the replies of the database, the clients and the timers of the game server do not touch it -/
theorem settled_game (gateId : ℕ) (s : St) (o : GameServer.Op) (h : GameServer.Own s.game) :
    settled gateId (step gateId s (.game o)) = settled gateId s ∧
      GameServer.Own (step gateId s (.game o)).game := by
  simp only [step]
  split_ifs with ho
  · have e : GameServer.SameSeats s.game (GameServer.step s.game o) :=
      GameServer.same_internal s.game o (by cases o <;> trivial)
    exact ⟨by simp only [settled, e.roster], e.own h⟩
  · exact ⟨rfl, h⟩

section
variable {gateId g : ℕ} {s : St}

/-- the gate tells the game server to remove `t`, which is neither online nor parked from now on -/
theorem settled_remove (h : Settled gateId s) (gate' : Gate.St) (x t : ℕ)
    (hsend : gate'.toGame = s.gate.toGame ++ [(x, .removeUser t)]) (hon : gate'.onlines[t]? = none)
    (ho : ∀ j, j ≠ t → gate'.onlines[j]? = s.gate.onlines[j]?)
    (hp : ∀ j, j ≠ t → gate'.reconMap[j]? = s.gate.reconMap[j]?) : Settled gateId { s with gate := gate' } := by
  rw [Settled, settled_send gateId s gate' x _ hsend]
  exact h.remove t hon ho hp

theorem agrees_kickUser (hg : 0 < g ∧ g < Gate.maxGameId) (hi : GateInv g s.gate) (h : Settled gateId s) (t a : ℕ) :
    Settled gateId { s with gate := Gate.kickUser s.gate t a } := by
  cases ho : s.gate.onlines[t]? with
  | some p =>
    have hact : (Gate.getGameClient s.gate (s.gate.sess p).gsId).isSome := by
      rw [hi.playing p (hi.online t p ho).1]
      exact hi.active hg
    apply settled_remove h _ (s.gate.sess p).gsId t
    · rw [Gate.kickUser_online ho]
      simp only [Gate.removePlayer, Gate.sendActive, hact, if_true]
    · rw [Gate.kickUser_onlines, if_pos rfl]
    · intro j hj
      rw [Gate.kickUser_onlines, if_neg hj]
    · intro j hj
      rw [Gate.kickUser_reconMap, if_neg fun e => hj e.1]
  | none =>
    cases hr : s.gate.reconMap[t]? with
    | some x =>
      have hact : (Gate.getGameClient s.gate x).isSome := by
        rw [hi.parked t x hr]
        exact hi.active hg
      apply settled_remove h _ x t
      · have hact' : ∀ m n o r, (Gate.getGameClient { s.gate with
            waitMap := m, waitMapChannel := n, onlineaccs := o, reconMap := r } x).isSome := fun _ _ _ _ => hact
        simp only [Gate.kickUser, ho, hr, Gate.removePlayer, Gate.sendActive, hact', if_true]
      · rw [Gate.kickUser_onlines, if_pos rfl]
      · intro j hj
        rw [Gate.kickUser_onlines, if_neg hj]
      · intro j hj
        rw [Gate.kickUser_reconMap, if_neg fun e => hj e.1]
    | none =>
      rw [Settled, settled_quiet gateId s _ (by simp only [Gate.kickUser, ho, hr])]
      apply h.congr
      · intro j
        rw [Gate.kickUser_onlines]
        split_ifs with e
        · rw [e, ho]
        · rfl
      · intro j
        rw [Gate.kickUser_reconMap]
        split_ifs with e
        · rw [e.1, hr]
        · rfl

theorem agrees_addToWait (hg : 0 < g ∧ g < Gate.maxGameId) (hi : GateInv g s.gate) (h : Settled gateId s) (t a : ℕ)
    (c : ℤ) : Settled gateId { s with gate := Gate.addToWait s.gate t a c } := by
  cases ho : s.gate.onlines[t]? with
  | some p =>
    have ho' : (s.gate.modSess p fun u => { u with channel := c }).onlines[t]? = some p := ho
    have hact : ∀ u : Gate.UserSession, u.gsId = (s.gate.sess p).gsId →
        (Gate.getGameClient (s.gate.modSess p fun u => { u with channel := c }) u.gsId).isSome := by
      intro u hu
      rw [hu, hi.playing p (hi.online t p ho).1]
      exact hi.active hg
    apply settled_remove h _ (s.gate.sess p).gsId t
    · have hgs : ((s.gate.modSess p fun u => { u with channel := c }).sess p).gsId = (s.gate.sess p).gsId := by
        simp [Gate.St.modSess]
      simp only [Gate.addToWait, ho, Gate.kickUser_online ho', Gate.removePlayer, Gate.sendActive, hgs,
        hact (s.gate.sess p) rfl, if_true]
      rfl
    · rw [Gate.addToWait_onlines, if_pos rfl]
    · intro j hj
      rw [Gate.addToWait_onlines, if_neg hj]
    · intro j hj
      rw [Gate.addToWait_reconMap]
  | none =>
    rw [Settled, settled_quiet gateId s _ (by simp only [Gate.addToWait, ho])]
    apply h.congr
    · intro j
      rw [Gate.addToWait_onlines]
      split_ifs with e
      · rw [e, ho]
      · rfl
    · intro j
      rw [Gate.addToWait_reconMap]

theorem agrees_loginGame (hi : GateInv g s.gate) (h : Settled gateId s) (p t : ℕ)
    (hd : (s.gate.sess p).state ≠ .disable) (hsafe : Safe gateId s (.gate (.loginGame p t))) :
    Settled gateId { s with gate := Gate.parseLoginGame s.gate p t } := by
  rcases Gate.parseLoginGame_cases s.gate p t with ⟨e, -⟩ | ⟨e, -⟩ | ⟨e, -⟩ | ⟨v, gs, e, hc, hw, -⟩ |
    ⟨gs, e, hc, hw, hr⟩ <;> rw [e]
  · exact h
  · exact h
  · exact h
  · -- the id was waiting: the game server is told to add it
    obtain ⟨hsame, -⟩ := (hsafe.resolve_left hd).resolve_left hc
    have hon : s.gate.onlines[t]? = none := (hi.wait.onWait t).resolve_right (by simp [hw])
    have hins : ∀ j : ℕ, (Gate.passWait s.gate t p v gs).onlines[j]? =
        if j = t then some p else s.gate.onlines[j]? := by
      intro j
      simp only [Gate.passWait, get_insertIfNew, hon, and_true]
    rw [Settled, settled_send gateId s _ gs _ rfl]
    exact h.add gateId t v (hsame v hw) (by rw [hins, if_pos rfl]; exact Option.some_ne_none p)
      (fun j hj => by rw [hins, if_neg hj]) fun j => rfl
  · -- the id was parked: nothing is sent
    obtain ⟨-, hseat⟩ := (hsafe.resolve_left hd).resolve_left hc
    rw [Settled, settled_quiet gateId s (Gate.passRecon s.gate t p gs) rfl]
    apply h.unpark t (hseat hw (by simp [hr]))
    · simp only [Gate.passRecon, get_insertIfNew, true_and]
      split_ifs with hon
      · exact Option.some_ne_none p
      · exact hon
    · intro j hj
      simp only [Gate.passRecon, get_insertIfNew, hj, false_and, if_false]
    · intro j hj
      simp only [Gate.passRecon, get_erase, hj, if_false]

theorem agrees_onClose (hg : 0 < g ∧ g < Gate.maxGameId) (hi : GateInv g s.gate) (h : Settled gateId s) (p : ℕ)
    (hsafe : Safe gateId s (.gate (.onClose p))) : Settled gateId { s with gate := Gate.onClose s.gate p } := by
  set t := (s.gate.sess p).tranid with ht
  have hon : ∀ j : ℕ, (Gate.onClose s.gate p).onlines[j]? = if j = t then none else s.gate.onlines[j]? := by
    intro j
    rw [Gate.onClose_onlines, get_erase]
  have hrec := Gate.onClose_reconMap s.gate p
  by_cases hc : (s.gate.sess p).state = .connect
  · -- a player: parked, and the game server is told
    have hact : (Gate.getGameClient s.gate (s.gate.sess p).gsId).isSome := by
      rw [hi.playing p hc]
      exact hi.active hg
    have hact' : (Gate.getGameClient { s.gate with onlines := s.gate.onlines.erase t }
      (s.gate.sess p).gsId).isSome := hact
    rw [Settled, settled_send gateId s _ (s.gate.sess p).gsId (.offlineUser t) (by
      simp only [Gate.onClose, Gate.checkClose, ← ht, hact', hc, and_self, if_true, Gate.offlinePlayer, Gate.sendGame,
        Gate.St.modSess])]
    refine h.offline t (by rw [hon, if_pos rfl]) ?_ (fun j hj => by rw [hon, if_neg hj]) ?_
    · rw [hrec]
      split_ifs with e
      · exact Option.some_ne_none _
      · exact fun e' => e ⟨⟨ht.symm ▸ rfl, hc, hact⟩, e'⟩
    · intro j hj
      rw [hrec, if_neg fun e => hj e.1.1]
  · -- a connection that never logged in: its id is 0
    obtain ⟨-, hgs⟩ := hi.idle p hc
    have hclosed : ∀ m, Gate.getGameClient { s.gate with onlines := m } 0 = none := fun m => by
      simp [Gate.getGameClient, Gate.invalidGameId]
    have hclosed' : ∀ m n, Gate.getGameClient { s.gate with onlines := m, onlineaccs := n } 0 = none := fun m n => by
      simp [Gate.getGameClient, Gate.invalidGameId]
    rw [Settled, settled_quiet gateId s _ (by
      simp only [Gate.onClose, Gate.checkClose, hgs, hclosed, Option.isSome_none, Bool.false_eq_true, false_and,
        if_false, Gate.removePlayer, Gate.sendActive, hclosed', Gate.St.modSess])]
    have hrec' : ∀ j : ℕ, (Gate.onClose s.gate p).reconMap[j]? = s.gate.reconMap[j]? := fun j => by
      rw [hrec, if_neg fun e => hc e.1.2.1]
    rcases hsafe.resolve_left hc with hnone | hparked
    · refine h.congr ?_ hrec'
      intro j
      rw [hon]
      split_ifs with e
      · rw [e, ← hnone]
      · rfl
    · refine ⟨?_, ?_⟩
      · intro j hj
        refine h.seated j fun hj' => hj ?_
        rw [hon, hj', ite_self]
      · intro j hj hpj
        rw [hrec'] at hpj
        have hjt : j ≠ t := fun e => hparked (by rw [← ht, ← e]; exact hpj)
        rw [hon, if_neg hjt] at hj
        exact h.absent j hj hpj

theorem agrees_removeReconn (hg : 0 < g ∧ g < Gate.maxGameId) (hi : GateInv g s.gate) (h : Settled gateId s) (t : ℕ)
    (hsafe : s.gate.onlines[t]? = none ∨ s.gate.reconMap[t]? = none) :
    Settled gateId { s with gate := Gate.eventCallRemoveReconn s.gate t } := by
  cases hr : s.gate.reconMap[t]? with
  | none =>
    have hq : (Gate.eventCallRemoveReconn s.gate t).toGame = s.gate.toGame := by
      simp [Gate.eventCallRemoveReconn, hr]
    rw [Settled, settled_quiet gateId s _ hq]
    apply h.congr
    · intro j
      simp only [Gate.eventCallRemoveReconn]
      split_ifs <;> rfl
    · intro j
      have : (Gate.eventCallRemoveReconn s.gate t).reconMap = s.gate.reconMap.erase t := by
        simp only [Gate.eventCallRemoveReconn]
        split_ifs <;> rfl
      simp only [this, get_erase]
      split_ifs with e
      · rw [e, hr]
      · rfl
  | some x =>
    have hx : x = g := hi.parked t x hr
    have hx0 : x ≠ Gate.invalidGameId := by rw [hx]; exact hg.1.ne'
    have hact : ∀ m n, (Gate.getGameClient { s.gate with reconMap := m, onlineaccs := n } x).isSome := by
      intro m n
      rw [hx]
      exact hi.active hg
    have hon : s.gate.onlines[t]? = none := hsafe.resolve_right (by simp [hr])
    have hstate : (Gate.eventCallRemoveReconn s.gate t) = { s.gate with
        reconMap := s.gate.reconMap.erase t
        onlineaccs := eraseVal s.gate.onlineaccs t
        toGame := s.gate.toGame ++ [(x, .removeUser t)] } := by
      simp only [Gate.eventCallRemoveReconn, hr, Option.getD_some, ne_eq, hx0, not_false_eq_true, if_true,
        Gate.removePlayer, Gate.sendActive, hact]
    rw [hstate]
    refine settled_remove h _ x t rfl hon (fun j _ => rfl) ?_
    intro j hj
    rw [get_erase, if_neg hj]

end

/-! ## Runs -/

structure SysInv (gateId g : ℕ) (s : St) : Prop where
  gate : GateInv g s.gate
  own : GameServer.Own s.game
  agrees : Settled gateId s

theorem sysInv_init (gateId g n : ℕ) (hg : 0 < g ∧ g < Gate.maxGameId) : SysInv gateId g (init g n) := by
  have hreg : (init g n).gate = { gsIdleMax := n, activeGames := (∅ : Std.TreeMap ℕ ℕ).insert g 0 } := by
    simp only [init, Gate.step, Gate.init]
    exact if_pos hg
  refine ⟨⟨by rw [hreg], ?_, ?_, ?_, ?_, ?_⟩, GameServer.own_init, ⟨?_, ?_⟩⟩
  · simp [hreg]
  · simp [hreg, Gate.invalidTransId, Gate.invalidGameId]
  · simp [hreg]
  · simp [hreg]
  · rw [hreg]; exact Gate.waitInv_congr (s := Gate.init n) rfl rfl rfl (Gate.waitInv_init n)
  · simp [hreg]
  · intro t _ _
    simp only [settled, hreg, List.map_nil, run_nil]
    rfl

/-- **One event.** -/
theorem sysInv_step (gateId g : ℕ) (hg : 0 < g ∧ g < Gate.maxGameId) (s : St) (o : Op) (h : SysInv gateId g s)
    (hsafe : Safe gateId s o) : SysInv gateId g (step gateId s o) := by
  cases o with
  | deliver =>
    obtain ⟨hset, hown⟩ := settled_deliver gateId s h.own
    have hgate : GateInv g (step gateId s .deliver).gate ∧
        (step gateId s .deliver).gate.onlines = s.gate.onlines ∧
        (step gateId s .deliver).gate.reconMap = s.gate.reconMap := by
      simp only [step]
      split
      · exact ⟨h.gate, rfl, rfl⟩
      · exact ⟨h.gate.mono rfl (fun _ => ⟨rfl, rfl, rfl⟩) (fun _ _ hj => hj) (fun _ _ hj => hj)
          (Gate.waitInv_congr (s := s.gate) rfl rfl rfl h.gate.wait), rfl, rfl⟩
    refine ⟨hgate.1, hown, ?_⟩
    rw [Settled, hset, hgate.2.1, hgate.2.2]
    exact h.agrees
  | game o =>
    obtain ⟨hset, hown⟩ := settled_game gateId s o h.own
    have hgate : (step gateId s (.game o)).gate = s.gate := by
      simp only [step]
      split_ifs <;> rfl
    refine ⟨hgate ▸ h.gate, hown, ?_⟩
    rw [Settled, hset, hgate]
    exact h.agrees
  | gate o =>
    by_cases ho : clientEvent o = true
    · simp only [step, ho, if_true]
      refine ⟨gateInv_step hg s.gate o ho h.gate, h.own, ?_⟩
      cases o with
      | accept p =>
        simp only [Gate.step]
        split_ifs
        · exact h.agrees
        · exact h.agrees
      | addToWait t a c => exact agrees_addToWait hg h.gate h.agrees t a c
      | kickUser t a => exact agrees_kickUser hg h.gate h.agrees t a
      | loginGame p t =>
        simp only [Gate.step]
        split_ifs with hd
        · exact h.agrees
        · exact agrees_loginGame h.gate h.agrees p t hd hsafe
      | onClose p =>
        simp only [Gate.step]
        split_ifs
        · exact h.agrees
        · exact agrees_onClose hg h.gate h.agrees p hsafe
      | fireRemoveWait t =>
        simp only [Gate.step]
        split_ifs
        · exact h.agrees
        · exact h.agrees
      | fireRemoveReconn t =>
        simp only [Gate.step]
        split_ifs with ht
        · have hi : GateInv g { s.gate with reconTimers := s.gate.reconTimers.erase t } :=
            h.gate.mono rfl (fun _ => ⟨rfl, rfl, rfl⟩) (fun _ _ hj => hj) (fun _ _ hj => hj)
              (Gate.waitInv_congr (s := s.gate) rfl rfl rfl h.gate.wait)
          exact agrees_removeReconn (s := { s with gate := { s.gate with reconTimers := s.gate.reconTimers.erase t } })
            hg hi h.agrees t (hsafe.resolve_left (not_not.2 ht))
        · exact h.agrees
      | _ => exact absurd ho Bool.false_ne_true
    · simp only [step, ho]
      exact h

/-- with nothing in flight the settled roster is the roster of the game server -/
theorem SysInv.agree {gateId g : ℕ} {s : St} (h : SysInv gateId g s) : Agree s := by
  have hset : s.gate.toGame = [] → settled gateId s = GameServer.roster s.game := fun e => by
    simp only [settled, e, List.map_nil, run_nil]
  refine ⟨?_, ?_⟩
  · intro he t p hp _
    obtain ⟨x, hx, hon⟩ := h.agrees.seated t (by simp [hp])
    rw [hset he] at hx
    obtain ⟨q, hq, rfl⟩ := Option.map_eq_some_iff.1 hx
    exact ⟨q, hq, by simpa [GameServer.seat] using hon⟩
  · intro he t ht hr
    have hnone := h.agrees.absent t ht hr
    rw [hset he] at hnone
    exact Option.map_eq_none_iff.1 hnone

/-- **Agreement on who is online.** If every event of a run meets `Safe`, gate and game server agree in every state it
reaches in which nothing is in flight. -/
theorem online_agreement (gateId g n : ℕ) (hg : 0 < g ∧ g < Gate.maxGameId) (ops : List Op)
    (hops : Along (step gateId) (Safe gateId) (init g n) ops) :
    ∀ pre, pre <+: ops → Agree (run (step gateId) (init g n) pre) := by
  rintro pre ⟨rest, rfl⟩
  have hpre := ((along_append (step gateId) _ _ pre rest).1 hops).1
  exact (inv_run (sysInv_step gateId g hg) (sysInv_init gateId g n hg) hpre).agree

/-- login, drop of the connection, and the reconnect timer, every message delivered -/
def dropped : List Op :=
  [.gate (.accept 10), .gate (.addToWait 7 5 0), .gate (.loginGame 10 7), .deliver, .gate (.onClose 10), .deliver,
    .gate (.fireRemoveReconn 7), .deliver]

theorem agreement_dropped : Agree (run (step 1) (init 3 100) dropped) :=
  online_agreement 1 3 100 (by decide) dropped (by decide) dropped (List.prefix_refl _)

/-- login, drop of the connection, and the reconnect that the gate accepts -/
def reconnected : List Op :=
  [.gate (.accept 10), .gate (.addToWait 7 5 0), .gate (.loginGame 10 7), .deliver, .gate (.onClose 10), .deliver,
    .gate (.accept 11), .gate (.loginGame 11 7)]

/-- **A reconnected player stays offline.** The gate has the player online and nothing is in flight; the session on the
game server is still offline and drops every reply. -/
theorem reconnect_stays_offline : ¬∀ ops, Agree (run (step 1) (init 3 100) ops) := by
  intro h
  obtain ⟨q, hq, hstate⟩ := (h reconnected).online (by decide) 7 11 (by decide) (by decide)
  have hq1 : (run (step 1) (init 3 100) reconnected).game.onlines[7]? = some 1 := by decide
  obtain rfl := Option.some.inj (hq.symm.trans hq1)
  revert hstate
  decide

end DreamHeroes.Link

/-
Who gets the reply to a login.

A login goes through the database and through a gate before it is answered. On the way the session is named by its
address: in the task, and in `m_WaitSessions`. `checkAccountCall` asks `is_valid()`, which is also true of the next
connection of the object, and of an object that waits for its peer; `receiveUserPrepar` asks nothing. Transaction ids
may also coincide, and `m_WaitSessions` keeps the session that came first.

- `waitsGranted_step`: whoever waits under an id has been granted it.
- `repliesToRequester_of_prompt`: an answer of a gate goes to the requester when it finds the waiting object with the
  connection of the request, and the id with the account of that request only (`Prompt`). `Login.Reuse` says when it
  does.
-/
import Mathlib.Tactic
import DreamHeroes.Login.Tables

namespace DreamHeroes.Login

open DreamHeroes.Lib

variable (cfg : Cfg)

/-! ## Grants -/

/-- whoever waits under an id has been granted it -/
def WaitsGranted (s : St) : Prop := ∀ t w, s.waits t = some w → (w.acct, t, w.conn) ∈ s.granted

/-- a grant is not taken back -/
theorem granted_mono (s : St) (o : Op) {g : ℕ × UInt32 × (ℕ × ℕ)} (hg : g ∈ s.granted) :
    g ∈ (step cfg s o).granted := by
  cases step_event cfg s o with
  | quiet h => rwa [h.granted]
  | drop _ _ granted _ _ => rwa [granted]
  | give _ _ _ _ _ given =>
    rw [given.granted]
    exact List.mem_append_left _ hg
  | register _ _ _ granted _ => rwa [granted]
  | prepar _ _ _ _ granted _ => rwa [granted]

theorem waitsGranted_step (s : St) (o : Op) (h : WaitsGranted s) : WaitsGranted (step cfg s o) := by
  intro t w hw
  cases step_event cfg s o with
  | quiet hquiet =>
    rw [hquiet.waits] at hw
    exact granted_mono cfg s o (h t w hw)
  | drop _ waits _ _ _ =>
    rw [waits] at hw
    exact granted_mono cfg s _ (h t w hw)
  | give _ _ _ _ _ given =>
    rw [given.waits] at hw
    rcases of_update_or hw with hold | ⟨rfl, rfl⟩
    · exact granted_mono cfg s _ (h t w hold)
    · rw [given.granted]
      exact List.mem_append_right _ List.mem_cons_self
  | register _ _ waits _ _ =>
    rw [waits] at hw
    exact granted_mono cfg s _ (h t w hw)
  | prepar _ _ _ waits _ _ =>
    rw [waits] at hw
    exact granted_mono cfg s _ (h t w (of_update_none hw))

/-! ## Replies -/

/-- the connection is one of a request that named, and passed the check for, each account with the id `t`, and there was
such a request -/
def ToRequester (s : St) (c : ℕ × ℕ) (t : UInt32) : Prop :=
  (∃ a, (a, t, c) ∈ s.granted) ∧ ∀ a p, s.accts a = some p → p.nTranId = t → (a, t, c) ∈ s.granted

/-- every reply of the event that carries an id goes to the requester -/
def RepliesToRequester (s : St) (o : Op) : Prop :=
  ∀ new, (step cfg s o).sent = s.sent ++ new → ∀ r ∈ new, ∀ t, r.2.transId = some t → ToRequester s r.1 t

/-- an answer of a gate finds the waiting object, if it is connected, with the connection of the request that waits, and
no other account with the id -/
def Prompt (s : St) : Op → Prop
  | .gateUserPrepar _ account => ∀ w, s.waits (UInt32.ofNat account) = some w →
      (s.net.sess w.session).isvalid = true → (s.net.sess w.session).isconnected = true →
      s.net.conn w.session = w.conn ∧ ∀ a p, s.accts a = some p → p.nTranId = UInt32.ofNat account → a = w.acct
  | _ => True

theorem repliesToRequester_of_prompt (s : St) (o : Op) (h : WaitsGranted s) (ho : Prompt s o) :
    RepliesToRequester cfg s o := by
  intro new hnew r hr t ht
  have hnone : ∀ new', (step cfg s o).sent = s.sent ++ new' → (∀ r ∈ new', r.2.transId = none) → False := by
    intro new' hnew' hn
    rw [hnew, List.append_cancel_left_eq] at hnew'
    rw [hn r (hnew' ▸ hr)] at ht
    cases ht
  have hsame : (step cfg s o).sent = s.sent → False := fun hs => hnone [] (by rw [hs, List.append_nil]) (by simp)
  cases step_event cfg s o with
  | quiet hquiet =>
    obtain ⟨new', hnew', hn⟩ := hquiet.sent
    exact (hnone new' hnew' hn).elim
  | drop _ _ _ sent hn => exact (hnone _ sent hn).elim
  | give _ _ _ _ _ given => exact (hsame given.sent).elim
  | register _ _ _ _ sent => exact (hsame sent).elim
  | @prepar _ account _ w m hw hm _ _ _ sent =>
    rw [hnew, List.append_cancel_left_eq] at sent
    subst sent
    split_ifs at hr with hconn
    · obtain rfl := List.mem_singleton.1 hr
      obtain rfl : UInt32.ofNat account = t := Option.some.inj (hm.symm.trans ht)
      obtain ⟨hserves, honly⟩ := ho w hw hconn.1 hconn.2
      have hgranted : (w.acct, UInt32.ofNat account, s.net.conn w.session) ∈ s.granted := hserves ▸ h _ w hw
      refine ⟨⟨w.acct, hgranted⟩, ?_⟩
      intro a p ha hp
      rwa [honly a p ha hp]
    · cases hr

/-- in a run in which every answer of a gate is `Prompt` -/
theorem repliesToRequester_run {n onceListenCount : ℕ} {ops : List Op}
    (hops : Along (step cfg) Prompt (create n onceListenCount) ops) :
    Along (step cfg) (RepliesToRequester cfg) (create n onceListenCount) ops :=
  hops.imp (I := WaitsGranted) (fun s o h _ => waitsGranted_step cfg s o h)
    (repliesToRequester_of_prompt cfg) fun _ _ hw => by cases hw

/-! ## Runs -/

/-- a gate is there, a client connects and sends a login request, and the request is passed to the database -/
def askedOps : List Op :=
  [.gateRegister 7 ⟨1, "10.0.0.9", 9000, []⟩, .net .listen, .net (.accept 0 .ok), .net (.handleAccept 0), .net .poll,
    .read 0 1 .frames [.loginRequest { name := "ann", pwd := "pw" }], .process 0]

def annsCfg : Cfg := { config := { channels := [0] }, addr := fun c => if c = (0, 1) then "10.0.0.1" else "10.0.0.2" }

def annsId (addr : String) : UInt32 := makeTransId ("annpw" ++ addr) 1000

end DreamHeroes.Login

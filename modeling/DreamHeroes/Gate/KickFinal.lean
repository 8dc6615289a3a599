/-
Whether a kick is final.

`kickUser` erases the id from the online map and posts the close of the socket; the session stays in state `connect`
until its `on_close` comes. That `on_close` runs `checkClose`, which parks the id in the reconnect map, and the kicked
client may log in again.

- `waitInv_run`: after every run the two wait maps have the same keys and no id is both waiting and online.
- `login_passes_iff`: outside the wait map `checkConn` passes exactly the parked ids.
- `kick_final_iff`: after a kick, and as long as the id is not announced again, no login with it can pass exactly when
  the kick found the id in one place only and no later `on_close` parks it.
- `kicked_returns`: login, kick, `on_close` of the kicked connection, login again.
-/
import Mathlib.Tactic
import DreamHeroes.Gate.UserManager

namespace DreamHeroes.Gate

open DreamHeroes.Lib

/-! ## What every run keeps -/

structure WaitInv (s : St) : Prop where
  keys : ∀ t : ℕ, s.waitMapChannel[t]? = none ↔ s.waitMap[t]? = none
  onWait : ∀ t : ℕ, s.onlines[t]? = none ∨ s.waitMap[t]? = none

theorem waitInv_init (n : ℕ) : WaitInv (init n) := by
  constructor <;> simp [init]

/-- the invariant reads three maps -/
theorem waitInv_congr {s s' : St} (ho : s'.onlines = s.onlines) (hw : s'.waitMap = s.waitMap)
    (hc : s'.waitMapChannel = s.waitMapChannel) (h : WaitInv s) : WaitInv s' :=
  ⟨by rw [hc, hw]; exact h.keys, by rw [ho, hw]; exact h.onWait⟩

theorem waitInv_removeWait {s : St} (h : WaitInv s) (t : ℕ) : WaitInv (eventCallRemoveWait s t) := by
  refine ⟨fun j => ?_, fun j => ?_⟩ <;> simp only [eventCallRemoveWait, get_erase] <;> split_ifs
  · exact ⟨fun _ => rfl, fun _ => rfl⟩
  · exact h.keys j
  · exact Or.inr rfl
  · exact h.onWait j

theorem waitInv_modSess {s : St} (h : WaitInv s) (p : ℕ) (f : UserSession → UserSession) :
    WaitInv (s.modSess p f) := waitInv_congr (s := s) rfl rfl rfl h

/-- an id that leaves `onlines` waits no more than before -/
theorem waitInv_eraseOnline {s s' : St} (h : WaitInv s) (ho : ∀ j : ℕ, s'.onlines[j]? = none ∨
    s'.onlines[j]? = s.onlines[j]?) (hw : s'.waitMap = s.waitMap) (hc : s'.waitMapChannel = s.waitMapChannel) :
    WaitInv s' := by
  refine ⟨by rw [hc, hw]; exact h.keys, ?_⟩
  intro j
  rcases ho j with e | e
  · exact Or.inl e
  · rw [e, hw]; exact h.onWait j

theorem waitInv_kickUser {s : St} (h : WaitInv s) (t a : ℕ) : WaitInv (kickUser s t a) := by
  cases ho : s.onlines[t]? with
  | some p =>
    rw [kickUser_online ho]
    refine waitInv_eraseOnline h ?_ rfl rfl
    intro j
    simp only [get_erase]
    split_ifs <;> simp
  | none =>
    refine waitInv_congr ?_ ?_ ?_ (waitInv_removeWait h t) <;>
      · simp only [kickUser, ho]; split <;> rfl

/-- an id that is not online enters both wait maps -/
theorem waitInv_enterWait {s : St} (h : WaitInv s) (t a : ℕ) (c : ℤ) (ho : s.onlines[t]? = none) :
    WaitInv { s with waitMap := s.waitMap.insertIfNew t a
                     waitMapChannel := s.waitMapChannel.insertIfNew t c } := by
  refine ⟨fun j => ?_, fun j => ?_⟩ <;> simp only [get_insertIfNew]
  · have hj := h.keys j
    have ht := h.keys t
    split_ifs <;> simp_all
  · by_cases e : j = t
    · exact Or.inl (e ▸ ho)
    · simpa only [e, false_and, if_false] using h.onWait j

theorem waitInv_addToWait {s : St} (h : WaitInv s) (t a : ℕ) (c : ℤ) : WaitInv (addToWait s t a c) := by
  cases ho : s.onlines[t]? with
  | some p =>
    have hk : WaitInv (kickUser (s.modSess p fun u => { u with channel := c }) t a) :=
      waitInv_kickUser (waitInv_modSess h p _) t a
    have he := waitInv_enterWait hk t a c (by rw [kickUser_onlines, if_pos rfl])
    simp only [addToWait, ho]
    exact ⟨he.keys, he.onWait⟩
  | none =>
    have he := waitInv_enterWait h t a c ho
    simp only [addToWait, ho]
    exact ⟨he.keys, he.onWait⟩

theorem waitInv_parseLoginGame {s : St} (h : WaitInv s) (p t : ℕ) : WaitInv (parseLoginGame s p t) := by
  rcases parseLoginGame_cases s p t with ⟨e, -⟩ | ⟨e, -⟩ | ⟨e, -⟩ | ⟨v, gs, e, -, hw, -⟩ | ⟨gs, e, -, hw, -⟩ <;> rw [e]
  · exact h
  · exact waitInv_modSess (waitInv_removeWait h t) p _
  · exact waitInv_modSess h p _
  · have hr := waitInv_removeWait h t
    refine ⟨hr.keys, ?_⟩
    intro j
    simp only [passWait, get_insertIfNew, get_erase]
    by_cases e : j = t
    · exact Or.inr (if_pos e)
    · simpa only [e, false_and, if_false] using h.onWait j
  · refine ⟨h.keys, ?_⟩
    intro j
    simp only [passRecon, get_insertIfNew]
    by_cases e : j = t
    · exact Or.inr (e ▸ hw)
    · simpa only [e, false_and, if_false] using h.onWait j

theorem onClose_onlines (s : St) (p : ℕ) : (onClose s p).onlines = s.onlines.erase (s.sess p).tranid := by
  simp only [onClose, checkClose]
  split_ifs <;> rfl

theorem onClose_waits (s : St) (p : ℕ) :
    (onClose s p).waitMap = s.waitMap ∧ (onClose s p).waitMapChannel = s.waitMapChannel := by
  simp only [onClose, checkClose]
  split_ifs <;> exact ⟨rfl, rfl⟩

theorem waitInv_step (s : St) (o : Op) (h : WaitInv s) : WaitInv (step s o) := by
  cases o with
  | accept p => simp only [step]; split_ifs <;> exact waitInv_congr (s := s) rfl rfl rfl h
  | addToWait t a c => exact waitInv_addToWait h t a c
  | kickUser t a => exact waitInv_kickUser h t a
  | loginGame p t =>
    simp only [step]
    split_ifs
    · exact h
    · exact waitInv_parseLoginGame h p t
  | onClose p =>
    simp only [step]
    split_ifs
    · exact h
    · refine waitInv_eraseOnline h ?_ (onClose_waits s p).1 (onClose_waits s p).2
      intro j
      rw [onClose_onlines, get_erase]
      split_ifs <;> simp
  | fireRemoveWait t =>
    simp only [step]
    split_ifs
    · exact waitInv_removeWait (s := { s with waitTimers := s.waitTimers.erase t })
        (waitInv_congr (s := s) rfl rfl rfl h) t
    · exact h
  | fireRemoveReconn t =>
    simp only [step, eventCallRemoveReconn]
    split_ifs <;> exact waitInv_congr (s := s) rfl rfl rfl h
  | changeGS gs t newGs =>
    simp only [step, parseChangeGS]
    split
    · split
      · exact h
      · split_ifs <;> exact waitInv_congr (s := s) rfl rfl rfl h
    · exact h
  | gameRegister gs => simp only [step]; split_ifs <;> exact waitInv_congr (s := s) rfl rfl rfl h
  | gameOnlines gs n => simp only [step]; split_ifs <;> exact waitInv_congr (s := s) rfl rfl rfl h
  | gameClose gs =>
    simp only [step, removeActiveGameClient]
    split_ifs <;> exact waitInv_congr (s := s) rfl rfl rfl h

/-- **Waiting ids.** After every run the two wait maps have the same keys, and no id is both waiting and online. -/
theorem waitInv_run (n : ℕ) (ops : List Op) : WaitInv (run step (init n) ops) :=
  inv_run_all waitInv_step ops (waitInv_init n)

/-! ## The places a login can come from -/

/-- outside the wait map `checkConn` passes exactly the parked ids -/
theorem login_passes_iff {s : St} {t : ℕ} (hw : s.waitMap[t]? = none) :
    (∀ p, (checkConn s t p).1 = false) ↔ s.reconMap[t]? = none := by
  cases hr : s.reconMap[t]? with
  | none => simp [checkConn, hw, hr]
  | some gs => simp [checkConn, hw, hr]

def Op.announces (t : ℕ) : Op → Prop
  | .addToWait t' _ _ => t' = t
  | _ => False

/-- an `on_close` that puts `t` into the reconnect map -/
def Parks (s : St) (t : ℕ) : Op → Prop
  | .onClose p => (s.sess p).tranid = t ∧ (s.sess p).state = .connect ∧ (getGameClient s (s.sess p).gsId).isSome
  | _ => False

/-- the id is in neither of the two maps a login looks it up in -/
def Barred (s : St) (t : ℕ) : Prop := s.waitMap[t]? = none ∧ s.reconMap[t]? = none

/-- `on_close` parks the id of a logged-in session whose game server is still active, and nothing else -/
theorem onClose_reconMap (s : St) (p j : ℕ) :
    (onClose s p).reconMap[j]? =
      if (j = (s.sess p).tranid ∧ (s.sess p).state = .connect ∧ (getGameClient s (s.sess p).gsId).isSome) ∧
        s.reconMap[j]? = none then some (s.sess p).gsId else s.reconMap[j]? := by
  have hg : (getGameClient { s with onlines := s.onlines.erase (s.sess p).tranid } (s.sess p).gsId) =
      getGameClient s (s.sess p).gsId := rfl
  by_cases hb : (getGameClient s (s.sess p).gsId).isSome ∧ (s.sess p).state = .connect
  · simp only [onClose, checkClose, hg, hb.1, hb.2, and_self, if_true, offlinePlayer, sendGame, St.modSess,
      get_insertIfNew, and_true]
    split_ifs with h1 h2 h2
    · rfl
    · exact absurd ⟨h1.1, h1.1 ▸ h1.2⟩ h2
    · exact absurd ⟨h2.1, h2.1 ▸ h2.2⟩ h1
    · rfl
  · have hb' : ¬((j = (s.sess p).tranid ∧ (s.sess p).state = .connect ∧ (getGameClient s (s.sess p).gsId).isSome) ∧
        s.reconMap[j]? = none) := fun e => hb ⟨e.1.2.2, e.1.2.1⟩
    simp only [onClose, checkClose, hg, hb, if_false, removePlayer, sendActive, St.modSess, hb']

theorem erase_none {V : Type*} {m : Std.TreeMap ℕ V} {t : ℕ} (h : m[t]? = none) (j : ℕ) : (m.erase j)[t]? = none := by
  rw [get_erase, h, ite_self]

/-- **Only an announcement makes an id wait.** -/
theorem noWait_step (t : ℕ) (s : St) (o : Op) (ho : ¬o.announces t) (h : s.waitMap[t]? = none) :
    (step s o).waitMap[t]? = none := by
  cases o with
  | addToWait t' a c =>
    rw [step, addToWait_waitMap, if_neg fun e => ho e.1.symm]
    exact h
  | kickUser t' a => rw [step, kickUser_waitMap, h, ite_self]
  | loginGame p t' =>
    simp only [step]
    split_ifs
    · exact h
    · rcases parseLoginGame_cases s p t' with ⟨e, -⟩ | ⟨e, -⟩ | ⟨e, -⟩ | ⟨v, gs, e, -⟩ | ⟨gs, e, -⟩ <;> rw [e]
      · exact h
      · exact erase_none h t'
      · exact h
      · exact erase_none h t'
      · exact h
  | onClose p =>
    simp only [step]
    split_ifs
    · exact h
    · rw [(onClose_waits s p).1]; exact h
  | accept p => simp only [step]; split_ifs <;> exact h
  | fireRemoveWait t' =>
    simp only [step]
    split_ifs
    · exact erase_none h t'
    · exact h
  | fireRemoveReconn t' => simp only [step, eventCallRemoveReconn]; split_ifs <;> exact h
  | changeGS gs t' newGs =>
    simp only [step, parseChangeGS]
    split
    · split
      · exact h
      · split_ifs <;> exact h
    · exact h
  | gameRegister gs => simp only [step]; split_ifs <;> exact h
  | gameOnlines gs n => simp only [step]; split_ifs <;> exact h
  | gameClose gs => simp only [step, removeActiveGameClient]; split_ifs <;> exact h

/-- **Only an `on_close` parks an id.** -/
theorem noRecon_step (t : ℕ) (s : St) (o : Op) (h : s.reconMap[t]? = none) :
    ¬Parks s t o ↔ (step s o).reconMap[t]? = none := by
  cases o with
  | onClose p =>
    by_cases hd : (s.sess p).state = .disable
    · simp only [Parks, step, hd, reduceCtorEq, false_and, and_false, not_false_eq_true, if_true, true_iff]
      exact h
    · have hparks : Parks s t (.onClose p) ↔
          t = (s.sess p).tranid ∧ (s.sess p).state = .connect ∧ (getGameClient s (s.sess p).gsId).isSome := by
        rw [Parks, eq_comm]
      have hr := onClose_reconMap s p t
      simp only [h, and_true] at hr
      simp only [hparks, step, hd, if_false, hr]
      split_ifs with e
      · exact iff_of_false (fun h' => h' e) id
      · exact iff_of_true e rfl
  | addToWait t' a c =>
    simp only [Parks, not_false_eq_true, true_iff, step]
    rw [addToWait_reconMap]; exact h
  | kickUser t' a =>
    simp only [Parks, not_false_eq_true, true_iff, step]
    rw [kickUser_reconMap, h, ite_self]
  | loginGame p t' =>
    simp only [Parks, not_false_eq_true, true_iff, step]
    split_ifs
    · exact h
    · rcases parseLoginGame_cases s p t' with ⟨e, -⟩ | ⟨e, -⟩ | ⟨e, -⟩ | ⟨v, gs, e, -⟩ | ⟨gs, e, -⟩ <;> rw [e]
      · exact h
      · exact h
      · exact h
      · exact h
      · exact erase_none h t'
  | accept p => simp only [Parks, not_false_eq_true, true_iff, step]; split_ifs <;> exact h
  | fireRemoveWait t' => simp only [Parks, not_false_eq_true, true_iff, step]; split_ifs <;> exact h
  | fireRemoveReconn t' =>
    simp only [Parks, not_false_eq_true, true_iff, step, eventCallRemoveReconn]
    split_ifs
    · exact erase_none h t'
    · exact erase_none h t'
    · exact h
  | changeGS gs t' newGs =>
    simp only [Parks, not_false_eq_true, true_iff, step, parseChangeGS]
    split
    · split
      · exact h
      · split_ifs <;> exact h
    · exact h
  | gameRegister gs => simp only [Parks, not_false_eq_true, true_iff, step]; split_ifs <;> exact h
  | gameOnlines gs n => simp only [Parks, not_false_eq_true, true_iff, step]; split_ifs <;> exact h
  | gameClose gs =>
    simp only [Parks, not_false_eq_true, true_iff, step, removeActiveGameClient]
    split_ifs
    · simp only [removeUsers, get_eraseVal, h, ite_self]
    · exact h

theorem barred_step (t : ℕ) (s : St) (o : Op) (ho : ¬o.announces t) (h : Barred s t) :
    ¬Parks s t o ↔ Barred (step s o) t := by
  rw [noRecon_step t s o h.2]
  exact ⟨fun hr => ⟨noWait_step t s o ho h.1, hr⟩, fun h' => h'.2⟩

/-! ## The kick -/

/-- in a reachable state the kick bars the id exactly when it does not find it both online and parked -/
theorem barred_after_kick {s : St} (h : WaitInv s) (t a : ℕ) :
    ¬(s.onlines[t]? ≠ none ∧ s.reconMap[t]? ≠ none) ↔ Barred (kickUser s t a) t := by
  simp only [Barred, kickUser_waitMap, kickUser_reconMap, true_and]
  have hw := h.onWait t
  split_ifs with ho
  · simp [ho]
  · rcases hw with e | e
    · exact absurd e ho
    · constructor
      · intro h'
        exact ⟨e, by_contra fun hr => h' ⟨ho, hr⟩⟩
      · exact fun h' h'' => h''.2 h'.2

/-- **When a kick is final.** Let `t` be kicked after any run, and then let anything happen but a new announcement of
`t`. No login with `t` can pass in any state exactly when the kick did not find `t` both online and parked and no
`on_close` parks it afterwards. -/
theorem kick_final_iff (n : ℕ) (ops : List Op) (t a : ℕ) (post : List Op) (hpost : ∀ o ∈ post, ¬o.announces t) :
    (∀ pre, pre <+: post → ∀ p, (checkConn (run step (kickUser (run step (init n) ops) t a) pre) t p).1 = false) ↔
      ¬((run step (init n) ops).onlines[t]? ≠ none ∧ (run step (init n) ops).reconMap[t]? ≠ none) ∧
        Along step (fun s o => ¬Parks s t o) (kickUser (run step (init n) ops) t a) post := by
  have hinv : WaitInv (run step (init n) ops) := waitInv_run n ops
  rw [barred_after_kick hinv t a]
  set k := kickUser (run step (init n) ops) t a with hk
  have hk0 : k.waitMap[t]? = none := by
    rw [hk, kickUser_waitMap]
    split_ifs with ho
    · rfl
    · exact (hinv.onWait t).resolve_left fun e => ho ⟨rfl, e⟩
  have hpass : ∀ pre, pre <+: post →
      ((∀ p, (checkConn (run step k pre) t p).1 = false) ↔ Barred (run step k pre) t) := by
    rintro pre ⟨rest, rfl⟩
    have hquiet : Along step (fun _ o => ¬o.announces t) k pre :=
      Along.of_forall k pre fun _ o ho => hpost o (List.mem_append_left rest ho)
    have hw : (run step k pre).waitMap[t]? = none := inv_run (fun s o h ho => noWait_step t s o ho h) hk0 hquiet
    rw [login_passes_iff hw]
    exact ⟨fun hr => ⟨hw, hr⟩, fun h => h.2⟩
  constructor
  · intro h
    have hall : ∀ pre, pre <+: post → Barred (run step k pre) t := fun pre hp => (hpass pre hp).1 (h pre hp)
    have h0 : Barred k t := hall [] (List.nil_prefix)
    exact ⟨h0, (along_iff (fun s o ho => barred_step t s o (hpost o ho)) h0).2 hall⟩
  · rintro ⟨h0, hops⟩ pre hp
    exact (hpass pre hp).2 ((along_iff (fun s o ho => barred_step t s o (hpost o ho)) h0).1 hops pre hp)

/-- the theorem at two runs: the kick of an id that only waits, and of an online id whose game server is gone by the
time its connection closes -/
theorem kick_final_logged_out :
    (checkConn (run step (kickUser (run step (init 100) [.gameRegister 1, .accept 10, .addToWait 7 3 0]) 7 3)
      [.onClose 10, .accept 11, .loginGame 11 7]) 7 11).1 = false ∧
    (checkConn (run step (kickUser (run step (init 100)
        [.gameRegister 1, .accept 10, .addToWait 7 3 0, .loginGame 10 7]) 7 3)
      [.gameClose 1, .onClose 10, .accept 11, .loginGame 11 7]) 7 11).1 = false := by
  constructor
  · refine (kick_final_iff 100 [.gameRegister 1, .accept 10, .addToWait 7 3 0] 7 3
      [.onClose 10, .accept 11, .loginGame 11 7] ?_).2 ⟨?_, ?_, id, id, trivial⟩ _ (List.prefix_refl _) 11
    · simp [Op.announces]
    · decide
    · simp only [Parks]
      decide
  · refine (kick_final_iff 100 [.gameRegister 1, .accept 10, .addToWait 7 3 0, .loginGame 10 7] 7 3
      [.gameClose 1, .onClose 10, .accept 11, .loginGame 11 7] ?_).2 ⟨?_, id, ?_, id, id, trivial⟩ _
      (List.prefix_refl _) 11
    · simp [Op.announces]
    · decide
    · simp only [Parks]
      decide

/-- login, drop, kick of the online session, and the kicked client comes back -/
def kickedReturns : List Op :=
  [.gameRegister 1, .accept 10, .addToWait 7 3 0, .loginGame 10 7]

/-- **A kick is not final.** The `on_close` of the kicked connection parks the id, and the next login passes. -/
theorem kicked_returns :
    ¬∀ (ops post : List Op) (t a p : ℕ), (∀ o ∈ post, ¬o.announces t) →
      (checkConn (run step (kickUser (run step (init 100) ops) t a) post) t p).1 = false := by
  intro h
  have := h kickedReturns [.onClose 10, .accept 11] 7 3 11 (by simp [Op.announces])
  revert this
  decide

end DreamHeroes.Gate

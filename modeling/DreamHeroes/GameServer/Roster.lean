/-
What a gate sees of the game server: the roster, one seat for every transaction id that has a session.

A seat holds the account, the gate and whether messages to the client are delivered. The roster is the abstract model
of the gate manager: it has the three messages of a gate and the loss of a gate as its operations and no pointers, no
heroes and no timers. `roster_step` connects it with the code: after every event the roster of the new state is the
abstract operation on the roster of the old one. It holds in every run, since no two ids ever share a session object
(`own_run`).
-/
import Mathlib.Tactic
import DreamHeroes.GameServer.SessionLink

namespace DreamHeroes.GameServer

open DreamHeroes.Lib

/-! ## The abstract roster -/

structure Seat where
  account : ℕ
  gate : ℕ
  online : Bool
deriving DecidableEq, Repr

abbrev Roster := ℕ → Option Seat

namespace Roster

/-- a new seat, or the old one taken again by the same account through the same gate -/
def add (r : Roster) (g t a : ℕ) : Roster :=
  Function.update r t <| match r t with
    | none => some ⟨a, g, true⟩
    | some x => some (if x.gate = g ∧ x.account = a then { x with online := true } else x)

def offline (r : Roster) (t : ℕ) : Roster := Function.update r t ((r t).map fun x => { x with online := false })

def remove (r : Roster) (t : ℕ) : Roster := Function.update r t none

def removeGate (r : Roster) (g : ℕ) : Roster := fun t => (r t).filter fun x => x.gate ≠ g

/-- the roster after an event of the game server; replies and timers leave it alone -/
def step (r : Roster) : Op → Roster
  | .addUser g t a _ => r.add g t a
  | .removeUser t => r.remove t
  | .offlineUser t => r.offline t
  | .removeUserByGate g => r.removeGate g
  | _ => r

end Roster

def seat (s : St) (p : ℕ) : Seat :=
  { account := (s.sess p).account, gate := (s.sess p).gate, online := (s.sess p).state = .online }

def roster (s : St) : Roster := fun t => (s.onlines[t]?).map (seat s)

/-! ## Sessions have one id each -/

structure Own (s : St) : Prop where
  tran : ∀ t p : ℕ, s.onlines[t]? = some p → (s.sess p).tranid = t
  lt : ∀ t p : ℕ, s.onlines[t]? = some p → p < s.nextSess

theorem Own.inj {s : St} (h : Own s) {t t' p : ℕ} (ht : s.onlines[t]? = some p) (ht' : s.onlines[t']? = some p) :
    t = t' := (h.tran t p ht).symm.trans (h.tran t' p ht')

/-- the step touches pointers, clocks and messages only -/
structure SameSeats (s s' : St) : Prop where
  onlines : s'.onlines = s.onlines
  next : s'.nextSess = s.nextSess
  tran : ∀ p, (s'.sess p).tranid = (s.sess p).tranid
  seats : ∀ p, seat s' p = seat s p

theorem SameSeats.own {s s' : St} (e : SameSeats s s') (h : Own s) : Own s' where
  tran t p ht := by rw [e.tran]; exact h.tran t p (e.onlines ▸ ht)
  lt t p ht := by rw [e.next]; exact h.lt t p (e.onlines ▸ ht)

theorem SameSeats.roster {s s' : St} (e : SameSeats s s') : roster s' = roster s := by
  funext t
  have hseat : seat s' = seat s := funext e.seats
  simp only [GameServer.roster, e.onlines, hseat]

theorem SameSeats.rfl' (s : St) : SameSeats s s := ⟨rfl, rfl, fun _ => rfl, fun _ => rfl⟩

theorem SameSeats.trans {s s' s'' : St} (e : SameSeats s s') (e' : SameSeats s' s'') : SameSeats s s'' where
  onlines := e'.onlines.trans e.onlines
  next := e'.next.trans e.next
  tran p := (e'.tran p).trans (e.tran p)
  seats p := (e'.seats p).trans (e.seats p)

instance seatsTrans : Trans SameSeats SameSeats SameSeats := ⟨SameSeats.trans⟩

theorem same_modHero (s : St) (x : ℕ) (f : DreamHero → DreamHero) : SameSeats s (s.modHero x f) :=
  ⟨rfl, rfl, fun _ => rfl, fun _ => rfl⟩

/-- a session may change its hero and its channel -/
theorem same_modSess (s : St) (p : ℕ) (f : Session → Session)
    (hf : ∀ u, (f u).tranid = u.tranid ∧ (f u).account = u.account ∧ (f u).gate = u.gate ∧ (f u).state = u.state) :
    SameSeats s (s.modSess p f) := by
  obtain ⟨h1, h2, h3, h4⟩ := hf (s.sess p)
  refine ⟨rfl, rfl, ?_, ?_⟩
  · intro q
    by_cases e : q = p
    · subst e; simp [St.modSess, h1]
    · simp [St.modSess, e]
  · intro q
    by_cases e : q = p
    · subst e; simp [seat, St.modSess, h2, h3, h4]
    · simp [seat, St.modSess, e]

theorem same_setHero (s : St) (p : ℕ) (x : Option ℕ) :
    SameSeats s (s.modSess p fun u => { u with dreamHero := x }) :=
  same_modSess s p _ fun _ => ⟨rfl, rfl, rfl, rfl⟩

theorem same_sendClientInit (s : St) (x : ℕ) : SameSeats s (sendClientInit s x) := by
  refine ⟨by simp, by simp, fun q => by simp, fun q => by simp [seat]⟩

theorem same_closeSession (s : St) (p : ℕ) : SameSeats s (closeSession s p) := by
  unfold closeSession
  split
  · exact same_modHero s _ _
  · exact SameSeats.rfl' s

theorem same_releaseSession (s : St) (p : ℕ) : SameSeats s (releaseSession s p) := by
  unfold releaseSession
  split
  · rename_i x _
    calc SameSeats s (startDestroyTime s x) := same_modHero s x _
      SameSeats _ (setSession (startDestroyTime s x) x none) := same_modHero _ x _
      SameSeats _ _ := same_setHero _ p none
  · exact SameSeats.rfl' s

theorem same_createHeroFrom (s : St) (i a p : ℕ) : SameSeats s (createHeroFrom s i a p).2 := by
  simp only [createHeroFrom, stopDestroyClock]
  split <;> exact ⟨rfl, rfl, fun _ => rfl, fun _ => rfl⟩

theorem same_createHero (s : St) (a p : ℕ) : SameSeats s (createHero s a p).2 := by
  simp only [createHero, stopDestroyClock]
  split <;> exact ⟨rfl, rfl, fun _ => rfl, fun _ => rfl⟩

theorem same_destroy (s : St) (x : ℕ) : SameSeats s (destroy s x) := by
  have hd : ∀ u : St, SameSeats u (destroyHero u x) := by
    intro u
    unfold destroyHero
    split_ifs
    · exact ⟨rfl, rfl, fun _ => rfl, fun _ => rfl⟩
    · exact SameSeats.rfl' u
  simp only [destroy]
  split
  · rename_i p _
    calc SameSeats s (s.modSess p fun u => { u with dreamHero := none }) := same_setHero s p none
      SameSeats _ _ := hd _
  · exact hd s

/-- the events that come from the database, a client or a timer -/
def Op.internal : Op → Prop
  | .addUser .. | .removeUser _ | .offlineUser _ | .removeUserByGate _ => False
  | _ => True

theorem same_internal (s : St) (o : Op) (ho : o.internal) : SameSeats s (step s o) := by
  cases o with
  | queryHeroInfo t i =>
    simp only [step]
    cases ht : s.onlines[t]? with
    | none => simpa only [parseQueryHeroInfo, ht] using SameSeats.rfl' s
    | some p =>
      cases hp : (s.sess p).dreamHero with
      | some y =>
        simp only [parseQueryHeroInfo, ht, hp]
        exact same_sendClientInit s y
      | none =>
        have hhero : (((createHeroFrom s i (s.sess p).account p).2.modSess p fun u =>
            { u with dreamHero := some (createHeroFrom s i (s.sess p).account p).1 }).sess p).dreamHero =
            some (createHeroFrom s i (s.sess p).account p).1 := by simp [St.modSess]
        simp only [parseQueryHeroInfo, ht, hp, hhero]
        calc SameSeats s (createHeroFrom s i (s.sess p).account p).2 := same_createHeroFrom s i _ p
          SameSeats _ _ := same_setHero _ p _
          SameSeats _ _ := same_sendClientInit _ _
  | needCreateHero t =>
    simp only [step, parseNeedCreateHero]
    split
    · exact SameSeats.rfl' s
    · rename_i p _
      calc SameSeats s (createHero s (s.sess p).account p).2 := same_createHero s _ p
        SameSeats _ _ := same_setHero _ p _
        SameSeats _ _ := same_sendClientInit _ _
  | clientMsg t =>
    simp only [step]
    split
    · exact ⟨rfl, rfl, fun _ => rfl, fun _ => rfl⟩
    · exact SameSeats.rfl' s
  | fireDestroy x =>
    simp only [step]
    split_ifs
    · exact same_destroy s x
    · exact SameSeats.rfl' s
  | _ => exact ho.elim

/-! ## The messages of a gate -/

theorem own_erase {s s' : St} (h : Own s) {t : ℕ} (ho : s'.onlines = s.onlines.erase t) (hn : s'.nextSess = s.nextSess)
    (ht : ∀ p, (s'.sess p).tranid = (s.sess p).tranid) : Own s' := by
  have hsub : ∀ t' p : ℕ, s'.onlines[t']? = some p → s.onlines[t']? = some p := by
    intro t' p hp
    rw [ho, get_erase] at hp
    split_ifs at hp
    exact hp
  exact ⟨fun t' p hp => by rw [ht]; exact h.tran t' p (hsub t' p hp), fun t' p hp => by
    rw [hn]; exact h.lt t' p (hsub t' p hp)⟩

/-- closing and releasing a session changes no seat; its id is gone -/
theorem dropUser_seats (s : St) (t p : ℕ) : (dropUser s t p).nextSess = s.nextSess ∧
    (∀ q, ((dropUser s t p).sess q).tranid = (s.sess q).tranid) ∧ ∀ q, seat (dropUser s t p) q = seat s q := by
  have e : SameSeats s (releaseSession (closeSession s p) p) :=
    calc SameSeats s (closeSession s p) := same_closeSession s p
      SameSeats _ _ := same_releaseSession _ p
  exact ⟨e.next, e.tran, e.seats⟩

theorem own_dropUser {s : St} (h : Own s) (t p : ℕ) : Own (dropUser s t p) :=
  own_erase h (dropUser_onlines s t p) (dropUser_seats s t p).1 (dropUser_seats s t p).2.1

theorem roster_dropUser (s : St) (t p : ℕ) : roster (dropUser s t p) = (roster s).remove t := by
  funext j
  have hseat : seat (dropUser s t p) = seat s := funext (dropUser_seats s t p).2.2
  simp only [roster, dropUser_onlines, get_erase, hseat, Roster.remove, Function.update_apply]
  split_ifs <;> rfl

/-- the loop of `removeUserByGate` removes the seats of the entries it meets with the gate -/
theorem roster_removeLoop (g : ℕ) (s : St) (l : List (ℕ × ℕ)) (t : ℕ) :
    roster (removeLoop g s l) t =
      bif l.any fun e => e.1 == t && (seat s e.2).gate == g then none else roster s t := by
  induction l generalizing s with
  | nil => rfl
  | cons e l ih =>
    have hcons : removeLoop g s (e :: l) =
        removeLoop g (if (seat s e.2).gate = g then dropUser s e.1 e.2 else s) l := rfl
    rw [hcons, ih, List.any_cons]
    by_cases hg : (seat s e.2).gate = g
    · have hseat : seat (dropUser s e.1 e.2) = seat s := funext (dropUser_seats s e.1 e.2).2.2
      rw [if_pos hg, hseat, roster_dropUser, Roster.remove, Function.update_apply]
      by_cases ht : e.1 = t
      · simp [ht, hg]
      · rw [beq_false_of_ne ht, if_neg (Ne.symm ht), Bool.false_and, Bool.false_or]
    · rw [if_neg hg, beq_false_of_ne hg, Bool.and_false, Bool.false_or]

theorem roster_removeUserByGate (s : St) (g : ℕ) : roster (removeUserByGate s g) = (roster s).removeGate g := by
  funext t
  rw [removeUserByGate, roster_removeLoop]
  simp only [Roster.removeGate, roster]
  cases ht : s.onlines[t]? with
  | none => simp
  | some p =>
    have hany : (s.onlines.toList.any fun e => e.1 == t && (seat s e.2).gate == g) = ((seat s p).gate == g) := by
      rw [Bool.eq_iff_iff]
      simp only [List.any_eq_true, Bool.and_eq_true, beq_iff_eq]
      constructor
      · rintro ⟨⟨t', q⟩, he, rfl, hg⟩
        have hq := Std.TreeMap.mem_toList_iff_getElem?_eq_some.1 he
        exact Option.some.inj (ht.symm.trans hq) ▸ hg
      · exact fun hg => ⟨(t, p), Std.TreeMap.mem_toList_iff_getElem?_eq_some.2 ht, rfl, hg⟩
    rw [hany]
    by_cases hg : (seat s p).gate = g
    · simp [hg, Option.filter]
    · simp [hg, Option.filter, beq_false_of_ne hg]

theorem own_removeLoop (g : ℕ) {s : St} (h : Own s) (l : List (ℕ × ℕ)) : Own (removeLoop g s l) := by
  induction l generalizing s with
  | nil => exact h
  | cons e l ih =>
    simp only [removeLoop, List.foldl_cons] at ih ⊢
    split_ifs
    · exact ih (own_dropUser h _ _)
    · exact ih h

/-- a free id gets a session object of its own -/
theorem newSession_seats (s : St) (t a g : ℕ) :
    (newSession s t a g).1 = s.nextSess ∧ (newSession s t a g).2.onlines = s.onlines ∧
      (newSession s t a g).2.nextSess = s.nextSess + 1 ∧
      (∀ q, ((newSession s t a g).2.sess q).tranid = if q = s.nextSess then t else (s.sess q).tranid) ∧
      ∀ q, seat (newSession s t a g).2 q = if q = s.nextSess then ⟨a, g, true⟩ else seat s q := by
  have hq : ∀ x : Option ℕ, ∀ q, (Function.update s.sess s.nextSess
      { tranid := t, account := a, gate := g, dreamHero := x } q).tranid =
        if q = s.nextSess then t else (s.sess q).tranid := by
    intro x q
    rw [Function.update_apply]
    split_ifs <;> rfl
  simp only [newSession]
  split
  · rename_i x _
    refine ⟨rfl, by simp [setSession, stopDestroyClock, St.modHero, St.modSess],
      by simp [setSession, stopDestroyClock, St.modHero, St.modSess], ?_, ?_⟩
    · intro q
      by_cases e : q = s.nextSess <;> simp [setSession, stopDestroyClock, St.modHero, St.modSess, e]
    · intro q
      by_cases e : q = s.nextSess <;> simp [seat, setSession, stopDestroyClock, St.modHero, St.modSess, e]
  · refine ⟨rfl, rfl, rfl, fun q => hq none q, ?_⟩
    intro q
    by_cases e : q = s.nextSess <;> simp [seat, St.modSess, e]

/-- the state of one session and the flag of its hero -/
theorem setReconnet_seats (s : St) (p : ℕ) : (setReconnet s p).onlines = s.onlines ∧
    (setReconnet s p).nextSess = s.nextSess ∧ (∀ q, ((setReconnet s p).sess q).tranid = (s.sess q).tranid) ∧
    ∀ q, seat (setReconnet s p) q = if q = p then { seat s q with online := true } else seat s q := by
  simp only [setReconnet]
  refine ⟨by split <;> rfl, by split <;> rfl, fun q => ?_, fun q => ?_⟩
  · by_cases e : q = p
    · subst e; split <;> simp [St.modHero, St.modSess]
    · split <;> simp [St.modHero, St.modSess, e]
  · by_cases e : q = p
    · subst e; split <;> simp [seat, St.modHero, St.modSess]
    · split <;> simp [seat, St.modHero, St.modSess, e]

theorem setWaitReconnet_seats (s : St) (p : ℕ) : (setWaitReconnet s p).onlines = s.onlines ∧
    (setWaitReconnet s p).nextSess = s.nextSess ∧
    (∀ q, ((setWaitReconnet s p).sess q).tranid = (s.sess q).tranid) ∧
    ∀ q, seat (setWaitReconnet s p) q = if q = p then { seat s q with online := false } else seat s q := by
  simp only [setWaitReconnet]
  refine ⟨by split <;> rfl, by split <;> rfl, fun q => ?_, fun q => ?_⟩
  · by_cases e : q = p
    · subst e; split <;> simp [St.modHero, St.modSess]
    · split <;> simp [St.modHero, St.modSess, e]
  · by_cases e : q = p
    · subst e; split <;> simp [seat, St.modHero, St.modSess]
    · split <;> simp [seat, St.modHero, St.modSess, e]

/-- one session of the map changes its seat -/
theorem roster_update {s s' : St} (h : Own s) {t p : ℕ} (ht : s.onlines[t]? = some p) (ho : s'.onlines = s.onlines)
    (f : Seat → Seat) (hs : ∀ q, seat s' q = if q = p then f (seat s q) else seat s q) :
    roster s' = Function.update (roster s) t (some (f (seat s p))) := by
  funext j
  simp only [roster, ho, Function.update_apply]
  split_ifs with e
  · simp [e, ht, hs]
  · cases hj : s.onlines[j]? with
    | none => rfl
    | some q =>
      have hqp : q ≠ p := fun e' => e (h.inj (e' ▸ hj) ht)
      simp [hs, hqp]

/-- a free id gets a seat -/
theorem roster_open {s u : St} (h : Own s) {t a g : ℕ} (ht : s.onlines[t]? = none)
    (ho : u.onlines = s.onlines.insertIfNew t s.nextSess) (hn : u.nextSess = s.nextSess + 1)
    (htran : ∀ q, (u.sess q).tranid = if q = s.nextSess then t else (s.sess q).tranid)
    (hs : ∀ q, seat u q = if q = s.nextSess then ⟨a, g, true⟩ else seat s q) :
    Own u ∧ roster u = (roster s).add g t a := by
  have hon : ∀ j : ℕ, u.onlines[j]? = if j = t then some s.nextSess else s.onlines[j]? := by
    intro j
    rw [ho, get_insertIfNew]
    simp only [ht, and_true]
  have hold : ∀ j q : ℕ, s.onlines[j]? = some q → q ≠ s.nextSess := fun j q hq => (h.lt j q hq).ne
  refine ⟨⟨?_, ?_⟩, ?_⟩
  · intro j q hq
    rw [hon] at hq
    rw [htran]
    split_ifs at hq with e
    · rw [if_pos (Option.some.inj hq).symm, e]
    · rw [if_neg (hold j q hq)]
      exact h.tran j q hq
  · intro j q hq
    rw [hon] at hq
    rw [hn]
    split_ifs at hq with e
    · obtain rfl := Option.some.inj hq
      exact Nat.lt_succ_self _
    · exact Nat.lt_succ_of_lt (h.lt j q hq)
  · funext j
    simp only [roster, Roster.add, ht, Option.map_none, Function.update_apply, hon]
    split_ifs with e
    · simp [hs]
    · cases hj : s.onlines[j]? with
      | none => rfl
      | some q => simp [hs, hold j q hj]

theorem same_setChannel (s : St) (p : ℕ) (c : ℤ) : SameSeats s (s.modSess p fun u => { u with channel := c }) :=
  same_modSess s p _ fun _ => ⟨rfl, rfl, rfl, rfl⟩

theorem roster_addUser {s : St} (h : Own s) (g t a : ℕ) (c : ℤ) :
    Own (parseAddUser s g t a c) ∧ roster (parseAddUser s g t a c) = (roster s).add g t a := by
  cases ht : s.onlines[t]? with
  | none =>
    obtain ⟨h1, h2, h3, h4, h5⟩ := newSession_seats s t a g
    have hopen := roster_open (u := { (newSession s t a g).2 with
      onlines := (newSession s t a g).2.onlines.insertIfNew t (newSession s t a g).1 }) h ht (by rw [h2, h1]) h3 h4 h5
    have hchan := same_setChannel { (newSession s t a g).2 with
      onlines := (newSession s t a g).2.onlines.insertIfNew t (newSession s t a g).1 } (newSession s t a g).1 c
    simp only [parseAddUser, addUser, ht]
    exact ⟨hchan.own hopen.1, hchan.roster.trans hopen.2⟩
  | some p =>
    have hr : roster s t = some (seat s p) := by simp [roster, ht]
    simp only [parseAddUser, addUser, ht]
    split_ifs with hsame
    · obtain ⟨h1, h2, h3, h4⟩ := setReconnet_seats s p
      have hown : Own (setReconnet s p) :=
        ⟨fun j q hq => by rw [h3]; exact h.tran j q (h1 ▸ hq), fun j q hq => by rw [h2]; exact h.lt j q (h1 ▸ hq)⟩
      have hchan := same_setChannel (setReconnet s p) p c
      refine ⟨hchan.own hown, hchan.roster.trans ?_⟩
      have hseat : (seat s p).gate = g ∧ (seat s p).account = a := hsame
      rw [roster_update h ht h1 (fun x => { x with online := true }) h4]
      simp only [Roster.add, hr, hseat, and_self, if_true]
    · have hseat : ¬((seat s p).gate = g ∧ (seat s p).account = a) := hsame
      refine ⟨⟨h.tran, h.lt⟩, ?_⟩
      simp only [Roster.add, hr, hseat, if_false]
      rw [← hr, Function.update_eq_self]
      rfl

theorem roster_offlineUser {s : St} (h : Own s) (t : ℕ) :
    Own (offlineUser s t) ∧ roster (offlineUser s t) = (roster s).offline t := by
  cases ht : s.onlines[t]? with
  | none =>
    have hr : roster s t = none := by simp [roster, ht]
    simp only [offlineUser, ht, Roster.offline, hr, Option.map_none]
    rw [← hr, Function.update_eq_self]
    exact ⟨h, rfl⟩
  | some p =>
    have hr : roster s t = some (seat s p) := by simp [roster, ht]
    obtain ⟨h1, h2, h3, h4⟩ := setWaitReconnet_seats s p
    simp only [offlineUser, ht]
    refine ⟨⟨fun j q hq => by rw [h3]; exact h.tran j q (h1 ▸ hq),
      fun j q hq => by rw [h2]; exact h.lt j q (h1 ▸ hq)⟩, ?_⟩
    rw [roster_update h ht h1 (fun x => { x with online := false }) h4]
    simp only [Roster.offline, hr, Option.map_some]

theorem roster_removeUser {s : St} (h : Own s) (t : ℕ) :
    Own (removeUser s t) ∧ roster (removeUser s t) = (roster s).remove t := by
  cases ht : s.onlines[t]? with
  | none =>
    have hr : roster s t = none := by simp [roster, ht]
    simp only [removeUser, ht, Roster.remove]
    rw [← hr, Function.update_eq_self]
    exact ⟨h, rfl⟩
  | some p =>
    simp only [removeUser, ht]
    exact ⟨own_dropUser h t p, roster_dropUser s t p⟩

/-! ## The refinement -/

/-- **The roster is what the gate manager does.** Every event of the game server acts on the roster as the abstract
operation, and no two ids come to share a session object. -/
theorem roster_step (s : St) (o : Op) (h : Own s) : Own (step s o) ∧ roster (step s o) = (roster s).step o := by
  cases o with
  | addUser g t a c => exact roster_addUser h g t a c
  | removeUser t => exact roster_removeUser h t
  | offlineUser t => exact roster_offlineUser h t
  | removeUserByGate g => exact ⟨own_removeLoop g h _, roster_removeUserByGate s g⟩
  | queryHeroInfo t i =>
    have e := same_internal s (.queryHeroInfo t i) trivial
    exact ⟨e.own h, e.roster⟩
  | needCreateHero t =>
    have e := same_internal s (.needCreateHero t) trivial
    exact ⟨e.own h, e.roster⟩
  | clientMsg t =>
    have e := same_internal s (.clientMsg t) trivial
    exact ⟨e.own h, e.roster⟩
  | fireDestroy x =>
    have e := same_internal s (.fireDestroy x) trivial
    exact ⟨e.own h, e.roster⟩

theorem own_init : Own init := ⟨by simp [init], by simp [init]⟩

/-- no two ids ever share a session object -/
theorem own_run (ops : List Op) : Own (run step init ops) :=
  inv_run_all (fun s o h => (roster_step s o h).1) ops own_init

/-- the roster of a run is the abstract run -/
theorem roster_run (ops : List Op) {s : St} (h : Own s) :
    roster (run step s ops) = run Roster.step (roster s) ops := by
  induction ops generalizing s with
  | nil => rfl
  | cons o ops ih =>
    obtain ⟨h1, h2⟩ := roster_step s o h
    rw [run_cons, run_cons, ih h1, h2]

end DreamHeroes.GameServer

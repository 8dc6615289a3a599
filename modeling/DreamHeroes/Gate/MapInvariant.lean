/-
Which events keep the five maps of the user manager consistent.

`MapInv` is what the maps are meant to say: a transaction id is waiting, online or parked for a reconnect, and in one of
these places only; the two wait maps have the same keys; an online id belongs to exactly one account and every account
of `onlineaccs` is online or parked; the session stored for an online id is the one that last passed `checkConn` for it
and carries its id.

The code does not keep it. `addData` never overwrites, `kickUser` and `checkClose` return before they have visited every
map, and a timer armed for an earlier life of an id fires in the next one. `Safe` says, event by event, what goes wrong
where:

- `mapInv_step`: in a state of the invariant an event keeps it exactly when it is `Safe`.
- `LoopsRight`: the erase loops that an event runs do what they are for. With the branches for `WIN32` they always do
  (`loopsRight_win32`); with the others exactly when nothing matches (`loopsRight_iff`), and what a match leads to is
  not defined.
- `mapInv_iff_safe`: with either branches, a run from the empty manager stays defined and keeps the invariant in every
  state exactly when all its events are `Safe` and their loops are right.
- `parked_wait_breaks`: an id that is announced again while it is parked is in two maps.
-/
import Mathlib.Tactic
import DreamHeroes.Common.EraseLoops
import DreamHeroes.Gate.UserManager

namespace DreamHeroes.Gate

open DreamHeroes.Lib

/-! ## The invariant and its guard -/

structure MapInv (s : St) : Prop where
  keys : ∀ t : ℕ, s.waitMapChannel[t]? = none ↔ s.waitMap[t]? = none
  onWait : ∀ t : ℕ, s.onlines[t]? = none ∨ s.waitMap[t]? = none
  onRecon : ∀ t : ℕ, s.onlines[t]? = none ∨ s.reconMap[t]? = none
  waitRecon : ∀ t : ℕ, s.waitMap[t]? = none ∨ s.reconMap[t]? = none
  account : ∀ t : ℕ, s.onlines[t]? ≠ none → ∃! a : ℕ, s.onlineaccs[a]? = some t
  owner : ∀ a t : ℕ, s.onlineaccs[a]? = some t → s.onlines[t]? ≠ none ∨ s.reconMap[t]? ≠ none
  last : ∀ t p : ℕ, s.onlines[t]? = some p → s.passed t = some p ∧ (s.sess p).tranid = t

/-- the account `v` of a waiting id belongs to no online id -/
def WaitFree (s : St) (t : ℕ) : Prop :=
  ∀ v t' : ℕ, s.waitMap[t]? = some v → v ≠ invalidAccount → s.onlineaccs[v]? = some t' → s.onlines[t']? = none

/-- the session holds no online id besides the one it is about to log in with -/
def Unbound (s : St) (p : ℕ) : Prop := s.onlines[(s.sess p).tranid]? ≠ some p

/-- what an event has to meet for the maps to stay consistent -/
def Safe (s : St) : Op → Prop
  | .addToWait t a _ => s.reconMap[t]? = none ∧ (s.onlines[t]? ≠ none → s.onlineaccs[a]? = some t)
  | .kickUser t a =>
    if s.onlines[t]? ≠ none then s.onlineaccs[a]? = some t
    else WaitFree s t ∧ (s.reconMap[t]? ≠ none → ∀ a' : ℕ, s.onlineaccs[a']? ≠ some t)
  | .loginGame p t =>
    (s.sess p).state = .disable ∨ (s.sess p).state = .connect ∨
      match s.waitMap[t]? with
      | some v => getIdleGameClient s = none ∨ (s.onlineaccs[v]? = none ∧ Unbound s p)
      | none => s.reconMap[t]? = none ∨ ((∃! a : ℕ, s.onlineaccs[a]? = some t) ∧ Unbound s p)
  | .onClose p =>
    (s.sess p).state = .connect → (getGameClient s (s.sess p).gsId).isSome → s.waitMap[(s.sess p).tranid]? = none
  | .fireRemoveReconn t => t ∈ s.reconTimers → s.onlines[t]? = none
  | .gameClose gs =>
    (getGameClient s gs).isSome → ∀ t a : ℕ, s.reconMap[t]? = some gs → s.onlineaccs[a]? ≠ some t
  | _ => True

theorem mapInv_init (n : ℕ) : MapInv (init n) := by
  constructor <;> simp [init]

/-! ## One event at a time -/

/-- the invariant reads the five maps, the ids in the sessions and `passed`, and nothing else -/
theorem mapInv_congr {s s' : St} (ho : s'.onlines = s.onlines) (ha : s'.onlineaccs = s.onlineaccs)
    (hw : s'.waitMap = s.waitMap) (hc : s'.waitMapChannel = s.waitMapChannel) (hr : s'.reconMap = s.reconMap)
    (hp : s'.passed = s.passed) (ht : ∀ p, (s'.sess p).tranid = (s.sess p).tranid) (h : MapInv s) : MapInv s' := by
  constructor <;> simp only [ho, ha, hw, hc, hr, hp, ht]
  exacts [h.keys, h.onWait, h.onRecon, h.waitRecon, h.account, h.owner, h.last]

/-- `setState` forgets the id only when the session is given back to the pool -/
theorem setState_tranid (u : UserSession) (x : SessionState) (hx : x ≠ .disable) :
    (u.setState x).tranid = u.tranid := by
  cases x <;> first | rfl | exact absurd rfl hx

theorem modSess_tranid (s : St) (p q : ℕ) (f : UserSession → UserSession)
    (hf : ∀ u, (f u).tranid = u.tranid) : ((s.modSess p f).sess q).tranid = (s.sess q).tranid := by
  by_cases hq : q = p
  · subst hq; simp [St.modSess, hf]
  · simp [St.modSess, hq]

theorem mapInv_modSess {s : St} (p : ℕ) (f : UserSession → UserSession) (hf : ∀ u, (f u).tranid = u.tranid)
    (h : MapInv s) : MapInv (s.modSess p f) :=
  mapInv_congr (s := s) rfl rfl rfl rfl rfl rfl (fun q => modSess_tranid s p q f hf) h

/-- an id that is neither online nor parked has no account -/
theorem MapInv.no_account {s : St} (h : MapInv s) {t : ℕ} (ho : s.onlines[t]? = none) (hr : s.reconMap[t]? = none)
    (a : ℕ) : s.onlineaccs[a]? ≠ some t := fun ha => (h.owner a t ha).elim (· ho) (· hr)

/-- the waiting timer is always harmless -/
theorem mapInv_removeWait {s : St} (h : MapInv s) (t : ℕ) : MapInv (eventCallRemoveWait s t) where
  keys := SameKeys.erase h.keys t
  onWait := (Apart.erase (Apart.symm h.onWait) t).symm
  onRecon := h.onRecon
  waitRecon := Apart.erase h.waitRecon t
  account := h.account
  owner := h.owner
  last := h.last

/-- once `t` is gone from `onlines` and `reconMap`, the one account erased with it was the account of `t` -/
theorem kick_account {s s' : St} (h' : MapInv s') {t a a0 : ℕ} (ho : s'.onlines[t]? = none)
    (hr : s'.reconMap[t]? = none) (ha : s'.onlineaccs = s.onlineaccs.erase a) (ha0 : s.onlineaccs[a0]? = some t) :
    s.onlineaccs[a]? = some t := by
  by_cases e : a0 = a
  · exact e ▸ ha0
  · exact absurd (by simpa only [ha, get_erase, e, if_false] using ha0) (h'.no_account ho hr a0)

/-- the kick of an online id, `toGame` aside -/
theorem mapInv_kick_online {s : St} (h : MapInv s) (t a : ℕ) (ht : s.onlines[t]? ≠ none) :
    MapInv { s with onlines := s.onlines.erase t, onlineaccs := s.onlineaccs.erase a } ↔
      s.onlineaccs[a]? = some t := by
  have hr : s.reconMap[t]? = none := (h.onRecon t).resolve_left ht
  obtain ⟨a0, ha0, huniq⟩ := h.account t ht
  constructor
  · intro h'
    exact kick_account h' (by simp) hr rfl ha0
  · intro ha
    have hkeep : ∀ j b : ℕ, j ≠ t → s.onlineaccs[b]? = some j → b ≠ a := by
      rintro j b hj hb rfl
      exact hj (Option.some.inj (hb.symm.trans ha))
    refine { h with onWait := Apart.erase h.onWait t, onRecon := Apart.erase h.onRecon t, account := ?_,
                    owner := ?_, last := ?_ }
    · intro j hj
      obtain ⟨hjt, hon⟩ := (get_erase_ne_none _ t j).1 hj
      refine (existsUnique_congr ?_).2 (h.account j hon)
      intro b
      rw [get_erase_eq_some]
      exact and_iff_right_of_imp (hkeep j b hjt)
    · intro b j hb
      obtain ⟨hba, hbj⟩ := (get_erase_eq_some _ a b j).1 hb
      have hjt : j ≠ t := by
        rintro rfl
        exact hba ((huniq b hbj).trans (huniq a ha).symm)
      exact (h.owner b j hbj).imp_left fun hon => (get_erase_ne_none _ t j).2 ⟨hjt, hon⟩
    · intro j p hp
      exact h.last j p ((get_erase_eq_some _ t j p).1 hp).2

/-- the kick of an id that is not online: `acc'` is what is left of `onlineaccs`, `rec'` of `reconMap` -/
theorem mapInv_kick_offline {s : St} (h : MapInv s) (t : ℕ) (ht : s.onlines[t]? = none)
    (acc' rec' : Std.TreeMap ℕ ℕ)
    (hacc : ∀ b : ℕ, acc'[b]? = if s.waitMap[t]? = some b ∧ b ≠ invalidAccount then none else s.onlineaccs[b]?)
    (hrec : ∀ j : ℕ, rec'[j]? = if j = t then none else s.reconMap[j]?) :
    MapInv { s with waitMap := s.waitMap.erase t, waitMapChannel := s.waitMapChannel.erase t, onlineaccs := acc',
                    reconMap := rec' } ↔
      WaitFree s t ∧ (s.reconMap[t]? ≠ none → ∀ a : ℕ, s.onlineaccs[a]? ≠ some t) := by
  constructor
  · intro h'
    refine ⟨?_, ?_⟩
    · intro v t' hv hv0 hacc'
      -- the account of the waiting id is gone, so the id it carried may not be online
      by_contra ho
      obtain ⟨b, hb, -⟩ := h'.account t' ho
      obtain ⟨b0, hb0, huniq⟩ := h.account t' ho
      have hb' : acc'[b]? = some t' := hb
      rw [hacc] at hb'
      split_ifs at hb' with hgone
      have hbv : b = v := (huniq b hb').trans (huniq v hacc').symm
      exact hgone (hbv ▸ ⟨hv, hv0⟩)
    · intro hr a ha
      have hw : s.waitMap[t]? = none := (h.waitRecon t).resolve_right hr
      have hkept : acc'[a]? = some t := by
        rw [hacc, if_neg (by simp [hw]), ha]
      rcases h'.owner a t hkept with hon | hre
      · exact hon ht
      · exact hre (by rw [hrec, if_pos rfl])
  · rintro ⟨hfree, hgone⟩
    have hnone : ∀ j : ℕ, s.reconMap[j]? = none → rec'[j]? = none := by
      intro j hj
      rw [hrec]
      split_ifs
      · rfl
      · exact hj
    have hheld : ∀ b j : ℕ, acc'[b]? = some j → s.onlineaccs[b]? = some j := by
      intro b j hb
      rw [hacc] at hb
      split_ifs at hb
      exact hb
    refine { h with keys := SameKeys.erase h.keys t, onWait := (Apart.erase (Apart.symm h.onWait) t).symm,
                    onRecon := fun j => (h.onRecon j).imp_right (hnone j),
                    waitRecon := fun j => (Apart.erase h.waitRecon t j).imp_right (hnone j),
                    account := ?_, owner := ?_ }
    · intro j hj
      obtain ⟨b, hb, huniq⟩ := h.account j hj
      refine ⟨b, ?_, fun b' hb' => huniq b' (hheld b' j hb')⟩
      dsimp only
      rw [hacc, if_neg fun hc => hj (hfree b j hc.1 hc.2 hb), hb]
    · intro b j hb
      have hbj := hheld b j hb
      apply (h.owner b j hbj).imp_right
      intro hre
      have hjt : j ≠ t := by
        rintro rfl
        exact hgone hre b hbj
      dsimp only
      rw [hrec, if_neg hjt]
      exact hre

theorem mapInv_kickUser {s : St} (h : MapInv s) (t a : ℕ) :
    MapInv (kickUser s t a) ↔ Safe s (.kickUser t a) := by
  cases ho : s.onlines[t]? with
  | some p =>
    have hsafe : Safe s (.kickUser t a) ↔ s.onlineaccs[a]? = some t := by simp [Safe, ho]
    rw [hsafe, ← mapInv_kick_online h t a (by simp [ho])]
    simp only [kickUser, ho, removePlayer, sendActive]
    exact ⟨mapInv_congr rfl rfl rfl rfl rfl rfl fun _ => rfl, mapInv_congr rfl rfl rfl rfl rfl rfl fun _ => rfl⟩
  | none =>
    have hsafe : Safe s (.kickUser t a) ↔
        WaitFree s t ∧ (s.reconMap[t]? ≠ none → ∀ a : ℕ, s.onlineaccs[a]? ≠ some t) := by simp [Safe, ho]
    set v := s.waitMap[t]?.getD invalidAccount with hv
    have hacc : ∀ b : ℕ, (if v ≠ invalidAccount then s.onlineaccs.erase v else s.onlineaccs)[b]? =
        if s.waitMap[t]? = some b ∧ b ≠ invalidAccount then none else s.onlineaccs[b]? := by
      intro b
      cases hw : s.waitMap[t]? with
      | none => simp [hv, hw]
      | some w =>
        have hvw : v = w := by simp [hv, hw]
        rw [hvw]
        by_cases hw0 : w = invalidAccount
        · rw [if_neg (not_not.2 hw0), if_neg fun hc => hc.2 (Option.some.inj hc.1 ▸ hw0)]
        · rw [if_pos hw0, get_erase]
          by_cases hb : b = w
          · rw [if_pos hb, if_pos ⟨by rw [hb], hb ▸ hw0⟩]
          · rw [if_neg hb, if_neg fun hc => hb (Option.some.inj hc.1).symm]
    cases hr : s.reconMap[t]? with
    | some gs =>
      rw [hsafe, ← mapInv_kick_offline h t ho _ (s.reconMap.erase t) hacc (get_erase _ t)]
      simp only [kickUser, ho, hr, removePlayer, sendActive]
      exact ⟨mapInv_congr rfl rfl rfl rfl rfl rfl fun _ => rfl, mapInv_congr rfl rfl rfl rfl rfl rfl fun _ => rfl⟩
    | none =>
      have hrec : ∀ j : ℕ, s.reconMap[j]? = if j = t then none else s.reconMap[j]? := by
        intro j
        split_ifs with hj
        · rw [hj, hr]
        · rfl
      rw [hsafe, ← mapInv_kick_offline h t ho _ s.reconMap hacc hrec]
      simp only [kickUser, ho, hr, hv]

/-- an id that is not online enters the wait maps -/
theorem mapInv_enterWait {s : St} (h : MapInv s) (t a : ℕ) (c : ℤ) (ho : s.onlines[t]? = none) :
    MapInv { s with waitMap := s.waitMap.insertIfNew t a, waitMapChannel := s.waitMapChannel.insertIfNew t c } ↔
      s.reconMap[t]? = none := by
  constructor
  · intro h'
    exact (h'.waitRecon t).resolve_left (get_insertIfNew_self_ne_none _ t a)
  · intro hr
    exact { h with keys := SameKeys.insertIfNew h.keys t c a,
                   onWait := (Apart.insertIfNew (Apart.symm h.onWait) a ho).symm,
                   waitRecon := Apart.insertIfNew h.waitRecon a hr }

theorem mapInv_addToWait {s : St} (h : MapInv s) (t a : ℕ) (c : ℤ) :
    MapInv (addToWait s t a c) ↔ Safe s (.addToWait t a c) := by
  cases ho : s.onlines[t]? with
  | none =>
    simp only [Safe, ho, ne_eq, not_true_eq_false, false_implies, and_true]
    rw [← mapInv_enterWait h t a c ho]
    simp only [addToWait, ho]
    exact ⟨mapInv_congr rfl rfl rfl rfl rfl rfl fun _ => rfl, mapInv_congr rfl rfl rfl rfl rfl rfl fun _ => rfl⟩
  | some p =>
    have hr : s.reconMap[t]? = none := (h.onRecon t).resolve_left (by simp [ho])
    have hmod : MapInv (s.modSess p fun u => { u with channel := c }) := mapInv_modSess p _ (fun _ => rfl) h
    set s1 := s.modSess p fun u => { u with channel := c } with hs1
    have ho1 : s1.onlines[t]? = some p := ho
    have hkick : MapInv (kickUser s1 t a) ↔ s.onlineaccs[a]? = some t := by
      rw [mapInv_kickUser hmod]
      simp only [Safe, ho1, ne_eq, reduceCtorEq, not_false_eq_true, if_true]
      rfl
    have hk1 : (kickUser s1 t a).onlines = s.onlines.erase t := by simp only [kickUser, ho1]; rfl
    have hk2 : (kickUser s1 t a).reconMap = s.reconMap := by simp only [kickUser, ho1]; rfl
    have hk3 : (kickUser s1 t a).onlineaccs = s.onlineaccs.erase a := by simp only [kickUser, ho1]; rfl
    simp only [Safe, ho, hr, ne_eq, reduceCtorEq, not_false_eq_true, true_and, forall_const]
    simp only [addToWait, ho, ← hs1]
    constructor
    · intro h'
      obtain ⟨a0, ha0, -⟩ := h.account t (by simp [ho])
      exact kick_account h' (by simp [hk1]) (by simp only [hk2, hr]) hk3 ha0
    · intro ha
      have h1 := (mapInv_enterWait (hkick.2 ha) t a c (by simp [hk1])).2 (by simp only [hk2, hr])
      refine mapInv_congr ?_ ?_ ?_ ?_ ?_ ?_ (fun _ => ?_) h1 <;> rfl

section

variable {s s' : St} {t p : ℕ} (ho : s'.onlines = s.onlines.insertIfNew t p)
  (hp : s'.passed = Function.update s.passed t (some p))
  (ht : ∀ q, (s'.sess q).tranid = if q = p then t else (s.sess q).tranid)

include ho ht in
/-- a session that logs in with one id may not be online under another -/
theorem unbound_of_login (h' : MapInv s') (hon : s.onlines[t]? = none) : Unbound s p := by
  intro hq
  have hne : (s.sess p).tranid ≠ t := by
    intro heq
    rw [heq, hon] at hq
    cases hq
  have hlast := h'.last (s.sess p).tranid p (by rw [ho, get_insertIfNew_eq_some hon]; exact .inr ⟨hne, hq⟩)
  rw [ht, if_pos rfl] at hlast
  exact hne hlast.2.symm

include ho hp ht in
/-- the sessions of the online ids after a login -/
theorem last_of_login (h : MapInv s) (hon : s.onlines[t]? = none) (hunbound : Unbound s p) (j q : ℕ)
    (hq : s'.onlines[j]? = some q) : s'.passed j = some q ∧ (s'.sess q).tranid = j := by
  rw [ho, get_insertIfNew_eq_some hon] at hq
  rw [hp, ht]
  rcases hq with ⟨rfl, rfl⟩ | ⟨hj, hq⟩
  · rw [Function.update_self, if_pos rfl]
    exact ⟨rfl, rfl⟩
  · obtain ⟨hpassed, htranid⟩ := h.last j q hq
    have hqp : q ≠ p := by
      rintro rfl
      rw [← htranid] at hq
      exact hunbound hq
    rw [Function.update_of_ne hj, if_neg hqp]
    exact ⟨hpassed, htranid⟩

end

/-- `checkConn` passes a waiting id: `s'` is `s` with the session `p` online under `t` -/
theorem mapInv_login_wait {s s' : St} (h : MapInv s) {t v p : ℕ} (hw : s.waitMap[t]? = some v)
    (ho : s'.onlines = s.onlines.insertIfNew t p) (ha : s'.onlineaccs = s.onlineaccs.insertIfNew v t)
    (hwm : s'.waitMap = s.waitMap.erase t) (hwc : s'.waitMapChannel = s.waitMapChannel.erase t)
    (hr : s'.reconMap = s.reconMap) (hp : s'.passed = Function.update s.passed t (some p))
    (ht : ∀ q, (s'.sess q).tranid = if q = p then t else (s.sess q).tranid) :
    MapInv s' ↔ s.onlineaccs[v]? = none ∧ Unbound s p := by
  have hon : s.onlines[t]? = none := (h.onWait t).resolve_right (by simp [hw])
  have hre : s.reconMap[t]? = none := (h.waitRecon t).resolve_left (by simp [hw])
  have hno := h.no_account hon hre
  constructor
  · intro h'
    refine ⟨?_, unbound_of_login ho ht h' hon⟩
    obtain ⟨b, hb, -⟩ := h'.account t (by rw [ho]; exact get_insertIfNew_self_ne_none _ t p)
    by_contra hv
    have hb' : s'.onlineaccs[b]? = some t := hb
    rw [ha, get_insertIfNew, if_neg fun hc => hv hc.2] at hb'
    exact hno b hb'
  · rintro ⟨hv, hunbound⟩
    refine ⟨?_, ?_, ?_, ?_, ?_, ?_, last_of_login ho hp ht h hon hunbound⟩
    · rw [hwm, hwc]
      exact SameKeys.erase h.keys t
    · rw [ho, hwm]
      exact Apart.move h.onWait t p
    · rw [ho, hr]
      exact Apart.insertIfNew h.onRecon p hre
    · rw [hwm, hr]
      exact Apart.erase h.waitRecon t
    · intro j hj
      rw [ha]
      by_cases hjt : j = t
      · subst hjt
        refine ⟨v, (get_insertIfNew_eq_some hv v j j).2 (.inl ⟨rfl, rfl⟩), ?_⟩
        intro b hb
        rcases (get_insertIfNew_eq_some hv b j j).1 hb with ⟨hbv, -⟩ | ⟨-, hold⟩
        · exact hbv
        · exact absurd hold (hno b)
      · rw [ho, get_insertIfNew, if_neg fun hc => hjt hc.1] at hj
        refine (existsUnique_congr ?_).2 (h.account j hj)
        intro b
        rw [get_insertIfNew_eq_some hv]
        constructor
        · rintro (⟨-, htj⟩ | ⟨-, hb⟩)
          · exact absurd htj.symm hjt
          · exact hb
        · intro hb
          refine .inr ⟨?_, hb⟩
          rintro rfl
          rw [hv] at hb
          cases hb
    · intro b j hb
      rw [ha, get_insertIfNew_eq_some hv] at hb
      rw [ho, hr]
      rcases hb with ⟨-, rfl⟩ | ⟨-, hb⟩
      · exact .inl (get_insertIfNew_self_ne_none _ _ p)
      · exact (h.owner b j hb).imp_left fun hj => get_insertIfNew_ne_none hj t p

/-- `checkConn` takes a parked id back: `s'` is `s` with the session `p` online under `t` -/
theorem mapInv_login_recon {s s' : St} (h : MapInv s) {t gs p : ℕ} (hr : s.reconMap[t]? = some gs)
    (ho : s'.onlines = s.onlines.insertIfNew t p) (ha : s'.onlineaccs = s.onlineaccs)
    (hwm : s'.waitMap = s.waitMap) (hwc : s'.waitMapChannel = s.waitMapChannel)
    (hr' : s'.reconMap = s.reconMap.erase t) (hp : s'.passed = Function.update s.passed t (some p))
    (ht : ∀ q, (s'.sess q).tranid = if q = p then t else (s.sess q).tranid) :
    MapInv s' ↔ (∃! a : ℕ, s.onlineaccs[a]? = some t) ∧ Unbound s p := by
  have hon : s.onlines[t]? = none := (h.onRecon t).resolve_right (by simp [hr])
  have hwa : s.waitMap[t]? = none := (h.waitRecon t).resolve_right (by simp [hr])
  constructor
  · intro h'
    refine ⟨?_, unbound_of_login ho ht h' hon⟩
    have haccount := h'.account t (by rw [ho]; exact get_insertIfNew_self_ne_none _ t p)
    rwa [ha] at haccount
  · rintro ⟨hv, hunbound⟩
    refine ⟨?_, ?_, ?_, ?_, ?_, ?_, last_of_login ho hp ht h hon hunbound⟩
    · rw [hwm, hwc]
      exact h.keys
    · rw [ho, hwm]
      exact Apart.insertIfNew h.onWait p hwa
    · rw [ho, hr']
      exact Apart.move h.onRecon t p
    · rw [hwm, hr']
      exact (Apart.erase (Apart.symm h.waitRecon) t).symm
    · intro j hj
      rw [ha]
      by_cases hjt : j = t
      · exact hjt ▸ hv
      · rw [ho, get_insertIfNew, if_neg fun hc => hjt hc.1] at hj
        exact h.account j hj
    · intro b j hb
      rw [ha] at hb
      rw [ho, hr']
      by_cases hjt : j = t
      · exact .inl (hjt ▸ get_insertIfNew_self_ne_none _ _ p)
      · rcases h.owner b j hb with hj | hj
        · exact .inl (get_insertIfNew_ne_none hj t p)
        · exact .inr ((get_erase_ne_none _ t j).2 ⟨hjt, hj⟩)

theorem mapInv_parseLoginGame {s : St} (h : MapInv s) (p t : ℕ) (hd : (s.sess p).state ≠ .disable) :
    MapInv (parseLoginGame s p t) ↔ Safe s (.loginGame p t) := by
  have hclose : ∀ u : UserSession, (u.setState .waitClose).tranid = u.tranid :=
    fun u => setState_tranid u _ (by decide)
  by_cases hc : (s.sess p).state = .connect
  · simp [parseLoginGame, Safe, hc, h]
  cases hw : s.waitMap[t]? with
  | some v =>
    cases hg : getIdleGameClient s with
    | none =>
      simp only [parseLoginGame_noIdle hc hw hg, Safe, hw, hg, true_or, or_true, iff_true]
      exact mapInv_modSess p _ hclose (mapInv_removeWait h t)
    | some gs =>
      simp only [parseLoginGame_wait hc hw hg, Safe, hd, hc, hw, hg, reduceCtorEq, false_or]
      exact mapInv_login_wait h hw rfl rfl rfl rfl rfl rfl fun q => by by_cases e : q = p <;> simp [passWait, e]
  | none =>
    cases hr : s.reconMap[t]? with
    | some gs =>
      simp only [parseLoginGame_recon hc hw hr, Safe, hd, hc, hw, hr, reduceCtorEq, false_or]
      exact mapInv_login_recon h hr rfl rfl rfl rfl rfl rfl fun q => by by_cases e : q = p <;> simp [passRecon, e]
    | none =>
      simp only [parseLoginGame_unknown hc hw hr, Safe, hw, hr, true_or, or_true, iff_true]
      exact mapInv_modSess p _ hclose h

/-- erasing the accounts of one id leaves the account of another alone -/
theorem account_eraseVal {m : Std.TreeMap ℕ ℕ} {t j : ℕ} (h : ∃! a : ℕ, m[a]? = some j) (hjt : j ≠ t) :
    ∃! a : ℕ, (eraseVal m t)[a]? = some j := by
  refine (existsUnique_congr ?_).2 h
  intro b
  rw [get_eraseVal_eq_some]
  exact and_iff_left hjt

theorem mapInv_onClose {s : St} (h : MapInv s) (p : ℕ) : MapInv (onClose s p) ↔ Safe s (.onClose p) := by
  set t := (s.sess p).tranid with ht
  -- the other online ids are those of other sessions
  have hlast : ∀ (u : UserSession) (j q : ℕ), (s.onlines.erase t)[j]? = some q →
      s.passed j = some q ∧ (Function.update s.sess p u q).tranid = j := by
    intro u j q hq
    obtain ⟨hjt, hjq⟩ := (get_erase_eq_some _ t j q).1 hq
    have hqp : q ≠ p := by
      rintro rfl
      exact hjt (h.last j q hjq).2.symm
    rw [Function.update_of_ne hqp]
    exact h.last j q hjq
  by_cases hb : (getGameClient s (s.sess p).gsId).isSome ∧ (s.sess p).state = .connect
  · -- the id is parked
    have hsafe : Safe s (.onClose p) ↔ s.waitMap[t]? = none := by simp [Safe, hb.1, hb.2, ht]
    have hb' : (getGameClient { s with onlines := s.onlines.erase t } (s.sess p).gsId).isSome := hb.1
    rw [hsafe]
    simp only [onClose, checkClose, ← ht, hb', hb.2, and_self, if_true, offlinePlayer, sendGame]
    constructor
    · intro h'
      exact (h'.waitRecon t).resolve_right (get_insertIfNew_self_ne_none _ t _)
    · intro hw
      refine ⟨h.keys, Apart.erase h.onWait t, (Apart.move (Apart.symm h.onRecon) t _).symm,
        (Apart.insertIfNew (Apart.symm h.waitRecon) _ hw).symm,
        fun j hj => h.account j ((get_erase_ne_none _ t j).1 hj).2, ?_, hlast _⟩
      intro b j hb
      by_cases hjt : j = t
      · exact .inr (hjt ▸ get_insertIfNew_self_ne_none _ t _)
      · exact (h.owner b j hb).imp (fun hj => (get_erase_ne_none _ t j).2 ⟨hjt, hj⟩)
          fun hj => get_insertIfNew_ne_none hj t _
  · -- the id is forgotten
    have hsafe : Safe s (.onClose p) := fun hc hg => absurd ⟨hg, hc⟩ hb
    have hb' : ¬((getGameClient { s with onlines := s.onlines.erase t } (s.sess p).gsId).isSome ∧
        (s.sess p).state = .connect) := hb
    simp only [hsafe, iff_true]
    simp only [onClose, checkClose, ← ht, hb', if_false, removePlayer, sendActive]
    refine ⟨h.keys, Apart.erase h.onWait t, Apart.erase h.onRecon t, h.waitRecon, ?_, ?_,
      hlast _⟩
    · intro j hj
      obtain ⟨hjt, hon⟩ := (get_erase_ne_none _ t j).1 hj
      exact account_eraseVal (h.account j hon) hjt
    · intro b j hb
      obtain ⟨hbj, hjt⟩ := (get_eraseVal_eq_some _ t j b).1 hb
      exact (h.owner b j hbj).imp_left fun hj => (get_erase_ne_none _ t j).2 ⟨hjt, hj⟩

theorem mapInv_removeReconn {s : St} (h : MapInv s) (t : ℕ) :
    MapInv (eventCallRemoveReconn s t) ↔ s.onlines[t]? = none := by
  have hmaps : MapInv (eventCallRemoveReconn s t) ↔
      MapInv { s with reconMap := s.reconMap.erase t, onlineaccs := eraseVal s.onlineaccs t } := by
    simp only [eventCallRemoveReconn, removePlayer, sendActive]
    split_ifs <;>
      exact ⟨mapInv_congr rfl rfl rfl rfl rfl rfl fun _ => rfl, mapInv_congr rfl rfl rfl rfl rfl rfl fun _ => rfl⟩
  rw [hmaps]
  constructor
  · intro h'
    by_contra ht
    obtain ⟨a, ha, -⟩ := h'.account t ht
    exact ((get_eraseVal_eq_some _ t t a).1 ha).2 rfl
  · intro ht
    refine { h with onRecon := (Apart.erase (Apart.symm h.onRecon) t).symm,
                    waitRecon := (Apart.erase (Apart.symm h.waitRecon) t).symm, account := ?_,
                    owner := ?_ }
    · intro j hj
      have hjt : j ≠ t := by
        rintro rfl
        exact hj ht
      exact account_eraseVal (h.account j hj) hjt
    · intro b j hb
      obtain ⟨hbj, hjt⟩ := (get_eraseVal_eq_some _ t j b).1 hb
      exact (h.owner b j hbj).imp_right fun hj => (get_erase_ne_none _ t j).2 ⟨hjt, hj⟩

/-- the loop of `removeUsers` only marks sessions -/
theorem removeUsers_tranid (gs : ℕ) (l : List (ℕ × ℕ)) (f : ℕ → UserSession) (q : ℕ) :
    ((l.foldl (fun sess e => if (sess e.2).gsId = gs then
        Function.update sess e.2 ((sess e.2).setState .waitClose) else sess) f) q).tranid = (f q).tranid := by
  induction l generalizing f with
  | nil => rfl
  | cons e l ih =>
    rw [List.foldl_cons, ih]
    split_ifs
    · by_cases hq : q = e.2
      · subst hq; simp [setState_tranid]
      · simp [hq]
    · rfl

theorem mapInv_removeActive {s : St} (h : MapInv s) (gs : ℕ) :
    MapInv (removeActiveGameClient s gs) ↔ Safe s (.gameClose gs) := by
  by_cases hg : (getGameClient s gs).isSome
  · have hmaps : MapInv (removeActiveGameClient s gs) ↔ MapInv { s with reconMap := eraseVal s.reconMap gs } := by
      simp only [removeActiveGameClient, hg, if_true, removeUsers, Std.TreeMap.foldl_eq_foldl_toList]
      exact ⟨mapInv_congr rfl rfl rfl rfl rfl rfl fun q => (removeUsers_tranid gs _ s.sess q).symm,
        mapInv_congr rfl rfl rfl rfl rfl rfl fun q => removeUsers_tranid gs _ s.sess q⟩
    rw [hmaps]
    simp only [Safe, hg, forall_const]
    constructor
    · intro h' t a ht ha
      have hon : s.onlines[t]? = none := (h.onRecon t).resolve_right (by simp [ht])
      rcases h'.owner a t ha with hj | hj
      · exact hj hon
      · exact hj (by rw [get_eraseVal, if_pos ht])
    · intro hs
      refine { h with onRecon := (Apart.eraseVal (Apart.symm h.onRecon) gs).symm,
                      waitRecon := (Apart.eraseVal (Apart.symm h.waitRecon) gs).symm, owner := ?_ }
      intro b j hb
      apply (h.owner b j hb).imp_right
      intro hj
      dsimp only
      rw [get_eraseVal, if_neg fun heq => hs j b heq hb]
      exact hj
  · simp [removeActiveGameClient, Safe, hg, h]

theorem mapInv_changeGS {s : St} (h : MapInv s) (gs t newGs : ℕ) : MapInv (parseChangeGS s gs t newGs) := by
  simp only [parseChangeGS]
  split
  · exact h
  · rename_i p hp
    split_ifs
    · exact h
    · exact mapInv_congr (s := s.modSess p fun u => { u with gsId := newGs }) rfl rfl rfl rfl rfl rfl (fun _ => rfl)
        (mapInv_modSess p _ (fun _ => rfl) h)
    · exact mapInv_congr (s := s) rfl rfl rfl rfl rfl rfl (fun _ => rfl) h

/-- **One event.** In a state of the invariant an event keeps it exactly when it is `Safe`. -/
theorem mapInv_step (s : St) (o : Op) (h : MapInv s) : Safe s o ↔ MapInv (step s o) := by
  cases o with
  | accept p =>
    simp only [Safe, step, true_iff]
    split_ifs
    · exact mapInv_modSess p _ (fun u => setState_tranid u _ (by decide)) h
    · exact h
  | addToWait t a c => exact (mapInv_addToWait h t a c).symm
  | kickUser t a => exact (mapInv_kickUser h t a).symm
  | loginGame p t =>
    by_cases hd : (s.sess p).state = .disable
    · simp [Safe, step, hd, h]
    · simp only [step, hd, if_false, mapInv_parseLoginGame h p t hd]
  | onClose p =>
    by_cases hd : (s.sess p).state = .disable
    · simp [Safe, step, hd, h]
    · simp only [step, hd, if_false, mapInv_onClose h p]
  | fireRemoveWait t =>
    simp only [Safe, step, true_iff]
    split_ifs
    · exact mapInv_removeWait (s := { s with waitTimers := s.waitTimers.erase t })
        (mapInv_congr (s := s) rfl rfl rfl rfl rfl rfl (fun _ => rfl) h) t
    · exact h
  | fireRemoveReconn t =>
    by_cases ht : t ∈ s.reconTimers
    · simp only [Safe, step, ht, if_true, forall_const]
      exact (mapInv_removeReconn (s := { s with reconTimers := s.reconTimers.erase t })
        (mapInv_congr (s := s) rfl rfl rfl rfl rfl rfl (fun _ => rfl) h) t).symm
    · simp [Safe, step, ht, h]
  | changeGS gs t newGs =>
    simp only [Safe, step, true_iff]
    split_ifs
    · exact mapInv_changeGS h gs t newGs
    · exact h
  | gameRegister gs =>
    simp only [Safe, step, true_iff]
    split_ifs <;> exact mapInv_congr (s := s) rfl rfl rfl rfl rfl rfl (fun _ => rfl) h
  | gameOnlines gs n =>
    simp only [Safe, step, true_iff]
    split_ifs <;> exact mapInv_congr (s := s) rfl rfl rfl rfl rfl rfl (fun _ => rfl) h
  | gameClose gs => exact (mapInv_removeActive h gs).symm

/-! ## The erase loops -/

/-- `checkClose` parks the id of the session -/
def Reconnectable (s : St) (p : ℕ) : Prop := (getGameClient s (s.sess p).gsId).isSome ∧ (s.sess p).state = .connect

/-- the loops that the event runs, with this branch of them, do what they are for -/
def LoopsRight (how : MapCursor.Advance) (s : St) : Op → Prop
  | .onClose p =>
    (s.sess p).state ≠ .disable → ¬Reconnectable s p → EraseLoops.EraseValueRight how s.onlineaccs (s.sess p).tranid
  | .fireRemoveReconn t => t ∈ s.reconTimers → EraseLoops.EraseValueRight how s.onlineaccs t
  | .gameClose gs => (getGameClient s gs).isSome → EraseLoops.RemoveUsersRight how s gs
  | _ => True

theorem loopsRight_win32 (s : St) (o : Op) : LoopsRight .returned s o := by
  cases o with
  | onClose p => exact fun _ _ => EraseLoops.eraseValue_win32
  | fireRemoveReconn t => exact fun _ => EraseLoops.eraseValue_win32
  | gameClose gs => exact fun _ => EraseLoops.removeUsers_win32
  | _ => trivial

/-- no entry matches in a loop that the event runs -/
def NoMatch (s : St) : Op → Prop
  | .onClose p =>
    (s.sess p).state ≠ .disable → ¬Reconnectable s p → ∀ a : ℕ, s.onlineaccs[a]? ≠ some (s.sess p).tranid
  | .fireRemoveReconn t => t ∈ s.reconTimers → ∀ a : ℕ, s.onlineaccs[a]? ≠ some t
  | .gameClose gs =>
    (getGameClient s gs).isSome →
      (∀ (t : ℕ) p, s.onlines[t]? = some p → (s.sess p).gsId ≠ gs) ∧ ∀ t : ℕ, s.reconMap[t]? ≠ some gs
  | _ => True

theorem loopsRight_iff (s : St) (o : Op) : LoopsRight .increment s o ↔ NoMatch s o := by
  cases o with
  | onClose p => exact imp_congr_right fun _ => imp_congr_right fun _ => EraseLoops.eraseValue_right_iff
  | fireRemoveReconn t => exact imp_congr_right fun _ => EraseLoops.eraseValue_right_iff
  | gameClose gs => exact imp_congr_right fun _ => EraseLoops.removeUsers_right_iff
  | _ => exact Iff.rfl

/-! ## Runs -/

/-- **The map invariant, exactly.** A run from the empty manager is defined and keeps the invariant in every state it
reaches exactly when every one of its events is `Safe` and runs its loops right. -/
theorem mapInv_iff_safe (how : MapCursor.Advance) (gsIdleMax : ℕ) (ops : List Op) :
    Along step (fun s o => Safe s o ∧ LoopsRight how s o) (init gsIdleMax) ops ↔
      Along step (LoopsRight how) (init gsIdleMax) ops ∧
        ∀ pre, pre <+: ops → MapInv (run step (init gsIdleMax) pre) := by
  rw [along_and, along_iff (fun s o _ => mapInv_step s o) (mapInv_init gsIdleMax), and_comm]

/-- login, and drop of the connection; then the id is announced once more -/
def parkedWait : List Op :=
  [.gameRegister 1, .accept 10, .addToWait 7 3 0, .loginGame 10 7, .onClose 10, .addToWait 7 3 0]

/-- no loop is run on the way -/
theorem loopsRight_parkedWait (how : MapCursor.Advance) : Along step (LoopsRight how) (init 100) parkedWait := by
  have hrecon :
    Reconnectable (run step (init 100) [.gameRegister 1, .accept 10, .addToWait 7 3 0, .loginGame 10 7]) 10 := by
    unfold Reconnectable
    decide
  exact ⟨trivial, trivial, trivial, trivial, fun _ hnot => absurd hrecon hnot, trivial, trivial⟩

/-- **An id in two maps.** With either branches the id is parked and waits as well. -/
theorem parked_wait_breaks :
    (¬∀ ops, Along step (LoopsRight .returned) (init 100) ops → MapInv (run step (init 100) ops)) ∧
      ¬∀ ops, Along step (LoopsRight .increment) (init 100) ops → MapInv (run step (init 100) ops) := by
  have hwait : (run step (init 100) parkedWait).waitMap[7]? = some 3 := by decide
  have hpark : (run step (init 100) parkedWait).reconMap[7]? = some 1 := by decide
  have hbreaks (hinv : MapInv (run step (init 100) parkedWait)) : False := by
    rcases hinv.waitRecon 7 with hnone | hnone
    · rw [hwait] at hnone
      cases hnone
    · rw [hpark] at hnone
      cases hnone
  exact ⟨fun h => hbreaks (h parkedWait (loopsRight_parkedWait .returned)),
    fun h => hbreaks (h parkedWait (loopsRight_parkedWait .increment))⟩

end DreamHeroes.Gate

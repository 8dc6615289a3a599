/-
Whose the sessions and the hero objects of the game server are. A transaction id stands for one account (`owner`), as
the login server means it; the id goes with what is asked of the database, and the answer goes to the session of the id.

- `Owned`: a session, its hero and a question to the database belong to the account of the id; a hero of the manager is
  filed under its own account. `owned_step` for every event that meets `Proper`.
- `heroes_step`: which events touch the entry of an account.
-/
import Mathlib.Tactic
import DreamHeroes.GameServer.SessionLink

namespace DreamHeroes.GameServer

open DreamHeroes.Lib

variable (owner : ℕ → ℕ)

structure Owned (s : St) : Prop where
  sess : ∀ t p : ℕ, s.onlines[t]? = some p → (s.sess p).account = owner t ∧ p < s.nextSess
  hero : ∀ t p h : ℕ, s.onlines[t]? = some p → (s.sess p).dreamHero = some h →
    (s.hero h).account = owner t ∧ h < s.nextHero
  heroes : ∀ a h : ℕ, s.heroes[a]? = some h → (s.hero h).account = a ∧ h < s.nextHero
  toDB : ∀ a t : ℕ, (a, t) ∈ s.toDB → a = owner t

/-- an id is added for its account, and the hero that the database has found is that of the account -/
def Proper : Op → Prop
  | .addUser _ t a _ => a = owner t
  | .queryHeroInfo t i => i = owner t
  | _ => True

/-- the account whose entry the event may touch -/
def Files (s : St) (a : ℕ) : Op → Prop
  | .queryHeroInfo t _ => owner t = a
  | .needCreateHero t => owner t = a
  | .fireDestroy h => s.heroes[a]? = some h
  | _ => False

/-! ## What makes neither a session nor a hero -/

structure Kept (s s' : St) : Prop where
  onlines : ∀ t p : ℕ, s'.onlines[t]? = some p → s.onlines[t]? = some p
  sess : ∀ p, (s'.sess p).account = (s.sess p).account
  dreamHero : ∀ p h, (s'.sess p).dreamHero = some h → (s.sess p).dreamHero = some h
  hero : ∀ h, (s'.hero h).account = (s.hero h).account
  heroes : s'.heroes = s.heroes
  nextSess : s'.nextSess = s.nextSess
  nextHero : s'.nextHero = s.nextHero
  toDB : s'.toDB = s.toDB

theorem Kept.refl (s : St) : Kept s s :=
  ⟨fun _ _ h => h, fun _ => rfl, fun _ _ h => h, fun _ => rfl, rfl, rfl, rfl, rfl⟩

theorem Kept.trans {s s' s'' : St} (h : Kept s s') (h' : Kept s' s'') : Kept s s'' where
  onlines t p ht := h.onlines t p (h'.onlines t p ht)
  sess p := (h'.sess p).trans (h.sess p)
  dreamHero p x hp := h.dreamHero p x (h'.dreamHero p x hp)
  hero x := (h'.hero x).trans (h.hero x)
  heroes := h'.heroes.trans h.heroes
  nextSess := h'.nextSess.trans h.nextSess
  nextHero := h'.nextHero.trans h.nextHero
  toDB := h'.toDB.trans h.toDB

instance keptTrans : Trans Kept Kept Kept := ⟨Kept.trans⟩

theorem kept_modHero (s : St) (x : ℕ) {f : DreamHero → DreamHero} (hf : ∀ y, (f y).account = y.account) :
    Kept s (s.modHero x f) := by
  refine ⟨fun _ _ h => h, fun _ => rfl, fun _ _ h => h, fun y => ?_, rfl, rfl, rfl, rfl⟩
  by_cases hy : y = x
  · subst hy
    simp [St.modHero, hf]
  · simp [St.modHero, hy]

theorem kept_modSess (s : St) (p : ℕ) {f : Session → Session} (haccount : ∀ u, (f u).account = u.account)
    (hdream : ∀ u h, (f u).dreamHero = some h → u.dreamHero = some h) : Kept s (s.modSess p f) := by
  refine ⟨fun _ _ h => h, fun q => ?_, fun q h hq => ?_, fun _ => rfl, rfl, rfl, rfl, rfl⟩
  · by_cases hqp : q = p
    · subst hqp
      simp [St.modSess, haccount]
    · simp [St.modSess, hqp]
  · by_cases hqp : q = p
    · subst hqp
      exact hdream _ h (by simpa [St.modSess] using hq)
    · simpa [St.modSess, hqp] using hq

theorem kept_startDestroyTime (s : St) (h : ℕ) : Kept s (startDestroyTime s h) := kept_modHero s h fun _ => rfl

theorem kept_stopDestroyClock (s : St) (h : ℕ) : Kept s (stopDestroyClock s h) := kept_modHero s h fun _ => rfl

theorem kept_setSession (s : St) (h : ℕ) (p : Option ℕ) : Kept s (setSession s h p) := kept_modHero s h fun _ => rfl

theorem kept_sendPBMessage (s : St) (p : ℕ) : Kept s (sendPBMessage s p) :=
  ⟨fun _ _ h => h, fun _ => rfl, fun _ _ h => h, fun _ => rfl, rfl, rfl, rfl, rfl⟩

theorem kept_sendClientInit (s : St) (h : ℕ) : Kept s (sendClientInit s h) := by
  have hclock : Kept s ((stopDestroyClock s h).modHero h fun x => { x with online := true }) :=
    (kept_stopDestroyClock s h).trans (kept_modHero _ h fun _ => rfl)
  unfold sendClientInit
  dsimp only
  split
  · exact hclock.trans (kept_sendPBMessage _ _)
  · exact hclock

theorem kept_closeSession (s : St) (p : ℕ) : Kept s (closeSession s p) := by
  unfold closeSession
  split
  · exact kept_startDestroyTime s _
  · exact .refl s

theorem kept_releaseSession (s : St) (p : ℕ) : Kept s (releaseSession s p) := by
  unfold releaseSession
  split
  · rename_i h _
    calc Kept s (startDestroyTime s h) := kept_startDestroyTime s h
      Kept _ (setSession (startDestroyTime s h) h none) := kept_setSession _ h none
      Kept _ _ := kept_modSess _ p (f := fun u => { u with dreamHero := none }) (fun _ => rfl) fun _ _ hq => by cases hq
  · exact .refl s

theorem kept_dropUser (s : St) (t p : ℕ) : Kept s (dropUser s t p) := by
  have hrelease : Kept s (releaseSession (closeSession s p) p) :=
    (kept_closeSession s p).trans (kept_releaseSession _ p)
  refine ⟨fun j q hq => ?_, hrelease.sess, hrelease.dreamHero, hrelease.hero, hrelease.heroes, hrelease.nextSess,
    hrelease.nextHero, hrelease.toDB⟩
  exact hrelease.onlines j q ((get_erase_eq_some _ t j q).1 hq).2

theorem kept_removeLoop (g : ℕ) (s : St) (l : List (ℕ × ℕ)) : Kept s (removeLoop g s l) := by
  induction l generalizing s with
  | nil => exact .refl s
  | cons e l ih =>
    simp only [removeLoop, List.foldl_cons]
    split_ifs
    · exact (kept_dropUser s e.1 e.2).trans (ih _)
    · exact ih s

theorem kept_setState (s : St) (p : ℕ) (x : SessionState) (b : Bool) :
    Kept s (match ((s.modSess p fun u => { u with state := x }).sess p).dreamHero with
      | some h => (s.modSess p fun u => { u with state := x }).modHero h fun y => { y with online := b }
      | none => s.modSess p fun u => { u with state := x }) := by
  have hmod : Kept s (s.modSess p fun u => { u with state := x }) := kept_modSess s p (fun _ => rfl) fun _ _ h => h
  split
  · exact hmod.trans (kept_modHero _ _ fun _ => rfl)
  · exact hmod

variable {owner}

theorem Kept.owned {s s' : St} (h : Kept s s') (hs : Owned owner s) : Owned owner s' where
  sess t p ht := by
    rw [h.sess, h.nextSess]
    exact hs.sess t p (h.onlines t p ht)
  hero t p x ht hp := by
    rw [h.hero, h.nextHero]
    exact hs.hero t p x (h.onlines t p ht) (h.dreamHero p x hp)
  heroes a x ha := by
    rw [h.hero, h.nextHero]
    exact hs.heroes a x (h.heroes ▸ ha)
  toDB := h.toDB ▸ hs.toDB

/-! ## A new session -/

/-- the session `p` is entered under the id `t`; it has no hero, or the one of its account -/
theorem owned_open {s s' : St} (hs : Owned owner s) {t : ℕ}
    (honlines : ∀ t' p : ℕ, s'.onlines[t']? = some p → s.onlines[t']? = some p ∨ (t' = t ∧ p = s.nextSess))
    (hsess : ∀ p, p ≠ s.nextSess → (s'.sess p).account = (s.sess p).account ∧
      (s'.sess p).dreamHero = (s.sess p).dreamHero)
    (hnew : (s'.sess s.nextSess).account = owner t ∧
      ∀ h, (s'.sess s.nextSess).dreamHero = some h → s.heroes[owner t]? = some h)
    (hhero : ∀ h, (s'.hero h).account = (s.hero h).account) (hheroes : s'.heroes = s.heroes)
    (hnextSess : s'.nextSess = s.nextSess + 1) (hnextHero : s'.nextHero = s.nextHero)
    (htoDB : ∀ a t' : ℕ, (a, t') ∈ s'.toDB → (a, t') ∈ s.toDB ∨ (a = owner t ∧ t' = t)) : Owned owner s' := by
  refine ⟨fun t' p ht => ?_, fun t' p h ht hp => ?_, fun a h ha => ?_, fun a t' hm => ?_⟩
  · rw [hnextSess]
    rcases honlines t' p ht with ht | ⟨rfl, rfl⟩
    · obtain ⟨haccount, hlt⟩ := hs.sess t' p ht
      rw [(hsess p hlt.ne).1]
      exact ⟨haccount, Nat.lt_succ_of_lt hlt⟩
    · exact ⟨hnew.1, Nat.lt_succ_self _⟩
  · rw [hhero, hnextHero]
    rcases honlines t' p ht with ht | ⟨rfl, rfl⟩
    · rw [(hsess p (hs.sess t' p ht).2.ne).2] at hp
      exact hs.hero t' p h ht hp
    · exact hs.heroes _ h (hnew.2 h hp)
  · rw [hhero, hnextHero]
    exact hs.heroes a h (hheroes ▸ ha)
  · rcases htoDB a t' hm with hm | ⟨rfl, rfl⟩
    · exact hs.toDB a t' hm
    · rfl

theorem sendClientInit_toDB (s : St) (x : ℕ) : (sendClientInit s x).toDB = s.toDB := (kept_sendClientInit s x).toDB

theorem owned_newSession {s : St} (hs : Owned owner s) (g t : ℕ) :
    Owned owner { (newSession s t (owner t) g).2 with
      onlines := (newSession s t (owner t) g).2.onlines.insertIfNew t (newSession s t (owner t) g).1 } ∧
    (newSession s t (owner t) g).2.heroes = s.heroes ∧ (newSession s t (owner t) g).2.nextHero = s.nextHero ∧
    ∀ h, ((newSession s t (owner t) g).2.hero h).account = (s.hero h).account := by
  have hentered (t' p : ℕ) (h : (s.onlines.insertIfNew t s.nextSess)[t']? = some p) :
      s.onlines[t']? = some p ∨ (t' = t ∧ p = s.nextSess) := by
    rw [get_insertIfNew] at h
    split_ifs at h with heq
    · exact Or.inr ⟨heq.1, (Option.some.inj h).symm⟩
    · exact Or.inl h
  cases hh : s.heroes[owner t]? with
  | none =>
    simp only [newSession, St.modSess, hh]
    refine ⟨?_, trivial, trivial, fun _ => trivial⟩
    refine owned_open hs (t := t) hentered (fun p hp => by simp [hp]) (by simp) (fun _ => rfl) rfl rfl rfl ?_
    exact fun a t' hm => (List.mem_append.1 hm).imp id fun hm => Prod.ext_iff.1 (List.mem_singleton.1 hm)
  | some x =>
    simp only [newSession, St.modSess, hh, sendClientInit_heroes, sendClientInit_nextHero]
    have hhero (h : ℕ) : (Function.update s.hero x { s.hero x with
        destroyClock := false, destroyEvent := false, session := some s.nextSess, online := true } h).account =
        (s.hero h).account := by
      by_cases hx : h = x <;> simp [hx]
    refine ⟨?_, rfl, rfl, fun h => ?_⟩
    · refine owned_open hs (t := t) ?_ (fun p hp => ?_) ?_ (fun h => ?_) ?_ ?_ ?_ fun a t' hm => Or.inl ?_
      · simpa [stopDestroyClock, setSession, St.modHero] using hentered
      · simp [stopDestroyClock, setSession, St.modHero, hp]
      · simpa [stopDestroyClock, setSession, St.modHero] using hh
      · simpa [stopDestroyClock, setSession, St.modHero] using hhero h
      · simp [stopDestroyClock, setSession, St.modHero]
      · simp [stopDestroyClock, setSession, St.modHero]
      · simp [stopDestroyClock, setSession, St.modHero]
      · simpa [stopDestroyClock, setSession, St.modHero, sendClientInit_toDB] using hm
    · simpa [stopDestroyClock, setSession, St.modHero] using hhero h

/-! ## A new hero -/

variable (owner) in
/-- the session `p` of the id `t` gets the hero `x`, which may be new -/
structure Joins (t p x : ℕ) (s s' : St) : Prop where
  online : s.onlines[t]? = some p
  onlines : s'.onlines = s.onlines
  sess : ∀ q, (s'.sess q).account = (s.sess q).account
  dreamHero : ∀ q, q ≠ p → (s'.sess q).dreamHero = (s.sess q).dreamHero
  joined : ∀ h, (s'.sess p).dreamHero = some h → h = x
  hero : ∀ h, h < s.nextHero → (s'.hero h).account = (s.hero h).account
  account : (s'.hero x).account = owner t
  heroes : ∀ a h : ℕ, s'.heroes[a]? = some h → s.heroes[a]? = some h ∨ (a = owner t ∧ h = x)
  others : ∀ a, a ≠ owner t → s'.heroes[a]? = s.heroes[a]?
  made : (x < s.nextHero ∧ s'.nextHero = s.nextHero) ∨
    (x = s.nextHero ∧ s'.nextHero = s.nextHero + 1 ∧ s.heroes[owner t]? = none)
  nextSess : s'.nextSess = s.nextSess
  toDB : s'.toDB = s.toDB

section

variable {s s' s'' : St} {t p x : ℕ}

theorem Joins.kept (h : Joins owner t p x s s') (h' : Kept s' s'') (honlines : s''.onlines = s'.onlines)
    (hdream : ∀ q, (s''.sess q).dreamHero = (s'.sess q).dreamHero) : Joins owner t p x s s'' where
  online := h.online
  onlines := honlines.trans h.onlines
  sess q := (h'.sess q).trans (h.sess q)
  dreamHero q hq := (hdream q).trans (h.dreamHero q hq)
  joined y hy := h.joined y (h'.dreamHero p y hy)
  hero y hy := (h'.hero y).trans (h.hero y hy)
  account := (h'.hero x).trans h.account
  heroes a y ha := h.heroes a y (h'.heroes ▸ ha)
  others a ha := h'.heroes ▸ h.others a ha
  made := h'.nextHero ▸ h.made
  nextSess := h'.nextSess.trans h.nextSess
  toDB := h'.toDB.trans h.toDB

theorem Joins.init (h : Joins owner t p x s s') : Joins owner t p x s (sendClientInit s' x) :=
  h.kept (kept_sendClientInit s' x) (by simp) (by simp)

theorem Joins.lt (h : Joins owner t p x s s') : x < s'.nextHero := by
  rcases h.made with ⟨hx, hnext⟩ | ⟨rfl, hnext, -⟩
  · exact hnext ▸ hx
  · exact hnext ▸ Nat.lt_succ_self _

theorem Joins.le (h : Joins owner t p x s s') : s.nextHero ≤ s'.nextHero := by
  rcases h.made with ⟨-, hnext⟩ | ⟨-, hnext, -⟩
  · exact hnext.ge
  · exact hnext ▸ Nat.le_succ _

theorem Joins.owned (h : Joins owner t p x s s') (hs : Owned owner s) : Owned owner s' := by
  refine ⟨fun t' q hq => ?_, fun t' q y hq hy => ?_, fun a y ha => ?_, h.toDB ▸ hs.toDB⟩
  · rw [h.sess, h.nextSess]
    exact hs.sess t' q (h.onlines ▸ hq)
  · rw [h.onlines] at hq
    by_cases hqp : q = p
    · subst hqp
      obtain rfl := h.joined y hy
      have howner : owner t' = owner t := (hs.sess t' q hq).1.symm.trans (hs.sess t q h.online).1
      rw [howner]
      exact ⟨h.account, h.lt⟩
    · rw [h.dreamHero q hqp] at hy
      obtain ⟨haccount, hlt⟩ := hs.hero t' q y hq hy
      rw [h.hero y hlt]
      exact ⟨haccount, hlt.trans_le h.le⟩
  · rcases h.heroes a y ha with ha | ⟨rfl, rfl⟩
    · obtain ⟨haccount, hlt⟩ := hs.heroes a y ha
      rw [h.hero y hlt]
      exact ⟨haccount, hlt.trans_le h.le⟩
    · exact ⟨h.account, h.lt⟩

/-- the entry of the account is the new hero, or is kept -/
theorem get_insertIfNew_cases {m : Std.TreeMap ℕ ℕ} {k v j w : ℕ} (h : (m.insertIfNew k v)[j]? = some w) :
    m[j]? = some w ∨ (j = k ∧ w = v) := by
  rw [get_insertIfNew] at h
  split_ifs at h with hj
  · exact Or.inr ⟨hj.1, (Option.some.inj h).symm⟩
  · exact Or.inl h

theorem get_insertIfNew_ne {m : Std.TreeMap ℕ ℕ} {k v j : ℕ} (h : j ≠ k) : (m.insertIfNew k v)[j]? = m[j]? := by
  rw [get_insertIfNew, if_neg fun hj => h hj.1]

/-- a hero in memory, or a new one, for a session without a hero -/
theorem queryHeroInfo_cases (hs : Owned owner s) (t : ℕ) : Kept s (parseQueryHeroInfo s t (owner t)) ∨
    ∃ p x, (s.sess p).dreamHero = none ∧ Joins owner t p x s (parseQueryHeroInfo s t (owner t)) := by
  cases ht : s.onlines[t]? with
  | none =>
    simp only [parseQueryHeroInfo, ht]
    exact Or.inl (.refl s)
  | some p =>
    have haccount := (hs.sess t p ht).1
    cases hp : (s.sess p).dreamHero with
    | some y =>
      simp only [parseQueryHeroInfo, ht, hp]
      exact Or.inl (kept_sendClientInit s y)
    | none =>
      right
      cases hh : s.heroes[owner t]? with
      | some x =>
        refine ⟨p, x, hp, ?_⟩
        simp only [parseQueryHeroInfo, ht, hp, createHeroFrom, haccount, hh, St.modSess, Function.update_self]
        obtain ⟨hx, hlt⟩ := hs.heroes _ x hh
        refine Joins.init ⟨ht, rfl, fun q => ?_, fun q hq => ?_, by simp, fun h _ => ?_, ?_, fun a h ha => Or.inl ha,
          fun a _ => rfl, Or.inl ⟨hlt, rfl⟩, rfl, rfl⟩
        · by_cases hq : q = p <;> simp [stopDestroyClock, St.modHero, hq]
        · simp [stopDestroyClock, St.modHero, hq]
        · by_cases hhx : h = x <;> simp [stopDestroyClock, St.modHero, hhx, hx]
        · simp [stopDestroyClock, St.modHero]
      | none =>
        refine ⟨p, s.nextHero, hp, ?_⟩
        simp only [parseQueryHeroInfo, ht, hp, createHeroFrom, haccount, hh, St.modSess, Function.update_self]
        refine Joins.init ⟨ht, rfl, fun q => ?_, fun q hq => ?_, by simp, fun h hlt => ?_, ?_,
          fun a h ha => get_insertIfNew_cases ha, fun a ha => get_insertIfNew_ne ha, Or.inr ⟨rfl, rfl, hh⟩, rfl, rfl⟩
        · by_cases hq : q = p <;> simp [stopDestroyClock, St.modHero, hq]
        · simp [stopDestroyClock, St.modHero, hq]
        · simp [stopDestroyClock, St.modHero, hlt.ne]
        · simp [stopDestroyClock, St.modHero]

theorem needCreateHero_cases (hs : Owned owner s) (t : ℕ) : Kept s (parseNeedCreateHero s t) ∨
    ∃ p x, Joins owner t p x s (parseNeedCreateHero s t) := by
  cases ht : s.onlines[t]? with
  | none =>
    simp only [parseNeedCreateHero, ht]
    exact Or.inl (.refl s)
  | some p =>
    right
    have haccount := (hs.sess t p ht).1
    cases hh : s.heroes[owner t]? with
    | some x =>
      refine ⟨p, x, ?_⟩
      simp only [parseNeedCreateHero, ht, createHero, haccount, hh, St.modSess]
      obtain ⟨hx, hlt⟩ := hs.heroes _ x hh
      refine Joins.init ⟨ht, rfl, fun q => ?_, fun q hq => ?_, by simp, fun h _ => ?_, ?_,
        fun a h ha => get_insertIfNew_cases ha, fun a ha => get_insertIfNew_ne ha, Or.inl ⟨hlt, rfl⟩, rfl, rfl⟩
      · by_cases hq : q = p <;> simp [stopDestroyClock, St.modHero, hq]
      · simp [stopDestroyClock, St.modHero, hq]
      · by_cases hhx : h = x <;> simp [stopDestroyClock, St.modHero, hhx, hx]
      · simp [stopDestroyClock, St.modHero]
    | none =>
      refine ⟨p, s.nextHero, ?_⟩
      simp only [parseNeedCreateHero, ht, createHero, haccount, hh, St.modSess]
      refine Joins.init ⟨ht, rfl, fun q => ?_, fun q hq => ?_, by simp, fun h hlt => ?_, ?_,
        fun a h ha => get_insertIfNew_cases ha, fun a ha => get_insertIfNew_ne ha, Or.inr ⟨rfl, rfl, hh⟩, rfl, rfl⟩
      · by_cases hq : q = p <;> simp [stopDestroyClock, St.modHero, hq]
      · simp [stopDestroyClock, St.modHero, hq]
      · simp [stopDestroyClock, St.modHero, hlt.ne]
      · simp [stopDestroyClock, St.modHero]

end

/-! ## All events -/

variable (owner) in
/-- what an event does: it keeps all, opens a session, joins a session and a hero, or removes a hero -/
inductive Event (s : St) : Op → St → Prop
  | kept {o s'} (h : Kept s s') : Event s o s'
  | opens {g t c s'} (owned : Owned owner s') (heroes : s'.heroes = s.heroes) (nextHero : s'.nextHero = s.nextHero)
      (hero : ∀ h, (s'.hero h).account = (s.hero h).account) : Event s (.addUser g t (owner t) c) s'
  | found {t p x s'} (hp : (s.sess p).dreamHero = none) (h : Joins owner t p x s s') :
      Event s (.queryHeroInfo t (owner t)) s'
  | created {t p x s'} (h : Joins owner t p x s s') : Event s (.needCreateHero t) s'
  | removed {x u} (hx : s.heroes[(s.hero x).account]? = some x) (h : Kept s u) :
      Event s (.fireDestroy x) { u with heroes := u.heroes.erase (s.hero x).account }

theorem event_addUser {s : St} (hs : Owned owner s) (g t : ℕ) (c : ℤ) :
    Event owner s (.addUser g t (owner t) c) (parseAddUser s g t (owner t) c) := by
  have hchannel (s : St) (p : ℕ) : Kept s (s.modSess p fun u => { u with channel := c }) :=
    kept_modSess s p (fun _ => rfl) fun _ _ h => h
  rw [parseAddUser]
  cases ht : s.onlines[t]? with
  | some p =>
    simp only [addUser, ht]
    split_ifs
    · exact .kept ((kept_setState s p .online true).trans (hchannel _ p))
    · exact .kept ⟨fun _ _ h => h, fun _ => rfl, fun _ _ h => h, fun _ => rfl, rfl, rfl, rfl, rfl⟩
  | none =>
    simp only [addUser, ht]
    obtain ⟨howned, hheroes, hnextHero, hhero⟩ := owned_newSession hs g t
    exact .opens ((hchannel _ _).owned howned) hheroes hnextHero hhero

theorem event_destroyHero {s u : St} (h : Kept s u) (x : ℕ) : Event owner s (.fireDestroy x) (destroyHero u x) := by
  rw [destroyHero, h.hero x, h.heroes]
  split_ifs with hx
  · rw [← h.heroes]
    exact .removed hx (h.trans (kept_modHero u x (f := fun y => { y with destroyEvent := false }) fun _ => rfl))
  · exact .kept h

/-- the hero goes from the map, if it is there, and its session forgets it -/
theorem event_destroy (s : St) (h : ℕ) : Event owner s (.fireDestroy h) (destroy s h) := by
  rw [destroy]
  split
  · refine event_destroyHero (kept_modSess s _ (f := fun u => { u with dreamHero := none }) (fun _ => rfl) ?_) h
    exact fun _ _ hq => by cases hq
  · exact event_destroyHero (.refl s) h

theorem step_event {s : St} (hs : Owned owner s) (o : Op) (ho : Proper owner o) : Event owner s o (step s o) := by
  cases o with
  | addUser g t a c =>
    obtain rfl := ho
    exact event_addUser hs g t c
  | removeUser t =>
    rw [step, removeUser]
    split
    · exact .kept (kept_dropUser s t _)
    · exact .kept (.refl s)
  | offlineUser t =>
    rw [step, offlineUser]
    split
    · exact .kept (kept_setState s _ .offline false)
    · exact .kept (.refl s)
  | removeUserByGate g => exact .kept (kept_removeLoop g s _)
  | queryHeroInfo t i =>
    obtain rfl := ho
    rcases queryHeroInfo_cases hs t with h | ⟨p, x, hp, h⟩
    · exact .kept h
    · exact .found hp h
  | needCreateHero t =>
    rcases needCreateHero_cases hs t with h | ⟨p, x, h⟩
    · exact .kept h
    · exact .created h
  | clientMsg t =>
    rw [step]
    split
    · exact .kept (kept_sendPBMessage s _)
    · exact .kept (.refl s)
  | fireDestroy h =>
    rw [step]
    split_ifs
    · exact event_destroy s h
    · exact .kept (.refl s)

theorem owned_step {s : St} (hs : Owned owner s) (o : Op) (ho : Proper owner o) : Owned owner (step s o) := by
  generalize hnext : step s o = s'
  cases hnext ▸ step_event hs o ho with
  | kept h => exact h.owned hs
  | opens owned _ _ _ => exact owned
  | found _ h => exact h.owned hs
  | created h => exact h.owned hs
  | removed _ h =>
    have howned := h.owned hs
    exact ⟨howned.sess, howned.hero, fun a x ha => howned.heroes a x ((get_erase_eq_some _ _ _ _).1 ha).2, howned.toDB⟩

/-- the heroes that there are keep their accounts, and a new one has that of its session -/
theorem account_step {s : St} (hs : Owned owner s) (o : Op) (ho : Proper owner o) {h : ℕ}
    (hh : h < (step s o).nextHero) : (h < s.nextHero ∧ ((step s o).hero h).account = (s.hero h).account) ∨
      ∃ t p, h = s.nextHero ∧ s.onlines[t]? = some p ∧ s.heroes[owner t]? = none ∧
      ((step s o).hero h).account = owner t ∧
        ((o = .queryHeroInfo t (owner t) ∧ (s.sess p).dreamHero = none) ∨ o = .needCreateHero t) := by
  generalize hnext : step s o = s' at hh ⊢
  cases hnext ▸ step_event hs o ho with
  | kept h => exact Or.inl ⟨h.nextHero ▸ hh, h.hero _⟩
  | opens _ _ nextHero hero => exact Or.inl ⟨nextHero ▸ hh, hero _⟩
  | found hp h =>
    rcases h.made with ⟨-, hmade⟩ | ⟨rfl, hmade, hnone⟩ <;> rw [hmade] at hh
    · exact Or.inl ⟨hh, h.hero _ hh⟩
    · rcases Nat.lt_succ_iff_lt_or_eq.1 hh with hlt | rfl
      · exact Or.inl ⟨hlt, h.hero _ hlt⟩
      · exact Or.inr ⟨_, _, rfl, h.online, hnone, h.account, Or.inl ⟨rfl, hp⟩⟩
  | created h =>
    rcases h.made with ⟨-, hmade⟩ | ⟨rfl, hmade, hnone⟩ <;> rw [hmade] at hh
    · exact Or.inl ⟨hh, h.hero _ hh⟩
    · rcases Nat.lt_succ_iff_lt_or_eq.1 hh with hlt | rfl
      · exact Or.inl ⟨hlt, h.hero _ hlt⟩
      · exact Or.inr ⟨_, _, rfl, h.online, hnone, h.account, Or.inr rfl⟩
  | removed _ h => exact Or.inl ⟨h.nextHero ▸ hh, h.hero _⟩

theorem owned_init : Owned owner init := by
  constructor <;> simp [init]

/-- **The entry of an account** is touched by the answers for its ids and the destroy timer of its hero. -/
theorem heroes_step {s : St} (hs : Owned owner s) (o : Op) (ho : Proper owner o) {a : ℕ} (ha : ¬Files owner s a o) :
    (step s o).heroes[a]? = s.heroes[a]? := by
  generalize hnext : step s o = s'
  cases hnext ▸ step_event hs o ho with
  | kept h => rw [h.heroes]
  | opens _ heroes _ _ => rw [heroes]
  | found _ h => exact h.others a (Ne.symm ha)
  | created h => exact h.others a (Ne.symm ha)
  | removed hx h =>
    have hne : a ≠ (s.hero _).account := fun heq => ha (heq ▸ hx)
    rw [get_erase, if_neg hne, h.heroes]

end DreamHeroes.GameServer

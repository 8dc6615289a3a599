/-
The pointers between sessions and heroes on the game server.

The link is meant to be one to one: the hero of a live session is a hero of the manager and points back to that session,
no hero points to a released session, and a hero with a live session is never destroyed (`Linked`, `SparesLinked`).

The code keeps this as long as an account has one session at a time. A second session for the account (a login under a
new transaction id before the old one is removed) takes the hero over without telling the first one; the release of the
first session then unlinks the hero from the second and arms the timer that deletes it.

- `linkInv_step`: the inductive invariant `LinkInv` is kept by every event that meets `Exclusive`.
- `linked_run`: along events that meet `Exclusive`, every state is `Linked` and every event spares the linked heroes.
- `second_login_breaks_link`: two logins of one account, then the removal of the first and the destroy timer.
-/
import Mathlib.Tactic
import DreamHeroes.GameServer.GateManager

namespace DreamHeroes.GameServer

open DreamHeroes.Lib

/-! ## The property -/

/-- the two directions of the link, over live sessions; no `NULL` is dereferenced -/
structure Linked (s : St) : Prop where
  hero : ∀ t p h : ℕ, s.onlines[t]? = some p → (s.sess p).dreamHero = some h →
    (∃ k : ℕ, s.heroes[k]? = some h) ∧ (s.hero h).session = some p
  released : ∀ k h p : ℕ, s.heroes[k]? = some h → (s.hero h).session = some p → ∃ t : ℕ, s.onlines[t]? = some p
  noNull : s.nullDeref = false

/-- the event destroys no hero whose session is live -/
def SparesLinked (s : St) (o : Op) : Prop :=
  ∀ k h t p : ℕ, s.heroes[k]? = some h → (s.hero h).session = some p → s.onlines[t]? = some p →
    (step s o).heroes[k]? = some h

/-- the hero `h` is played by no session -/
def Idle (s : St) (h : ℕ) : Prop := (s.hero h).session = none

/-- what an event has to meet: an account is played by one session at a time, a transaction id is added again only for
the same gate and account, and the replies of the database are for an account that nobody plays yet -/
def Exclusive (s : St) : Op → Prop
  | .addUser g t a _ =>
    (∀ p ∈ s.onlines[t]?, (s.sess p).gate = g ∧ (s.sess p).account = a) ∧
      (s.onlines[t]? = none → ∀ h ∈ s.heroes[a]?, Idle s h)
  | .queryHeroInfo t i =>
    ∀ p ∈ s.onlines[t]?, (s.sess p).dreamHero = none →
      (∀ h ∈ s.heroes[(s.sess p).account]?, Idle s h) ∧
        (s.heroes[(s.sess p).account]? = none → s.heroes[i]? = none)
  | .needCreateHero t =>
    ∀ p ∈ s.onlines[t]?,
      ((s.sess p).dreamHero = none ∨ (s.sess p).dreamHero = s.heroes[(s.sess p).account]?) ∧
        ∀ h ∈ s.heroes[(s.sess p).account]?, Idle s h ∨ (s.hero h).session = some p
  | _ => True

instance (s : St) (h : ℕ) : Decidable (Idle s h) := inferInstanceAs (Decidable (_ = none))

instance (s : St) (o : Op) : Decidable (Exclusive s o) := by
  cases o <;> simp only [Exclusive] <;> infer_instance

/-! ## The invariant -/

structure LinkInv (s : St) : Prop where
  tran : ∀ t p : ℕ, s.onlines[t]? = some p → (s.sess p).tranid = t ∧ p < s.nextSess
  known : ∀ k h : ℕ, s.heroes[k]? = some h → h < s.nextHero
  fwd : ∀ t p h : ℕ, s.onlines[t]? = some p → (s.sess p).dreamHero = some h →
    (∃ k : ℕ, s.heroes[k]? = some h) ∧ (s.hero h).session = some p
  bwd : ∀ h p : ℕ, (s.hero h).session = some p → ∃ t : ℕ, s.onlines[t]? = some p ∧ (s.sess p).dreamHero = some h
  timer : ∀ h : ℕ, (s.hero h).destroyEvent = true → (s.hero h).session = none
  noNull : s.nullDeref = false

theorem linkInv_init : LinkInv init := by
  constructor <;> simp [init]

theorem LinkInv.linked {s : St} (h : LinkInv s) : Linked s :=
  ⟨h.fwd, fun _ x p _ hp => (h.bwd x p hp).imp fun _ ht => ht.1, h.noNull⟩

/-- two ids never share a session object -/
theorem LinkInv.inj {s : St} (h : LinkInv s) {t t' p : ℕ} (ht : s.onlines[t]? = some p)
    (ht' : s.onlines[t']? = some p) : t = t' := (h.tran t p ht).1.symm.trans (h.tran t' p ht').1

/-- nobody points to a hero that does not exist yet -/
theorem LinkInv.fresh {s : St} (h : LinkInv s) (q : ℕ) : (s.hero s.nextHero).session ≠ some q := by
  intro hq
  obtain ⟨t, ht, hp⟩ := h.bwd _ q hq
  obtain ⟨⟨k, hk⟩, -⟩ := h.fwd t q _ ht hp
  exact absurd (h.known k _ hk) (lt_irrefl _)

/-- the invariant does not see loads, clocks that stop and messages -/
theorem linkInv_congr {s s' : St} (h : LinkInv s) (ho : s'.onlines = s.onlines) (hh : s'.heroes = s.heroes)
    (hs : s'.nextSess = s.nextSess) (hn : s'.nextHero = s.nextHero) (hd : s'.nullDeref = s.nullDeref)
    (hsess : ∀ p, (s'.sess p).tranid = (s.sess p).tranid ∧ (s'.sess p).dreamHero = (s.sess p).dreamHero)
    (hhero : ∀ x, (s'.hero x).session = (s.hero x).session ∧
      ((s'.hero x).destroyEvent = true → (s.hero x).destroyEvent = true)) : LinkInv s' := by
  refine ⟨?_, ?_, ?_, ?_, ?_, ?_⟩
  · intro t p ht
    rw [(hsess p).1, hs]
    exact h.tran t p (ho ▸ ht)
  · intro k x hk
    rw [hn]
    exact h.known k x (hh ▸ hk)
  · intro t p x ht hx
    rw [hh, (hhero x).1]
    exact h.fwd t p x (ho ▸ ht) ((hsess p).2 ▸ hx)
  · intro x p hx
    rw [ho, (hsess p).2]
    exact h.bwd x p ((hhero x).1 ▸ hx)
  · intro x hx
    rw [(hhero x).1]
    exact h.timer x ((hhero x).2 hx)
  · rw [hd]; exact h.noNull

/-- `SendClientInit` stops the clock of the hero; the rest is a message -/
theorem sendClientInit_eq (s : St) (x : ℕ) :
    ∃ out, sendClientInit s x =
      { s.modHero x fun y => { y with destroyClock := false, destroyEvent := false, online := true } with
        toClient := out } := by
  unfold sendClientInit stopDestroyClock St.modHero
  simp only [Function.update_self, Function.update_idem]
  cases (s.hero x).session with
  | none => exact ⟨_, rfl⟩
  | some p => exact ⟨_, rfl⟩

section
variable (s : St) (x : ℕ)

@[simp] theorem sendClientInit_onlines : (sendClientInit s x).onlines = s.onlines := by
  obtain ⟨out, e⟩ := sendClientInit_eq s x; rw [e]; rfl
@[simp] theorem sendClientInit_heroes : (sendClientInit s x).heroes = s.heroes := by
  obtain ⟨out, e⟩ := sendClientInit_eq s x; rw [e]; rfl
@[simp] theorem sendClientInit_sess : (sendClientInit s x).sess = s.sess := by
  obtain ⟨out, e⟩ := sendClientInit_eq s x; rw [e]; rfl
@[simp] theorem sendClientInit_nextSess : (sendClientInit s x).nextSess = s.nextSess := by
  obtain ⟨out, e⟩ := sendClientInit_eq s x; rw [e]; rfl
@[simp] theorem sendClientInit_nextHero : (sendClientInit s x).nextHero = s.nextHero := by
  obtain ⟨out, e⟩ := sendClientInit_eq s x; rw [e]; rfl
@[simp] theorem sendClientInit_nullDeref : (sendClientInit s x).nullDeref = s.nullDeref := by
  obtain ⟨out, e⟩ := sendClientInit_eq s x; rw [e]; rfl

@[simp] theorem sendClientInit_hero : (sendClientInit s x).hero = Function.update s.hero x
    { s.hero x with destroyClock := false, destroyEvent := false, online := true } := by
  obtain ⟨out, e⟩ := sendClientInit_eq s x; rw [e]; rfl

end

theorem linkInv_sendClientInit {s : St} (h : LinkInv s) (x : ℕ) : LinkInv (sendClientInit s x) := by
  refine linkInv_congr h ?_ ?_ ?_ ?_ ?_ (fun p => ?_) fun y => ?_
  all_goals try simp
  by_cases hy : y = x
  · subst hy; simp
  · simp [hy]

/-- **Linking.** The session `p`, online under `t`, and the hero `x` are linked with each other; nobody else was. -/
theorem linkInv_link {s s' : St} (h : LinkInv s) {t p x : ℕ} (ht : s.onlines[t]? = some p)
    (ho : s'.onlines = s.onlines) (hs : s'.nextSess = s.nextSess) (hd : s'.nullDeref = s.nullDeref)
    (htran : ∀ q, (s'.sess q).tranid = (s.sess q).tranid)
    (hsess : ∀ q, (s'.sess q).dreamHero = if q = p then some x else (s.sess q).dreamHero)
    (hkeep : ∀ k y : ℕ, s.heroes[k]? = some y → s'.heroes[k]? = some y) (hx : ∃ k : ℕ, s'.heroes[k]? = some x)
    (hknown : ∀ k y : ℕ, s'.heroes[k]? = some y → y < s'.nextHero)
    (hhero : ∀ y, (s'.hero y).session = if y = x then some p else (s.hero y).session)
    (hclock : ∀ y, (s'.hero y).destroyEvent = true → y ≠ x ∧ (s.hero y).destroyEvent = true)
    (hfree : ∀ q, (s.hero x).session = some q → q = p)
    (hown : ∀ y, (s.sess p).dreamHero = some y → y = x) : LinkInv s' := by
  refine ⟨?_, hknown, ?_, ?_, ?_, ?_⟩
  · intro t' q hq
    rw [htran, hs]
    exact h.tran t' q (ho ▸ hq)
  · intro t' q y hq hy
    rw [hsess] at hy
    rw [hhero]
    split_ifs at hy with e
    · obtain rfl := Option.some.inj hy
      exact ⟨hx, by rw [if_pos rfl, e]⟩
    · obtain ⟨⟨k, hk⟩, hback⟩ := h.fwd t' q y (ho ▸ hq) hy
      have hyx : y ≠ x := fun e' => e (hfree q (e' ▸ hback))
      exact ⟨⟨k, hkeep k y hk⟩, by rw [if_neg hyx, hback]⟩
  · intro y q hq
    rw [hhero] at hq
    rw [ho]
    split_ifs at hq with e
    · obtain rfl := Option.some.inj hq
      exact ⟨t, ht, by rw [hsess, if_pos rfl, e]⟩
    · obtain ⟨t', ht', hy⟩ := h.bwd y q hq
      have hqp : q ≠ p := fun e' => e (hown y (e' ▸ hy))
      exact ⟨t', ht', by rw [hsess, if_neg hqp, hy]⟩
  · intro y hy
    obtain ⟨hyx, hev⟩ := hclock y hy
    rw [hhero, if_neg hyx]
    exact h.timer y hev
  · rw [hd]; exact h.noNull

/-- **Unlinking.** The session `p` leaves `onlines`, and its hero, if it has one, forgets it. -/
theorem linkInv_unlink {s s' : St} (h : LinkInv s) {t p : ℕ} (ht : s.onlines[t]? = some p)
    (ho : s'.onlines = s.onlines.erase t) (hh : s'.heroes = s.heroes) (hs : s'.nextSess = s.nextSess)
    (hn : s'.nextHero = s.nextHero) (hd : s'.nullDeref = s.nullDeref)
    (htran : ∀ q, (s'.sess q).tranid = (s.sess q).tranid)
    (hsess : ∀ q, q ≠ p → (s'.sess q).dreamHero = (s.sess q).dreamHero)
    (hhero : ∀ y, (s'.hero y).session = if (s.sess p).dreamHero = some y then none else (s.hero y).session)
    (hclock : ∀ y, (s'.hero y).destroyEvent = true → (s.sess p).dreamHero = some y ∨
      (s.hero y).destroyEvent = true) : LinkInv s' := by
  have hon : ∀ t' q : ℕ, s'.onlines[t']? = some q ↔ t' ≠ t ∧ s.onlines[t']? = some q := by
    intro t' q
    rw [ho, get_erase]
    split_ifs with e <;> simp [e]
  have hne : ∀ t' q : ℕ, t' ≠ t → s.onlines[t']? = some q → q ≠ p :=
    fun t' q hne hq e => hne (h.inj (e ▸ hq) ht)
  refine ⟨?_, ?_, ?_, ?_, ?_, ?_⟩
  · intro t' q hq
    rw [htran, hs]
    exact h.tran t' q ((hon t' q).1 hq).2
  · intro k y hk
    rw [hn]
    exact h.known k y (hh ▸ hk)
  · intro t' q y hq hy
    obtain ⟨ht', hq'⟩ := (hon t' q).1 hq
    rw [hsess q (hne t' q ht' hq')] at hy
    obtain ⟨hk, hback⟩ := h.fwd t' q y hq' hy
    rw [hh, hhero]
    refine ⟨hk, ?_⟩
    -- the hero of `p` points back to `p`, so `y` is another one
    split_ifs with e
    · exact absurd (Option.some.inj (hback.symm.trans (h.fwd t p y ht e).2)) (hne t' q ht' hq')
    · exact hback
  · intro y q hq
    rw [hhero] at hq
    split_ifs at hq with e
    obtain ⟨t', ht', hy⟩ := h.bwd y q hq
    have hqp : q ≠ p := fun e' => e (e' ▸ hy)
    refine ⟨t', (hon t' q).2 ⟨fun e' => hqp ?_, ht'⟩, by rw [hsess q hqp, hy]⟩
    exact Option.some.inj (ht'.symm.trans (e' ▸ ht))
  · intro y hy
    rw [hhero]
    split_ifs with e
    · rfl
    · exact h.timer y ((hclock y hy).resolve_left e)
  · rw [hd]; exact h.noNull

theorem linkInv_dropUser {s : St} (h : LinkInv s) {t p : ℕ} (ht : s.onlines[t]? = some p) :
    LinkInv (dropUser s t p) := by
  cases hp : (s.sess p).dreamHero with
  | none =>
    have e : dropUser s t p = { s with onlines := s.onlines.erase t } := by
      simp [dropUser, closeSession, releaseSession, hp]
    rw [e]
    exact linkInv_unlink h ht rfl rfl rfl rfl rfl (fun _ => rfl) (fun _ _ => rfl) (fun y => by simp [hp])
      fun y hy => Or.inr hy
  | some x =>
    simp only [dropUser, closeSession, hp, releaseSession, setSession, startDestroyTime, St.modHero, St.modSess,
      Function.update_self, Function.update_idem]
    refine linkInv_unlink h ht rfl rfl rfl rfl rfl ?_ ?_ ?_ ?_
    · intro q
      by_cases e : q = p <;> simp [e]
    · intro q hq
      simp [hq]
    · intro y
      by_cases e : y = x
      · simp [e, hp]
      · simp [e, hp, Ne.symm e]
    · intro y hy
      by_cases e : y = x
      · exact Or.inl (e ▸ hp)
      · exact Or.inr (by simpa [e] using hy)

theorem dropUser_onlines (s : St) (t p : ℕ) : (dropUser s t p).onlines = s.onlines.erase t := by
  have hclose : (closeSession s p).onlines = s.onlines := by unfold closeSession; split <;> rfl
  have hrel : ∀ u : St, (releaseSession u p).onlines = u.onlines := by
    intro u
    unfold releaseSession
    split <;> rfl
  simp only [dropUser, hrel, hclose]

/-- the loop drops entries of `onlines`, each under a key of its own -/
theorem linkInv_removeLoop (g : ℕ) {s : St} (h : LinkInv s) (l : List (ℕ × ℕ)) (hl : (l.map Prod.fst).Nodup)
    (hon : ∀ e ∈ l, s.onlines[e.1]? = some e.2) : LinkInv (removeLoop g s l) := by
  induction l generalizing s with
  | nil => exact h
  | cons e l ih =>
    rw [List.map_cons, List.nodup_cons] at hl
    have he := hon e List.mem_cons_self
    have hrest : ∀ e' ∈ l, s.onlines[e'.1]? = some e'.2 := fun e' he' => hon e' (List.mem_cons_of_mem e he')
    simp only [removeLoop, List.foldl_cons]
    split_ifs
    · apply ih (linkInv_dropUser h he) hl.2
      intro e' he'
      have hne : e'.1 ≠ e.1 := fun heq => hl.1 (heq ▸ List.mem_map_of_mem he')
      rw [dropUser_onlines, get_erase, if_neg hne]
      exact hrest e' he'
    · exact ih h hl.2 hrest

theorem linkInv_removeUserByGate {s : St} (h : LinkInv s) (g : ℕ) : LinkInv (removeUserByGate s g) := by
  refine linkInv_removeLoop g h _ ?_ fun e he => Std.TreeMap.mem_toList_iff_getElem?_eq_some.1 he
  rw [Std.TreeMap.map_fst_toList_eq_keys]
  exact Std.TreeMap.nodup_keys

/-- the flag of a session and of its hero are no part of the link -/
theorem linkInv_setState {s : St} (h : LinkInv s) (p : ℕ) (x : SessionState) (b : Bool) :
    LinkInv (match ((s.modSess p fun u => { u with state := x }).sess p).dreamHero with
      | some y => (s.modSess p fun u => { u with state := x }).modHero y fun z => { z with online := b }
      | none => s.modSess p fun u => { u with state := x }) := by
  have hmod : LinkInv (s.modSess p fun u => { u with state := x }) := by
    refine linkInv_congr h rfl rfl rfl rfl rfl ?_ fun y => ⟨rfl, id⟩
    intro q
    by_cases e : q = p
    · subst e; simp [St.modSess]
    · simp [St.modSess, e]
  split
  · rename_i y _
    refine linkInv_congr hmod rfl rfl rfl rfl rfl (fun q => ⟨rfl, rfl⟩) ?_
    intro z
    by_cases e : z = y
    · subst e; simp [St.modHero]
    · simp [St.modHero, e]
  · exact hmod

theorem linkInv_setReconnet {s : St} (h : LinkInv s) (p : ℕ) : LinkInv (setReconnet s p) :=
  linkInv_setState h p .online true

theorem linkInv_setWaitReconnet {s : St} (h : LinkInv s) (p : ℕ) : LinkInv (setWaitReconnet s p) :=
  linkInv_setState h p .offline false

/-- a session object that is created and entered under a free id -/
theorem linkInv_open {s : St} (h : LinkInv s) (t a g : ℕ) (ht : s.onlines[t]? = none) :
    LinkInv { s with sess := Function.update s.sess s.nextSess { tranid := t, account := a, gate := g }
                     onlines := s.onlines.insertIfNew t s.nextSess
                     nextSess := s.nextSess + 1 } := by
  have hon : ∀ t' q : ℕ, (s.onlines.insertIfNew t s.nextSess)[t']? = some q ↔
      (t' = t ∧ q = s.nextSess) ∨ (t' ≠ t ∧ s.onlines[t']? = some q) := by
    intro t' q
    rw [get_insertIfNew]
    split_ifs with e
    · simp [e.1, eq_comm]
    · have : t' ≠ t := fun e' => e ⟨e', ht⟩
      simp [this]
  have hold : ∀ t' q : ℕ, s.onlines[t']? = some q → q ≠ s.nextSess := fun t' q hq => ((h.tran t' q hq).2).ne
  refine ⟨?_, h.known, ?_, ?_, h.timer, h.noNull⟩
  · intro t' q hq
    rcases (hon t' q).1 hq with ⟨rfl, rfl⟩ | ⟨-, hq'⟩
    · simp
    · obtain ⟨h1, h2⟩ := h.tran t' q hq'
      exact ⟨by simp [hold t' q hq', h1], Nat.lt_succ_of_lt h2⟩
  · intro t' q y hq hy
    rcases (hon t' q).1 hq with ⟨rfl, rfl⟩ | ⟨-, hq'⟩
    · simp at hy
    · exact h.fwd t' q y hq' (by simpa [hold t' q hq'] using hy)
  · intro y q hq
    obtain ⟨t', ht', hy⟩ := h.bwd y q hq
    have hne : t' ≠ t := fun e => by simp [← e, ht'] at ht
    exact ⟨t', (hon t' q).2 (Or.inr ⟨hne, ht'⟩), by simpa [hold t' q ht'] using hy⟩

theorem linkInv_addUser {s : St} (h : LinkInv s) (g t a : ℕ) (c : ℤ) (hex : Exclusive s (.addUser g t a c)) :
    LinkInv (parseAddUser s g t a c) := by
  have hchan : ∀ {u : St} (p : ℕ), LinkInv u → LinkInv (u.modSess p fun x => { x with channel := c }) := by
    intro u p hu
    refine linkInv_congr hu rfl rfl rfl rfl rfl ?_ fun y => ⟨rfl, id⟩
    intro q
    by_cases e : q = p
    · subst e; simp [St.modSess]
    · simp [St.modSess, e]
  cases ht : s.onlines[t]? with
  | some p =>
    have hex' := hex.1 p ht
    simp only [parseAddUser, addUser, ht, hex', and_self, if_true]
    exact hchan p (linkInv_setReconnet h p)
  | none =>
    have hopen := linkInv_open h t a g ht
    set s1 : St := { s with sess := Function.update s.sess s.nextSess { tranid := t, account := a, gate := g }
                            onlines := s.onlines.insertIfNew t s.nextSess
                            nextSess := s.nextSess + 1 } with hs1
    simp only [parseAddUser, addUser, ht]
    refine hchan _ ?_
    cases hh : s.heroes[a]? with
    | none =>
      simp only [newSession, St.modSess, hh]
      exact linkInv_congr hopen rfl rfl rfl rfl rfl (fun q => ⟨rfl, rfl⟩) fun y => ⟨rfl, id⟩
    | some x =>
      have hidle : (s.hero x).session = none := hex.2 ht x hh
      have hon1 : s1.onlines[t]? = some s.nextSess := by
        rw [hs1]
        simp only [get_insertIfNew, ht, and_self, if_true]
      have hnew : s1.sess s.nextSess = { tranid := t, account := a, gate := g } := by simp [hs1]
      simp only [newSession, St.modSess, hh]
      refine linkInv_link (s := s1) (t := t) (p := s.nextSess) (x := x) hopen hon1 ?_ ?_ ?_ ?_ ?_
        ?_ ⟨a, ?_⟩ ?_ ?_ ?_ ?_ ?_
      · simp [setSession, stopDestroyClock, St.modHero, hs1]
      · simp [setSession, stopDestroyClock, St.modHero, hs1]
      · simp [setSession, stopDestroyClock, St.modHero, hs1]
      · intro q
        by_cases e : q = s.nextSess <;> simp [setSession, stopDestroyClock, St.modHero, hs1, e]
      · intro q
        by_cases e : q = s.nextSess <;> simp [setSession, stopDestroyClock, St.modHero, hs1, e]
      · intro k y hk
        simpa [setSession, stopDestroyClock, St.modHero] using hk
      · simpa [setSession, stopDestroyClock, St.modHero] using hh
      · intro k y hk
        simp only [sendClientInit_heroes, sendClientInit_nextHero] at hk ⊢
        exact h.known k y hk
      · intro y
        by_cases e : y = x <;> simp [setSession, stopDestroyClock, St.modHero, hs1, e]
      · intro y hy
        by_cases e : y = x
        · subst e; simp at hy
        · exact ⟨e, by simpa [setSession, stopDestroyClock, St.modHero, e] using hy⟩
      · intro q hq
        exact absurd (hidle.symm.trans hq) (Option.some_ne_none q).symm
      · intro y hy
        rw [hnew] at hy
        exact absurd hy.symm (Option.some_ne_none y)

theorem linkInv_queryHeroInfo {s : St} (h : LinkInv s) (t i : ℕ) (hex : Exclusive s (.queryHeroInfo t i)) :
    LinkInv (parseQueryHeroInfo s t i) := by
  cases ht : s.onlines[t]? with
  | none => simpa only [parseQueryHeroInfo, ht] using h
  | some p =>
    cases hp : (s.sess p).dreamHero with
    | some y =>
      simp only [parseQueryHeroInfo, ht, hp]
      exact linkInv_sendClientInit h y
    | none =>
      obtain ⟨hidle, hnew⟩ := hex p ht hp
      cases hh : s.heroes[(s.sess p).account]? with
      | some x =>
        simp only [parseQueryHeroInfo, ht, hp, createHeroFrom, hh, St.modSess, Function.update_self]
        refine linkInv_sendClientInit ?_ x
        refine linkInv_link (s := s) (t := t) (p := p) (x := x) h ht rfl rfl rfl ?_ ?_
          (fun k y hk => hk) ⟨_, hh⟩ h.known ?_ ?_ ?_ ?_
        · intro q
          by_cases e : q = p <;> simp [stopDestroyClock, St.modHero, e]
        · intro q
          by_cases e : q = p <;> simp [stopDestroyClock, St.modHero, e]
        · intro y
          by_cases e : y = x <;> simp [stopDestroyClock, St.modHero, e]
        · intro y hy
          by_cases e : y = x
          · subst e; simp [stopDestroyClock, St.modHero] at hy
          · exact ⟨e, by simpa [stopDestroyClock, St.modHero, e] using hy⟩
        · intro q hq
          exact absurd ((hidle x hh).symm.trans hq) (Option.some_ne_none q).symm
        · intro y hy
          exact absurd (hp.symm.trans hy) (Option.some_ne_none y).symm
      | none =>
        simp only [parseQueryHeroInfo, ht, hp, createHeroFrom, hh, St.modSess, Function.update_self]
        refine linkInv_sendClientInit ?_ s.nextHero
        refine linkInv_link (s := s) (t := t) (p := p) (x := s.nextHero) h ht rfl rfl rfl ?_ ?_
          ?_ ⟨i, ?_⟩ ?_ ?_ ?_ ?_ ?_
        · intro q
          by_cases e : q = p <;> simp [stopDestroyClock, St.modHero, e]
        · intro q
          by_cases e : q = p <;> simp [stopDestroyClock, St.modHero, e]
        · intro k y hk
          simp only [stopDestroyClock, St.modHero, get_insertIfNew]
          rw [if_neg fun e => by rw [e.1, hnew hh] at hk; exact absurd hk.symm (Option.some_ne_none y)]
          exact hk
        · simp only [stopDestroyClock, St.modHero, get_insertIfNew, hnew hh, and_self, if_true]
        · intro k y hk
          simp only [stopDestroyClock, St.modHero, get_insertIfNew] at hk ⊢
          split_ifs at hk with e
          · obtain rfl := Option.some.inj hk
            exact Nat.lt_succ_self _
          · exact Nat.lt_succ_of_lt (h.known k y hk)
        · intro y
          by_cases e : y = s.nextHero <;> simp [stopDestroyClock, St.modHero, e]
        · intro y hy
          by_cases e : y = s.nextHero
          · subst e; simp [stopDestroyClock, St.modHero] at hy
          · exact ⟨e, by simpa [stopDestroyClock, St.modHero, e] using hy⟩
        · intro q hq
          exact absurd hq (h.fresh q)
        · intro y hy
          exact absurd (hp.symm.trans hy) (Option.some_ne_none y).symm

theorem linkInv_needCreateHero {s : St} (h : LinkInv s) (t : ℕ) (hex : Exclusive s (.needCreateHero t)) :
    LinkInv (parseNeedCreateHero s t) := by
  cases ht : s.onlines[t]? with
  | none => simpa only [parseNeedCreateHero, ht] using h
  | some p =>
    obtain ⟨hown, hfree⟩ := hex p ht
    cases hh : s.heroes[(s.sess p).account]? with
    | some x =>
      simp only [parseNeedCreateHero, ht, createHero, hh, St.modSess]
      refine linkInv_sendClientInit ?_ x
      refine linkInv_link (s := s) (t := t) (p := p) (x := x) h ht rfl rfl rfl ?_ ?_
        ?_ ⟨(s.sess p).account, ?_⟩ ?_ ?_ ?_ ?_
        ?_
      · intro q
        by_cases e : q = p <;> simp [stopDestroyClock, St.modHero, e]
      · intro q
        by_cases e : q = p <;> simp [stopDestroyClock, St.modHero, e]
      · intro k y hk
        simp only [stopDestroyClock, St.modHero, get_insertIfNew, hh, reduceCtorEq, and_false, if_false]
        exact hk
      · simp only [stopDestroyClock, St.modHero, get_insertIfNew, hh, reduceCtorEq, and_false, if_false]
      · intro k y hk
        simp only [stopDestroyClock, St.modHero, get_insertIfNew, hh, reduceCtorEq, and_false, if_false] at hk ⊢
        exact h.known k y hk
      · intro y
        by_cases e : y = x <;> simp [stopDestroyClock, St.modHero, e]
      · intro y hy
        by_cases e : y = x
        · subst e; simp [stopDestroyClock, St.modHero] at hy
        · exact ⟨e, by simpa [stopDestroyClock, St.modHero, e] using hy⟩
      · intro q hq
        rcases hfree x hh with e | e
        · exact absurd (e.symm.trans hq) (Option.some_ne_none q).symm
        · exact Option.some.inj (hq.symm.trans e)
      · intro y hy
        rcases hown with e | e
        · exact absurd (e.symm.trans hy) (Option.some_ne_none y).symm
        · exact Option.some.inj (hy.symm.trans (e.trans hh))
    | none =>
      simp only [parseNeedCreateHero, ht, createHero, hh, St.modSess]
      refine linkInv_sendClientInit ?_ s.nextHero
      refine linkInv_link (s := s) (t := t) (p := p) (x := s.nextHero) h ht rfl rfl rfl ?_ ?_
        ?_ ⟨(s.sess p).account, ?_⟩ ?_ ?_ ?_ ?_
        ?_
      · intro q
        by_cases e : q = p <;> simp [stopDestroyClock, St.modHero, e]
      · intro q
        by_cases e : q = p <;> simp [stopDestroyClock, St.modHero, e]
      · intro k y hk
        simp only [stopDestroyClock, St.modHero, get_insertIfNew]
        rw [if_neg fun e => by rw [e.1, hh] at hk; exact absurd hk.symm (Option.some_ne_none y)]
        exact hk
      · simp only [stopDestroyClock, St.modHero, get_insertIfNew, hh, and_self, if_true]
      · intro k y hk
        simp only [stopDestroyClock, St.modHero, get_insertIfNew] at hk ⊢
        split_ifs at hk with e
        · obtain rfl := Option.some.inj hk
          exact Nat.lt_succ_self _
        · exact Nat.lt_succ_of_lt (h.known k y hk)
      · intro y
        by_cases e : y = s.nextHero <;> simp [stopDestroyClock, St.modHero, e]
      · intro y hy
        by_cases e : y = s.nextHero
        · subst e; simp [stopDestroyClock, St.modHero] at hy
        · exact ⟨e, by simpa [stopDestroyClock, St.modHero, e] using hy⟩
      · intro q hq
        exact absurd hq (h.fresh q)
      · intro y hy
        rcases hown with e | e
        · exact absurd (e.symm.trans hy) (Option.some_ne_none y).symm
        · exact absurd (hy.symm.trans (e.trans hh)) (Option.some_ne_none y)

/-- the destroy timer fires on a hero that no session plays -/
theorem linkInv_destroy {s : St} (h : LinkInv s) {x : ℕ} (hx : (s.hero x).destroyEvent = true) :
    LinkInv (destroy s x) := by
  have hidle := h.timer x hx
  simp only [destroy, hidle, destroyHero]
  split_ifs with hk
  · refine ⟨h.tran, ?_, ?_, ?_, ?_, h.noNull⟩
    · intro k y hy
      simp only [get_erase] at hy
      split_ifs at hy
      exact h.known k y hy
    · intro t p y ht hp
      obtain ⟨⟨k, hk'⟩, hback⟩ := h.fwd t p y ht hp
      have hyx : y ≠ x := fun e => by rw [e, hidle] at hback; exact absurd hback.symm (Option.some_ne_none p)
      refine ⟨⟨k, ?_⟩, by simpa [St.modHero, hyx] using hback⟩
      simp only [get_erase]
      rw [if_neg fun e : k = (s.hero x).account => hyx (Option.some.inj (hk'.symm.trans (e ▸ hk)))]
      exact hk'
    · intro y p hp
      refine h.bwd y p ?_
      by_cases e : y = x
      · subst e; simpa [St.modHero] using hp
      · simpa [St.modHero, e] using hp
    · intro y hy
      by_cases e : y = x
      · subst e; simp [St.modHero] at hy
      · simp only [St.modHero, Function.update_of_ne e] at hy ⊢
        exact h.timer y hy
  · exact h

/-- **One event.** -/
theorem linkInv_step (s : St) (o : Op) (h : LinkInv s) (hex : Exclusive s o) : LinkInv (step s o) := by
  cases o with
  | addUser g t a c => exact linkInv_addUser h g t a c hex
  | removeUser t =>
    simp only [step, removeUser]
    split
    · rename_i p hp
      exact linkInv_dropUser h hp
    · exact h
  | offlineUser t =>
    simp only [step, offlineUser]
    split
    · exact linkInv_setWaitReconnet h _
    · exact h
  | removeUserByGate g => exact linkInv_removeUserByGate h g
  | queryHeroInfo t i => exact linkInv_queryHeroInfo h t i hex
  | needCreateHero t => exact linkInv_needCreateHero h t hex
  | clientMsg t =>
    simp only [step]
    split
    · exact linkInv_congr h rfl rfl rfl rfl rfl (fun _ => ⟨rfl, rfl⟩) fun _ => ⟨rfl, id⟩
    · exact h
  | fireDestroy x =>
    simp only [step]
    split_ifs with hx
    · exact linkInv_destroy h hx
    · exact h

/-! ## No linked hero is destroyed -/

theorem dropUser_heroes (s : St) (t p : ℕ) : (dropUser s t p).heroes = s.heroes := by
  have hclose : (closeSession s p).heroes = s.heroes := by unfold closeSession; split <;> rfl
  have hrel : ∀ u : St, (releaseSession u p).heroes = u.heroes := by
    intro u
    unfold releaseSession
    split <;> rfl
  simp only [dropUser, hrel, hclose]

theorem removeLoop_heroes (g : ℕ) (s : St) (l : List (ℕ × ℕ)) : (removeLoop g s l).heroes = s.heroes := by
  induction l generalizing s with
  | nil => rfl
  | cons e l ih =>
    simp only [removeLoop, List.foldl_cons] at ih ⊢
    rw [ih]
    split_ifs
    · exact dropUser_heroes s _ _
    · rfl

/-- the map of the heroes never loses an entry to an insertion -/
theorem insertIfNew_keeps {m : Std.TreeMap ℕ ℕ} {k x : ℕ} (h : m[k]? = some x) (j y : ℕ) :
    (m.insertIfNew j y)[k]? = some x := by
  rw [get_insertIfNew, if_neg fun e => by rw [← e.1, h] at e; exact absurd e.2 (Option.some_ne_none x)]
  exact h

/-- only the destroy timer takes a hero out of the manager -/
theorem heroes_keep (s : St) (o : Op) (ho : ∀ x, o ≠ .fireDestroy x) {k x : ℕ} (h : s.heroes[k]? = some x) :
    (step s o).heroes[k]? = some x := by
  cases o with
  | addUser g t a c =>
    cases ht : s.onlines[t]? with
    | some p =>
      have hre : (setReconnet s p).heroes = s.heroes := by simp only [setReconnet]; split <;> rfl
      simp only [step, parseAddUser, addUser, ht]
      split_ifs
      · simpa only [St.modSess, hre] using h
      · exact h
    | none =>
      have hnew : (newSession s t a g).2.heroes = s.heroes := by
        simp only [newSession]
        split
        · rw [sendClientInit_heroes]; rfl
        · rfl
      simpa only [step, parseAddUser, addUser, ht, St.modSess, hnew] using h
  | removeUser t =>
    simp only [step, removeUser]
    split
    · rw [dropUser_heroes]; exact h
    · exact h
  | offlineUser t =>
    simp only [step, offlineUser]
    split
    · simp only [setWaitReconnet]; split <;> exact h
    · exact h
  | removeUserByGate g => simp only [step, removeUserByGate, removeLoop_heroes]; exact h
  | queryHeroInfo t i =>
    cases ht : s.onlines[t]? with
    | none => simpa only [step, parseQueryHeroInfo, ht] using h
    | some p =>
      cases hp : (s.sess p).dreamHero with
      | some y => simpa only [step, parseQueryHeroInfo, ht, hp, sendClientInit_heroes] using h
      | none =>
        simp only [step, parseQueryHeroInfo, ht, hp, St.modSess, Function.update_self, sendClientInit_heroes]
        cases hh : s.heroes[(s.sess p).account]? with
        | some y =>
          simp only [createHeroFrom, hh]
          exact h
        | none =>
          simp only [createHeroFrom, hh]
          exact insertIfNew_keeps h _ _
  | needCreateHero t =>
    cases ht : s.onlines[t]? with
    | none => simpa only [step, parseNeedCreateHero, ht] using h
    | some p =>
      simp only [step, parseNeedCreateHero, ht, St.modSess, sendClientInit_heroes]
      cases hh : s.heroes[(s.sess p).account]? <;>
        · simp only [createHero, hh]
          exact insertIfNew_keeps h _ _
  | clientMsg t =>
    simp only [step]
    split <;> exact h
  | fireDestroy x => exact absurd rfl (ho x)

/-- **No linked hero is destroyed.** In a state of the invariant every event spares the heroes that are played. -/
theorem spares_step (s : St) (o : Op) (h : LinkInv s) : SparesLinked s o := by
  intro k x t p hk hp _
  cases o with
  | fireDestroy y =>
    simp only [step]
    split_ifs with hy
    · have hidle := h.timer y hy
      have hxy : x ≠ y := fun e => by rw [e, hidle] at hp; exact absurd hp.symm (Option.some_ne_none p)
      simp only [destroy, hidle, destroyHero]
      split_ifs with hk'
      · simp only [get_erase]
        rw [if_neg fun e : k = (s.hero y).account => hxy (Option.some.inj (hk.symm.trans (e ▸ hk')))]
        exact hk
      · exact hk
    · exact hk
  | _ => exact heroes_keep s _ (by intro y e; cases e) hk

/-! ## Runs -/

/-- **The link holds along exclusive events.** If every event of a run meets `Exclusive`, then every state it reaches
is `Linked`, and none of its events destroys a hero whose session is live. -/
theorem linked_run (ops : List Op) (hops : Along step Exclusive init ops) :
    (∀ pre, pre <+: ops → Linked (run step init pre)) ∧ Along step SparesLinked init ops := by
  refine ⟨?_, Along.imp linkInv_step (fun s o h _ => spares_step s o h) linkInv_init hops⟩
  rintro pre ⟨rest, rfl⟩
  exact (inv_run linkInv_step linkInv_init ((along_append step _ _ pre rest).1 hops).1).linked

/-- login, creation of the hero, drop, reconnect under the same id, logout, and the destroy timer -/
def oneSession : List Op :=
  [.addUser 1 7 5 0, .needCreateHero 7, .offlineUser 7, .addUser 1 7 5 0, .removeUser 7, .fireDestroy 1]

theorem linked_oneSession :
    (∀ pre, pre <+: oneSession → Linked (run step init pre)) ∧ Along step SparesLinked init oneSession := by
  refine linked_run oneSession ?_
  decide

/-- **A second login breaks the link.** The account 5 logs in under 7 and, before 7 is removed, under 8; the first
session keeps the hero that now belongs to the second. -/
theorem second_login_breaks_link :
    ¬∀ ops, Linked (run step init ops) := by
  intro h
  have := ((h [.addUser 1 7 5 0, .needCreateHero 7, .addUser 1 8 5 0]).hero 7 1 1 (by decide) (by decide)).2
  revert this
  decide

end DreamHeroes.GameServer

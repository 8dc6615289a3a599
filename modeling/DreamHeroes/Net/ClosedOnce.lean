/-
One place for every session object, one `on_close` for every accepted connection.

The first half always holds (`places_run`): an object is in the pool, handed to `async_accept`, waiting for its posted
`handle_accept`, or serving a connection, and in one of these only. `on_close` gives an object back only if it has a
father, and `free_session` takes the father away.

The second half does not. The pending read and the pending write of a connection each call `_on_close` when they fail,
and `m_isvalid`, which would stop the second, is cleared only when the first callback is polled
(`closed_twice`). `close_and_ban` posts a `handle_close` and leaves no handler behind that would call `_on_close`.
`Safe` says what an event has to meet:

- `closeInv_step`: the invariant `CloseInv` is kept by every `Safe` event; `unsafe_breaks`: an event that is not `Safe`
  breaks the property at once.
- `closed_once_iff`: every accepted connection gets exactly one `on_close` in every state of a run exactly when all
  events of the run are `Safe`.
-/
import Mathlib.Tactic
import DreamHeroes.Net.TcpServer

namespace DreamHeroes.Net

open DreamHeroes.Lib

/-! ## One place for every object -/

/-- the pool, the sockets handed to `async_accept` and the accepted ones that have not started -/
def places (s : St) : List ℕ := s.sessions ++ s.accepting ++ s.posted

structure PlaceInv (s : St) : Prop where
  nodup : (places s).Nodup
  notLive : ∀ p ∈ places s, (s.sess p).father = false

/-- what the places read: the three lists and the fathers -/
theorem placeInv_congr {s s' : St} (h : PlaceInv s) (h1 : s'.sessions = s.sessions) (h2 : s'.accepting = s.accepting)
    (h3 : s'.posted = s.posted) (hf : ∀ p, (s'.sess p).father = (s.sess p).father) : PlaceInv s' := by
  have hp : places s' = places s := by rw [places, places, h1, h2, h3]
  exact ⟨hp ▸ h.nodup, fun p hp' => by rw [hf]; exact h.notLive p (hp ▸ hp')⟩

theorem placeInv_perm {s s' : St} (h : PlaceInv s) (hp : List.Perm (places s') (places s))
    (hf : ∀ p, (s'.sess p).father = (s.sess p).father) : PlaceInv s' :=
  ⟨hp.nodup_iff.2 h.nodup, fun p hp' => by rw [hf]; exact h.notLive p (hp.mem_iff.1 hp')⟩

theorem placeInv_modSess {s : St} (h : PlaceInv s) (p : ℕ) (f : TcpSession → TcpSession)
    (hf : ∀ u, (f u).father = u.father) : PlaceInv (s.modSess p f) := by
  refine placeInv_congr h rfl rfl rfl ?_
  intro q
  by_cases e : q = p
  · subst e; simp [St.modSess, hf]
  · simp [St.modSess, e]

/-- a live object goes back to the pool -/
theorem placeInv_freeLive {s : St} (h : PlaceInv s) {p : ℕ} (hp : (s.sess p).father = true) :
    PlaceInv (freeSession s p) := by
  have hnot : p ∉ places s := fun hmem => by rw [h.notLive p hmem] at hp; exact absurd hp Bool.false_ne_true
  have hperm : List.Perm (places (freeSession s p)) (p :: places s) := by
    simp only [places, freeSession, St.modSess]
    rw [List.append_assoc, List.append_assoc, List.append_assoc]
    exact List.perm_middle
  refine ⟨hperm.nodup_iff.2 (List.nodup_cons.2 ⟨hnot, h.nodup⟩), ?_⟩
  intro q hq
  by_cases e : q = p
  · subst e; simp [freeSession, St.modSess, TcpSession.reset]
  · have hq' : q ∈ places s := (List.mem_cons.1 (hperm.mem_iff.1 hq)).resolve_left e
    simpa [freeSession, St.modSess, e] using h.notLive q hq'

/-- an object whose accept has failed goes back to the pool -/
theorem placeInv_freeAccept {s : St} (h : PlaceInv s) {p : ℕ} (hp : p ∈ s.accepting) :
    PlaceInv (freeSession (handleClose { s with accepting := s.accepting.erase p } p) p) := by
  have hf : ∀ u : TcpSession, (TcpSession.reset u).father = false := fun _ => rfl
  have hperm : List.Perm (s.sessions ++ [p] ++ s.accepting.erase p ++ s.posted) (places s) := by
    have h1 : List.Perm (p :: s.accepting.erase p) s.accepting := (List.perm_cons_erase hp).symm
    have h2 := (h1.append_left s.sessions).append_right s.posted
    simpa [places] using h2
  refine ⟨hperm.nodup_iff.2 h.nodup, ?_⟩
  intro q hq
  by_cases e : q = p
  · subst e; simp [freeSession, St.modSess, hf]
  · simpa [freeSession, handleClose, St.modSess, e] using h.notLive q (hperm.mem_iff.1 hq)

theorem placeInv_onCloseIntern {s : St} (h : PlaceInv s) (p : ℕ) : PlaceInv (onCloseIntern s p) := by
  have hmod := placeInv_modSess h p (fun u => { u with shut := true, isconnected := false }) fun _ => rfl
  simp only [onCloseIntern]
  split_ifs
  · exact ⟨hmod.nodup, hmod.notLive⟩
  · exact hmod

theorem placeInv_writeMessage {s : St} (h : PlaceInv s) (p : ℕ) (more : Bool) : PlaceInv (writeMessage s p more) := by
  have hmod := placeInv_modSess h p (fun u => { u with isSendingData := true }) fun _ => rfl
  simp only [writeMessage]
  split_ifs
  · exact ⟨hmod.nodup, hmod.notLive⟩
  · exact h

theorem placeInv_step (s : St) (o : Op) (h : PlaceInv s) : PlaceInv (step s o) := by
  cases o with
  | listen =>
    simp only [step, listen]
    split
    · exact h
    · rename_i p rest hs
      have hmod := placeInv_modSess h p (fun u => { u with isvalid := true }) fun _ => rfl
      split_ifs
      · refine placeInv_perm hmod ?_ fun q => rfl
        have hmid : List.Perm (rest ++ (s.accepting ++ [p])) (p :: rest ++ s.accepting) := by
          rw [← List.append_assoc]
          exact List.perm_append_singleton p (rest ++ s.accepting)
        simpa only [places, hs, St.modSess] using hmid.append_right s.posted
      · exact h
  | accept p r =>
    simp only [step, serverHandleAccept]
    split_ifs with hp
    · cases r with
      | ok =>
        have hmod := placeInv_modSess h p (fun u => { u with shut := false }) fun _ => rfl
        refine placeInv_perm hmod ?_ fun q => rfl
        have hmid : List.Perm (s.accepting.erase p ++ (s.posted ++ [p])) (s.accepting ++ s.posted) := by
          rw [← List.append_assoc]
          apply (List.perm_append_singleton p _).trans
          exact ((List.perm_cons_erase hp).symm).append_right s.posted
        simpa only [places, List.append_assoc, St.modSess] using hmid.append_left s.sessions
      | banned => exact placeInv_freeAccept h hp
      | error => exact placeInv_freeAccept h hp
    · exact h
  | handleAccept p =>
    simp only [step, handleAccept]
    split_ifs with hp
    · have hsub : List.Sublist (s.sessions ++ s.accepting ++ s.posted.erase p) (places s) :=
        List.Sublist.append_left List.erase_sublist _
      have hnot : p ∉ s.sessions ++ s.accepting ++ s.posted.erase p := by
        have hperm : List.Perm (p :: (s.sessions ++ s.accepting ++ s.posted.erase p)) (places s) :=
          calc List.Perm (p :: (s.sessions ++ s.accepting ++ s.posted.erase p))
                (s.sessions ++ s.accepting ++ p :: s.posted.erase p) := List.perm_middle.symm
            List.Perm _ (places s) := (List.perm_cons_erase hp).symm.append_left _
        exact (List.nodup_cons.1 (hperm.nodup_iff.2 h.nodup)).1
      refine ⟨h.nodup.sublist hsub, ?_⟩
      intro q hq
      have hqp : q ≠ p := fun e => hnot (e ▸ hq)
      simpa [St.modSess, hqp] using h.notLive q (hsub.subset hq)
    · exact h
  | readSome p g r =>
    have h' : PlaceInv { s with reads := s.reads.erase (p, g) } := placeInv_congr h rfl rfl rfl fun _ => rfl
    simp only [step, handleReadSome]
    split_ifs
    · cases r with
      | error => exact placeInv_onCloseIntern h' p
      | frames => exact placeInv_congr h rfl rfl rfl fun _ => rfl
      | badLength => exact placeInv_congr h rfl rfl rfl fun _ => rfl
      | badCheckSum =>
        have hclose : PlaceInv (close { s with reads := s.reads.erase (p, g) } p) := ⟨h'.nodup, h'.notLive⟩
        exact placeInv_onCloseIntern hclose p
    · exact h'
    · exact h
  | writeMessage p more => exact placeInv_writeMessage h p more
  | write p g ok more =>
    have h' : PlaceInv { s with writes := s.writes.erase (p, g) } := placeInv_congr h rfl rfl rfl fun _ => rfl
    simp only [step, handleWrite]
    split_ifs
    · exact placeInv_writeMessage
        (placeInv_modSess h' p (fun u => { u with isSendingData := false }) fun _ => rfl) p more
    · exact placeInv_onCloseIntern h' p
    · exact h'
    · exact h
  | close p =>
    simp only [step]
    split_ifs
    · exact placeInv_congr h rfl rfl rfl fun _ => rfl
    · exact h
  | handleClose p =>
    simp only [step, handleClose]
    split_ifs
    · exact placeInv_modSess (s := { s with closes := s.closes.erase p }) ⟨h.nodup, h.notLive⟩ p _ fun _ => rfl
    · exact h
  | poll =>
    simp only [step, poll]
    split
    · exact h
    · exact placeInv_congr h rfl rfl rfl fun _ => rfl
    · rename_i p g rest hs
      simp only [onClose]
      have h' : PlaceInv { s with cb := rest } := placeInv_congr h rfl rfl rfl fun _ => rfl
      split_ifs with hf
      · exact placeInv_freeLive h' hf
      · exact h'

theorem create_places (n : ℕ) (s : St) (hs : s.accepting = [] ∧ s.posted = []) :
    places ((List.range n).foldl freeSession s) = s.sessions ++ List.range n := by
  induction n with
  | zero => simp [places, hs]
  | succ n ih =>
    have hlists : ((List.range n).foldl freeSession s).accepting = [] ∧
        ((List.range n).foldl freeSession s).posted = [] := by
      have hfold : ∀ (l : List ℕ) (u : St), (l.foldl freeSession u).accepting = u.accepting ∧
          (l.foldl freeSession u).posted = u.posted := by
        intro l
        induction l with
        | nil => exact fun u => ⟨rfl, rfl⟩
        | cons a l ihl => exact fun u => ihl (freeSession u a)
      exact ⟨(hfold _ s).1.trans hs.1, (hfold _ s).2.trans hs.2⟩
    rw [List.range_succ, List.foldl_append, List.foldl_cons, List.foldl_nil, ← List.append_assoc, ← ih]
    simp [places, freeSession, St.modSess, hlists]

/-- the fresh server: every object in the pool, none used yet -/
theorem create_fresh (n k p : ℕ) : (create n k).sess p = {} := by
  have hfold : ∀ (l : List ℕ) (u : St), (∀ q, u.sess q = {}) → ∀ q, (l.foldl freeSession u).sess q = {} := by
    intro l
    induction l with
    | nil => exact fun u hu => hu
    | cons a l ih =>
      refine fun u hu => ih (freeSession u a) ?_
      intro q
      by_cases e : q = a
      · subst e; simp [freeSession, St.modSess, hu, TcpSession.reset]
      · simp [freeSession, St.modSess, hu, e]
  exact hfold _ _ (fun _ => rfl) p

theorem placeInv_create (n k : ℕ) : PlaceInv (create n k) := by
  refine ⟨?_, fun p _ => by rw [create_fresh]⟩
  have h : places (create n k) = List.range n := by
    rw [create, create_places n _ ⟨rfl, rfl⟩]
    simp
  rw [h]
  exact List.nodup_range

/-- **One place for every object.** After any run an object is in at most one of the pool, the sockets handed to
`async_accept` and the accepted ones that have not started, and none of these serves a connection. -/
theorem places_run (n k : ℕ) (ops : List Op) : PlaceInv (run step (create n k) ops) :=
  inv_run_all placeInv_step ops (placeInv_create n k)

/-! ## The property -/

/-- the socket of the connection `(p, g)` is shut: the object serves a later connection, none, or this one with its
socket closed -/
def Shut (s : St) (p g : ℕ) : Prop := g < (s.sess p).gen ∨ (s.sess p).father = false ∨ (s.sess p).shut = true

/-- every session object has one place, and every accepted connection gets exactly one `on_close`: never two, and never
none once its socket is shut and no handler of it is pending -/
structure ClosedOnce (s : St) : Prop where
  place : PlaceInv s
  neverTwo : s.closed.Nodup
  neverNone : ∀ p g, 1 ≤ g → g ≤ (s.sess p).gen → Shut s p g → (p, g) ∉ s.reads → (p, g) ∉ s.writes →
    (p, g) ∈ s.closed

/-- the live connection of `p` has its `on_close` queued, or a handler pending that will notice the shut socket -/
def Covered (s : St) (p : ℕ) : Prop := s.conn p ∈ s.closed ∨ s.conn p ∈ s.reads ∨ s.conn p ∈ s.writes

theorem covered_modSess (s : St) (p q : ℕ) (f : TcpSession → TcpSession) (hg : ∀ u, (f u).gen = u.gen) :
    Covered (s.modSess p f) q ↔ Covered s q := by
  rw [Covered, Covered, St.conn_modSess s p q hg]
  rfl

/-- what an event has to meet, when it runs on the object of a live connection: a handler that fails finds no `on_close`
queued for it; a handler that succeeds and starts nothing, on a shut socket, is not the last one; a posted
`handle_close` finds a handler pending or the `on_close` queued -/
def Safe (s : St) : Op → Prop
  | .readSome p g r =>
    (p, g) ∈ s.reads → (s.sess p).father = true →
      match r with
      | .error | .badCheckSum => s.conn p ∉ s.closed
      | .frames => True
      | .badLength => (s.sess p).shut = true → Covered { s with reads := s.reads.erase (p, g) } p
  | .write p g ok more =>
    (p, g) ∈ s.writes → (s.sess p).father = true →
      if ok then
        (s.sess p).shut = true → ¬((s.sess p).isconnected = true ∧ more = true) →
          Covered { s with writes := s.writes.erase (p, g) } p
      else s.conn p ∉ s.closed
  | .handleClose p => p ∈ s.closes → (s.sess p).father = true → Covered s p
  | _ => True

/-! ## The invariant -/

/-- the connections whose `on_close` is queued -/
def closings (cb : List Call) : List (ℕ × ℕ) :=
  cb.filterMap fun c => match c with
    | .onClose p g => some (p, g)
    | .onAccept _ _ => none

@[simp] theorem closings_append (a b : List Call) : closings (a ++ b) = closings a ++ closings b :=
  List.filterMap_append

/-- what holds of the callbacks, whichever handlers are pending -/
structure CountInv (s : St) : Prop where
  place : PlaceInv s
  valid : ∀ p, (s.sess p).father = true → (s.sess p).isvalid = true
  started : ∀ p, (s.sess p).father = true → 1 ≤ (s.sess p).gen
  nodup : s.closed.Nodup
  bound : ∀ p g, (p, g) ∈ s.closed → g ≤ (s.sess p).gen
  once : (closings s.cb).Nodup
  queued : ∀ p g, (p, g) ∈ closings s.cb → (s.sess p).father = true ∧ g = (s.sess p).gen ∧ (p, g) ∈ s.closed
  done : ∀ p g, 1 ≤ g → g ≤ (s.sess p).gen → g < (s.sess p).gen ∨ (s.sess p).father = false → (p, g) ∈ s.closed

/-- a live connection with a shut socket is not forgotten -/
def NoneLost (s : St) : Prop := ∀ p, (s.sess p).father = true → (s.sess p).shut = true → Covered s p

structure CloseInv (s : St) : Prop extends CountInv s where
  noneLost : NoneLost s

theorem CloseInv.closedOnce {s : St} (h : CloseInv s) : ClosedOnce s := by
  refine ⟨h.place, h.nodup, ?_⟩
  intro p g h1 hg hshut hr hw
  by_cases hpast : g < (s.sess p).gen ∨ (s.sess p).father = false
  · exact h.done p g h1 hg hpast
  · obtain ⟨hge, hlive⟩ := not_or.1 hpast
    have hgen : g = (s.sess p).gen := le_antisymm hg (not_lt.1 hge)
    have hs : (s.sess p).shut = true := (hshut.resolve_left hge).resolve_left hlive
    have hconn : s.conn p = (p, g) := by rw [St.conn, hgen]
    have hcov := h.noneLost p (Bool.not_eq_false _ ▸ hlive) hs
    rw [Covered, hconn] at hcov
    exact hcov.resolve_right fun e => e.elim hr hw

theorem closeInv_create (n k : ℕ) : CloseInv (create n k) := by
  have hlists : (create n k).closed = [] ∧ (create n k).cb = [] := by
    have hfold : ∀ (l : List ℕ) (u : St), (l.foldl freeSession u).closed = u.closed ∧
        (l.foldl freeSession u).cb = u.cb := by
      intro l
      induction l with
      | nil => exact fun u => ⟨rfl, rfl⟩
      | cons a l ih => exact fun u => ih (freeSession u a)
    exact hfold _ _
  refine ⟨⟨placeInv_create n k, ?_, ?_, ?_, ?_, ?_, ?_, ?_⟩, ?_⟩
  · simp [create_fresh]
  · simp [create_fresh]
  · simp [hlists]
  · simp [hlists]
  · simp [hlists, closings]
  · simp [hlists, closings]
  · intro p g h1 hg _
    rw [create_fresh] at hg
    exact absurd (le_trans h1 hg) (by decide)
  · simp [NoneLost, create_fresh]

/-! ### What the callbacks read -/

/-- pending handlers, posts and buffers are not read -/
theorem countInv_congr {s s' : St} (h : CountInv s) (hplace : PlaceInv s') (hc : s'.closed = s.closed)
    (hcb : closings s'.cb = closings s.cb) (hf : ∀ p, (s'.sess p).father = (s.sess p).father)
    (hg : ∀ p, (s'.sess p).gen = (s.sess p).gen)
    (hv : ∀ p, (s.sess p).father = true → (s'.sess p).isvalid = (s.sess p).isvalid) : CountInv s' := by
  refine ⟨hplace, ?_, ?_, hc ▸ h.nodup, ?_, hcb ▸ h.once, ?_,
    ?_⟩
  · intro p hp
    have hp' := (hf p).symm.trans hp
    rw [hv p hp', h.valid p hp']
  · intro p hp
    rw [hg]; exact h.started p ((hf p).symm.trans hp)
  · intro p g hm
    rw [hg]; exact h.bound p g (hc ▸ hm)
  · intro p g hm
    rw [hf, hg, hc]; exact h.queued p g (hcb ▸ hm)
  · intro p g h1 hle hpast
    rw [hg] at hle hpast
    rw [hf] at hpast
    rw [hc]
    exact h.done p g h1 hle hpast

/-- `_on_close` on a connection without a queued `on_close` -/
theorem countInv_onCloseIntern {s : St} (h : CountInv s) (p : ℕ) (hplace : PlaceInv (onCloseIntern s p))
    (hs : (s.sess p).father = true → s.conn p ∉ s.closed) : CountInv (onCloseIntern s p) := by
  have hsess : ∀ q, ((onCloseIntern s p).sess q).father = (s.sess q).father ∧
      ((onCloseIntern s p).sess q).gen = (s.sess q).gen ∧
      ((onCloseIntern s p).sess q).isvalid = (s.sess q).isvalid := by
    intro q
    rcases eq_or_ne q p with rfl | hq
    · simp only [onCloseIntern]; split_ifs <;> simp
    · simp only [onCloseIntern]; split_ifs <;> simp [hq]
  cases hf : (s.sess p).father with
  | false =>
    refine countInv_congr h hplace ?_ ?_ (fun q => (hsess q).1) (fun q => (hsess q).2.1) fun q _ => (hsess q).2.2
    · simp [onCloseIntern, hf, St.modSess]
    · simp [onCloseIntern, hf, St.modSess]
  | true =>
    have hnew : s.conn p ∉ s.closed := hs hf
    have hcb : closings (onCloseIntern s p).cb = closings s.cb ++ [s.conn p] := by
      simp [onCloseIntern, hf, closings, St.conn, St.modSess]
    have hc : (onCloseIntern s p).closed = s.closed ++ [s.conn p] := by
      simp [onCloseIntern, hf, St.conn, St.modSess]
    refine ⟨hplace, ?_, ?_, ?_, ?_, ?_, ?_,
      ?_⟩
    · intro q hq
      rw [(hsess q).2.2]; exact h.valid q ((hsess q).1 ▸ hq)
    · intro q hq
      rw [(hsess q).2.1]; exact h.started q ((hsess q).1 ▸ hq)
    · rw [hc, List.nodup_append_comm]
      exact List.nodup_cons.2 ⟨hnew, h.nodup⟩
    · intro q g hm
      rw [(hsess q).2.1]
      rw [hc, List.mem_append, List.mem_singleton] at hm
      rcases hm with hm | hm
      · exact h.bound q g hm
      · obtain ⟨rfl, rfl⟩ := Prod.mk.inj hm
        exact le_rfl
    · rw [hcb, List.nodup_append_comm]
      exact List.nodup_cons.2 ⟨fun hm => hnew (h.queued p _ hm).2.2, h.once⟩
    · intro q g hm
      rw [(hsess q).1, (hsess q).2.1, hc]
      rw [hcb, List.mem_append, List.mem_singleton] at hm
      rcases hm with hm | hm
      · have hq := h.queued q g hm
        exact ⟨hq.1, hq.2.1, List.mem_append_left _ hq.2.2⟩
      · obtain ⟨rfl, rfl⟩ := Prod.mk.inj hm
        exact ⟨hf, rfl, List.mem_append_right _ (List.mem_singleton.2 rfl)⟩
    · intro q g h1 hle hpast
      rw [(hsess q).2.1] at hle hpast
      rw [(hsess q).1] at hpast
      rw [hc]
      exact List.mem_append_left _ (h.done q g h1 hle hpast)

/-- `on_close` called from the queue: the object of a queued callback goes back to the pool -/
theorem countInv_onClose {s : St} (h : CountInv s) {p g : ℕ} {rest : List Call} (hs : s.cb = .onClose p g :: rest) :
    CountInv (onClose { s with cb := rest } p) := by
  have hcb : closings s.cb = (p, g) :: closings rest := by rw [hs]; rfl
  obtain ⟨hlive, hgen, hin⟩ := h.queued p g (hcb ▸ List.mem_cons_self)
  have hfree : onClose { s with cb := rest } p = freeSession { s with cb := rest } p := if_pos hlive
  have hnodup : (p, g) ∉ closings rest ∧ (closings rest).Nodup := List.nodup_cons.1 (hcb ▸ h.once)
  have hsess : ∀ q, q ≠ p → (freeSession { s with cb := rest } p).sess q = s.sess q := by
    intro q hq
    exact St.modSess_ne { s with cb := rest } TcpSession.reset hq
  have hp : (freeSession { s with cb := rest } p).sess p = (s.sess p).reset :=
    St.modSess_self { s with cb := rest } p TcpSession.reset
  rw [hfree]
  refine ⟨placeInv_freeLive (s := { s with cb := rest }) ⟨h.place.nodup, h.place.notLive⟩ hlive, ?_,
    ?_, h.nodup, ?_, hnodup.2, ?_, ?_⟩
  · intro q hq
    rcases eq_or_ne q p with rfl | hqp
    · rw [hp] at hq; exact absurd hq Bool.false_ne_true
    · rw [hsess q hqp] at hq ⊢; exact h.valid q hq
  · intro q hq
    rcases eq_or_ne q p with rfl | hqp
    · rw [hp] at hq; exact absurd hq Bool.false_ne_true
    · rw [hsess q hqp] at hq ⊢; exact h.started q hq
  · intro q g' hm
    rcases eq_or_ne q p with rfl | hqp
    · rw [hp]; exact h.bound q g' hm
    · rw [hsess q hqp]; exact h.bound q g' hm
  · intro q g' hm
    have hq := h.queued q g' (hcb ▸ List.mem_cons_of_mem _ hm)
    rcases eq_or_ne q p with rfl | hqp
    · exact absurd (hgen.trans hq.2.1.symm ▸ hm) hnodup.1
    · rw [hsess q hqp]; exact hq
  · intro q g' h1 hle hpast
    rcases eq_or_ne q p with rfl | hqp
    · rw [hp] at hle
      rcases lt_or_eq_of_le hle with hlt | heq
      · exact h.done q g' h1 hle (Or.inl hlt)
      · have hg' : g' = g := heq.trans hgen.symm
        exact hg' ▸ hin
    · rw [hsess q hqp] at hle hpast; exact h.done q g' h1 hle hpast

/-- `handle_accept` on an object that serves nothing: a new connection, with no callback of its own yet -/
theorem countInv_handleAccept {s : St} (h : CountInv s) {p : ℕ} (hp : (s.sess p).father = false)
    (hplace : PlaceInv (handleAccept s p)) : CountInv (handleAccept s p) := by
  have hsess : ∀ q, q ≠ p → (handleAccept s p).sess q = s.sess q := by
    intro q hq; simp [handleAccept, St.modSess, hq]
  have hnew : ((handleAccept s p).sess p).father = true ∧ ((handleAccept s p).sess p).isvalid = true ∧
      ((handleAccept s p).sess p).gen = (s.sess p).gen + 1 := by simp [handleAccept, St.modSess]
  have hcb : closings (handleAccept s p).cb = closings s.cb := by simp [handleAccept, closings, St.modSess]
  refine ⟨hplace, ?_, ?_, h.nodup, ?_, hcb ▸ h.once, ?_,
    ?_⟩
  · intro q hq
    rcases eq_or_ne q p with rfl | hqp
    · exact hnew.2.1
    · rw [hsess q hqp] at hq ⊢; exact h.valid q hq
  · intro q hq
    rcases eq_or_ne q p with rfl | hqp
    · rw [hnew.2.2]; omega
    · rw [hsess q hqp] at hq ⊢; exact h.started q hq
  · intro q g hm
    rcases eq_or_ne q p with rfl | hqp
    · have := h.bound q g hm
      rw [hnew.2.2]; omega
    · rw [hsess q hqp]; exact h.bound q g hm
  · intro q g hm
    have hq := h.queued q g (hcb ▸ hm)
    rcases eq_or_ne q p with rfl | hqp
    · rw [hp] at hq; exact absurd hq.1 Bool.false_ne_true
    · rw [hsess q hqp]; exact hq
  · intro q g h1 hle hpast
    rcases eq_or_ne q p with rfl | hqp
    · rw [hnew.1, hnew.2.2] at hpast
      have hlt : g < (s.sess q).gen + 1 := hpast.resolve_right Bool.noConfusion
      exact h.done q g h1 (by omega) (Or.inr hp)
    · rw [hsess q hqp] at hle hpast; exact h.done q g h1 hle hpast

theorem countInv_modSess {s : St} (h : CountInv s) (p : ℕ) (f : TcpSession → TcpSession)
    (hf : ∀ u, (f u).father = u.father) (hg : ∀ u, (f u).gen = u.gen)
    (hv : (s.sess p).father = true → (f (s.sess p)).isvalid = (s.sess p).isvalid) : CountInv (s.modSess p f) := by
  apply countInv_congr h (placeInv_modSess h.place p f hf) rfl rfl
  · intro q
    rcases eq_or_ne q p with rfl | hqp
    · rw [St.modSess_self, hf]
    · rw [St.modSess_ne s f hqp]
  · intro q
    rcases eq_or_ne q p with rfl | hqp
    · rw [St.modSess_self, hg]
    · rw [St.modSess_ne s f hqp]
  · intro q hq
    rcases eq_or_ne q p with rfl | hqp
    · rw [St.modSess_self, hv hq]
    · rw [St.modSess_ne s f hqp]

/-- the handlers, posts and lists that the callbacks do not read -/
theorem countInv_frame {s s' : St} (h : CountInv s) (hplace : PlaceInv s') (hc : s'.closed = s.closed)
    (hcb : s'.cb = s.cb) (hsess : s'.sess = s.sess) : CountInv s' :=
  countInv_congr h hplace hc (by rw [hcb]) (fun p => by rw [hsess]) (fun p => by rw [hsess]) fun p _ => by rw [hsess]

theorem countInv_writeMessage {s : St} (h : CountInv s) (p : ℕ) (more : Bool) :
    CountInv (writeMessage s p more) := by
  have hmod := countInv_modSess h p (fun u => { u with isSendingData := true }) (fun _ => rfl) (fun _ => rfl)
    fun _ => rfl
  have hplace := placeInv_writeMessage h.place p more
  simp only [writeMessage] at hplace ⊢
  split_ifs with hc
  · rw [if_pos hc] at hplace
    exact countInv_frame hmod hplace rfl rfl rfl
  · exact h

/-- an accept that has failed: the object served nothing, and serves nothing in the pool -/
theorem countInv_freeAccept {s : St} (h : CountInv s) {p : ℕ} (hp : p ∈ s.accepting) :
    CountInv (freeSession (handleClose { s with accepting := s.accepting.erase p } p) p) := by
  have hidle : (s.sess p).father = false := h.place.notLive p (by simp [places, hp])
  apply countInv_congr h (placeInv_freeAccept h.place hp) rfl rfl
  · intro q
    rcases eq_or_ne q p with rfl | hqp
    · simp [freeSession, TcpSession.reset, hidle]
    · simp [freeSession, handleClose, hqp]
  · intro q
    rcases eq_or_ne q p with rfl | hqp
    · simp [freeSession, handleClose, TcpSession.reset]
    · simp [freeSession, handleClose, hqp]
  · intro q hq
    rcases eq_or_ne q p with rfl | hqp
    · rw [hidle] at hq; exact absurd hq Bool.false_ne_true
    · simp [freeSession, handleClose, hqp]

theorem countInv_step (s : St) (o : Op) (h : CountInv s) (hsafe : Safe s o) : CountInv (step s o) := by
  have hplace : PlaceInv (step s o) := placeInv_step s o h.place
  cases o with
  | listen =>
    simp only [step, listen] at hplace ⊢
    split at hplace
    · exact h
    · rename_i p rest hs
      have hidle : (s.sess p).father = false := h.place.notLive p (by simp [places, hs])
      have hmod := countInv_modSess h p (fun u => { u with isvalid := true }) (fun _ => rfl) (fun _ => rfl)
        fun hp => absurd (hidle.symm.trans hp) Bool.false_ne_true
      split_ifs with hlt
      · rw [if_pos hlt] at hplace
        exact countInv_frame hmod hplace rfl rfl rfl
      · exact h
  | accept p r =>
    simp only [step, serverHandleAccept] at hplace ⊢
    split_ifs with hp
    · rw [if_pos hp] at hplace
      cases r with
      | ok =>
        have hmod := countInv_modSess h p (fun u => { u with shut := false }) (fun _ => rfl) (fun _ => rfl)
          fun _ => rfl
        exact countInv_frame hmod hplace rfl rfl rfl
      | banned => exact countInv_freeAccept h hp
      | error => exact countInv_freeAccept h hp
    · exact h
  | handleAccept p =>
    simp only [step] at hplace ⊢
    split_ifs with hp
    · rw [if_pos hp] at hplace
      have hidle : (s.sess p).father = false := h.place.notLive p (by simp [places, hp])
      have herase : PlaceInv { s with posted := s.posted.erase p } :=
        ⟨h.place.nodup.sublist (List.Sublist.append_left List.erase_sublist _),
          fun q hq => h.place.notLive q ((List.Sublist.append_left List.erase_sublist _).subset hq)⟩
      exact countInv_handleAccept (countInv_frame h herase rfl rfl rfl) hidle hplace
    · exact h
  | readSome p g r =>
    have h' : CountInv { s with reads := s.reads.erase (p, g) } :=
      countInv_frame h ⟨h.place.nodup, h.place.notLive⟩ rfl rfl rfl
    simp only [step, handleReadSome] at hplace ⊢
    split_ifs with hm hv
    · rw [if_pos hm, if_pos hv] at hplace
      have hs := hsafe hm
      cases r with
      | error => exact countInv_onCloseIntern h' p hplace hs
      | frames => exact countInv_frame h' hplace rfl rfl rfl
      | badLength => exact countInv_frame h' hplace rfl rfl rfl
      | badCheckSum =>
        have hc : CountInv (close { s with reads := s.reads.erase (p, g) } p) :=
          countInv_frame h' ⟨h.place.nodup, h.place.notLive⟩ rfl rfl rfl
        exact countInv_onCloseIntern hc p hplace hs
    · exact h'
    · exact h
  | writeMessage p more => exact countInv_writeMessage h p more
  | write p g ok more =>
    have h' : CountInv { s with writes := s.writes.erase (p, g) } :=
      countInv_frame h ⟨h.place.nodup, h.place.notLive⟩ rfl rfl rfl
    simp only [step, handleWrite] at hplace ⊢
    split_ifs with hm hv hok
    · have hmod := countInv_modSess h' p (fun u => { u with isSendingData := false }) (fun _ => rfl) (fun _ => rfl)
        fun _ => rfl
      exact countInv_writeMessage hmod p more
    · rw [if_pos hm, if_pos hv, if_neg hok] at hplace
      apply countInv_onCloseIntern h' p hplace
      intro hp
      have hs := hsafe hm hp
      rw [if_neg hok] at hs
      exact hs
    · exact h'
    · exact h
  | close p =>
    simp only [step, close] at hplace ⊢
    split_ifs with hp
    · rw [if_pos hp] at hplace
      exact countInv_frame h hplace rfl rfl rfl
    · exact h
  | handleClose p =>
    simp only [step, handleClose] at hplace ⊢
    split_ifs with hp
    · have h' : CountInv { s with closes := s.closes.erase p } :=
        countInv_frame h ⟨h.place.nodup, h.place.notLive⟩ rfl rfl rfl
      exact countInv_modSess h' p _ (fun _ => rfl) (fun _ => rfl) fun _ => rfl
    · exact h
  | poll =>
    simp only [step, poll] at hplace ⊢
    split
    · exact h
    · rename_i p g rest hs
      have hcb : closings rest = closings s.cb := by rw [hs]; rfl
      exact countInv_congr h ⟨h.place.nodup, h.place.notLive⟩ rfl hcb (fun _ => rfl) (fun _ => rfl) fun _ _ => rfl
    · rename_i p g rest hs
      exact countInv_onClose h hs

/-! ### What the pending handlers guard -/

/-- the objects besides `p` -/
def NoneLostBut (s : St) (p : ℕ) : Prop :=
  ∀ q, q ≠ p → (s.sess q).father = true → (s.sess q).shut = true → Covered s q

theorem NoneLost.but {s : St} (h : NoneLost s) (p : ℕ) : NoneLostBut s p := fun q _ => h q

/-- a handler of `p` runs -/
theorem NoneLost.eraseRead {s : St} (h : NoneLost s) (p g : ℕ) :
    NoneLostBut { s with reads := s.reads.erase (p, g) } p := by
  intro q hqp hlive hshut
  rcases h q hlive hshut with hin | hin | hin
  · exact Or.inl hin
  · exact Or.inr (Or.inl ((List.mem_erase_of_ne fun e => hqp (Prod.mk.inj e).1).2 hin))
  · exact Or.inr (Or.inr hin)

theorem NoneLost.eraseWrite {s : St} (h : NoneLost s) (p g : ℕ) :
    NoneLostBut { s with writes := s.writes.erase (p, g) } p := by
  intro q hqp hlive hshut
  rcases h q hlive hshut with hin | hin | hin
  · exact Or.inl hin
  · exact Or.inr (Or.inl hin)
  · exact Or.inr (Or.inr ((List.mem_erase_of_ne fun e => hqp (Prod.mk.inj e).1).2 hin))

/-- an event on the object `p`: the others keep their socket, their handlers and their callbacks -/
theorem noneLost_at {s s' : St} {p : ℕ} (h : NoneLostBut s p) (hsess : ∀ q, q ≠ p → s'.sess q = s.sess q)
    (hc : s.closed ⊆ s'.closed) (hr : s.reads ⊆ s'.reads) (hw : s.writes ⊆ s'.writes)
    (hp : (s'.sess p).father = true → (s'.sess p).shut = true → Covered s' p) : NoneLost s' := by
  intro q hlive hshut
  rcases eq_or_ne q p with rfl | hqp
  · exact hp hlive hshut
  · rw [hsess q hqp] at hlive hshut
    rw [Covered, St.conn, hsess q hqp]
    rcases h q hqp hlive hshut with hin | hin | hin
    · exact Or.inl (hc hin)
    · exact Or.inr (Or.inl (hr hin))
    · exact Or.inr (Or.inr (hw hin))

/-- an object that serves no connection has nothing to lose -/
theorem noneLost_idle {s s' : St} {p : ℕ} (h : NoneLostBut s p) (hsess : ∀ q, q ≠ p → s'.sess q = s.sess q)
    (hc : s'.closed = s.closed) (hr : s'.reads = s.reads) (hw : s'.writes = s.writes)
    (hp : (s'.sess p).father = false) : NoneLost s' :=
  noneLost_at h hsess (hc ▸ List.Subset.refl _) (hr ▸ List.Subset.refl _) (hw ▸ List.Subset.refl _)
    fun hlive => absurd (hp.symm.trans hlive) Bool.false_ne_true

/-- `_on_close` queues the `on_close` of the connection whose socket it shuts -/
theorem noneLost_onCloseIntern {s : St} {p : ℕ} (h : NoneLostBut s p) : NoneLost (onCloseIntern s p) := by
  simp only [onCloseIntern]
  split_ifs with hf
  · refine noneLost_at h (fun q hqp => by simp [hqp]) (List.subset_append_left _ _) (List.Subset.refl _)
      (List.Subset.refl _) ?_
    intro _ _
    left
    exact List.mem_append_right _ (List.mem_singleton.2 rfl)
  · refine noneLost_idle h (fun q hqp => by simp [hqp]) rfl rfl rfl ?_
    exact Bool.not_eq_true _ ▸ hf

theorem noneLost_writeMessage {s : St} {p : ℕ} (h : NoneLostBut s p) (more : Bool)
    (hp : (s.sess p).father = true → (s.sess p).shut = true →
      ¬((s.sess p).isconnected = true ∧ ¬(s.sess p).isSendingData = true ∧ more = true) → Covered s p) :
    NoneLost (writeMessage s p more) := by
  simp only [writeMessage]
  split_ifs with hc
  · refine noneLost_at h (fun q hqp => by simp [hqp]) (List.Subset.refl _) (List.Subset.refl _)
      (List.subset_append_left _ _) ?_
    intro _ _
    right; right
    exact List.mem_append_right _ (List.mem_singleton.2 rfl)
  · exact noneLost_at h (fun _ _ => rfl) (List.Subset.refl _) (List.Subset.refl _) (List.Subset.refl _)
      fun hlive hshut => hp hlive hshut hc

theorem noneLost_step (s : St) (o : Op) (h : CloseInv s) (hsafe : Safe s o) : NoneLost (step s o) := by
  have hlost := h.noneLost
  cases o with
  | listen =>
    simp only [step, listen]
    split
    · exact hlost
    · rename_i p rest hs
      have hidle : (s.sess p).father = false := h.place.notLive p (by simp [places, hs])
      split_ifs
      · refine noneLost_idle (hlost.but p) (fun q hqp => by simp [hqp]) rfl rfl rfl ?_
        simpa using hidle
      · exact hlost
  | accept p r =>
    simp only [step, serverHandleAccept]
    split_ifs with hp
    · have hidle : (s.sess p).father = false := h.place.notLive p (by simp [places, hp])
      have hfree : NoneLost (freeSession (handleClose { s with accepting := s.accepting.erase p } p) p) := by
        refine noneLost_idle (hlost.but p) ?_ rfl rfl rfl ?_
        · intro q hqp
          simp [freeSession, handleClose, hqp]
        · simp [freeSession, TcpSession.reset]
      cases r with
      | ok =>
        refine noneLost_idle (hlost.but p) (fun q hqp => by simp [hqp]) rfl rfl rfl ?_
        simpa using hidle
      | banned => exact hfree
      | error => exact hfree
    · exact hlost
  | handleAccept p =>
    simp only [step, handleAccept]
    split_ifs
    · refine noneLost_at (hlost.but p) (fun q hqp => by simp [hqp, St.modSess]) (List.Subset.refl _)
        (List.subset_append_left _ _) (List.Subset.refl _) ?_
      intro _ _
      right; left
      exact List.mem_append_right _ (List.mem_singleton.2 rfl)
    · exact hlost
  | readSome p g r =>
    have hbut := hlost.eraseRead p g
    simp only [step, handleReadSome]
    split_ifs with hm hv
    · have hs := hsafe hm
      cases r with
      | error => exact noneLost_onCloseIntern hbut
      | frames =>
        refine noneLost_at hbut (fun _ _ => rfl) (List.Subset.refl _) (List.subset_append_left _ _)
          (List.Subset.refl _) ?_
        intro _ _
        right; left
        exact List.mem_append_right _ (List.mem_singleton.2 rfl)
      | badLength =>
        exact noneLost_at hbut (fun _ _ => rfl) (List.Subset.refl _) (List.Subset.refl _) (List.Subset.refl _) hs
      | badCheckSum =>
        exact noneLost_onCloseIntern (s := close { s with reads := s.reads.erase (p, g) } p) hbut
    · apply noneLost_idle hbut (fun _ _ => rfl) rfl rfl rfl
      exact Bool.eq_false_iff.2 fun hlive => hv (h.valid p hlive)
    · exact hlost
  | writeMessage p more => exact noneLost_writeMessage (hlost.but p) more fun hlive hshut _ => hlost p hlive hshut
  | write p g ok more =>
    have hbut := hlost.eraseWrite p g
    simp only [step, handleWrite]
    split_ifs with hm hv hok
    · have hbut' : NoneLostBut ({ s with writes := s.writes.erase (p, g) }.modSess p
          fun u => { u with isSendingData := false }) p := by
        intro q hqp
        rw [covered_modSess, St.modSess_ne _ _ hqp]
        · exact hbut q hqp
        · exact fun _ => rfl
      apply noneLost_writeMessage hbut' more
      intro hlive hshut hstop
      simp only [St.modSess_self] at hlive hshut hstop
      have hs := hsafe hm hlive
      rw [if_pos hok] at hs
      rw [covered_modSess]
      · exact hs hshut (by simpa using hstop)
      · exact fun _ => rfl
    · exact noneLost_onCloseIntern hbut
    · apply noneLost_idle hbut (fun _ _ => rfl) rfl rfl rfl
      exact Bool.eq_false_iff.2 fun hlive => hv (h.valid p hlive)
    · exact hlost
  | close p =>
    simp only [step, close]
    split_ifs
    · exact hlost
    · exact hlost
  | handleClose p =>
    simp only [step, handleClose]
    split_ifs with hp
    · refine noneLost_at (hlost.but p) (fun q hqp => by simp [hqp]) (List.Subset.refl _) (List.Subset.refl _)
        (List.Subset.refl _) ?_
      intro hlive _
      rw [St.modSess_self] at hlive
      rw [covered_modSess]
      · exact hsafe hp hlive
      · exact fun _ => rfl
    · exact hlost
  | poll =>
    simp only [step, poll]
    split
    · exact hlost
    · exact hlost
    · rename_i p g rest hs
      simp only [onClose]
      split_ifs
      · refine noneLost_idle (hlost.but p) ?_ rfl rfl rfl ?_
        · intro q hqp
          simp [freeSession, hqp]
        · simp [freeSession, TcpSession.reset]
      · exact hlost

theorem closeInv_step (s : St) (o : Op) (h : CloseInv s) (hsafe : Safe s o) : CloseInv (step s o) :=
  ⟨countInv_step s o h.toCountInv hsafe, noneLost_step s o h hsafe⟩

/-! ## The guard is exact -/

/-- a second `_on_close` on one connection -/
theorem onCloseIntern_twice {s : St} {p : ℕ} (hlive : (s.sess p).father = true) (hc : s.conn p ∈ s.closed) :
    ¬ClosedOnce (onCloseIntern s p) := by
  intro h
  have hclosed : (onCloseIntern s p).closed = s.closed ++ [s.conn p] := by
    simp [onCloseIntern, hlive, St.conn, St.modSess]
  have hnodup := h.neverTwo
  rw [hclosed] at hnodup
  exact (List.nodup_append.1 hnodup).2.2 _ hc _ (List.mem_singleton.2 rfl) rfl

/-- a live connection with a shut socket, no handler and no callback -/
theorem lost_breaks {s : St} {p : ℕ} (h1 : 1 ≤ (s.sess p).gen) (hshut : (s.sess p).shut = true)
    (hcov : ¬Covered s p) : ¬ClosedOnce s := by
  intro h
  obtain ⟨hc, hr, hw⟩ : s.conn p ∉ s.closed ∧ s.conn p ∉ s.reads ∧ s.conn p ∉ s.writes := by
    rw [Covered, not_or, not_or] at hcov
    exact hcov
  exact hc (h.neverNone p _ h1 le_rfl (Or.inr (Or.inr hshut)) hr hw)

/-- an event that is not safe breaks the property in the state it leads to -/
theorem unsafe_breaks (s : St) (o : Op) (h : CloseInv s) (hn : ¬Safe s o) : ¬ClosedOnce (step s o) := by
  cases o with
  | readSome p g r =>
    simp only [Safe, Classical.not_imp] at hn
    obtain ⟨hm, hlive, hn⟩ := hn
    have hv := h.valid p hlive
    simp only [step, handleReadSome, if_pos hm, if_pos hv]
    cases r with
    | error => exact onCloseIntern_twice hlive (not_not.1 hn)
    | frames => exact absurd trivial hn
    | badLength =>
      obtain ⟨hshut, hcov⟩ := Classical.not_imp.1 hn
      exact lost_breaks (s := close { s with reads := s.reads.erase (p, g) } p) (h.started p hlive) hshut hcov
    | badCheckSum =>
      exact onCloseIntern_twice (s := close { s with reads := s.reads.erase (p, g) } p) hlive (not_not.1 hn)
  | write p g ok more =>
    simp only [Safe, Classical.not_imp] at hn
    obtain ⟨hm, hlive, hn⟩ := hn
    have hv := h.valid p hlive
    simp only [step, handleWrite, if_pos hm, if_pos hv]
    cases ok with
    | true =>
      rw [if_pos rfl] at hn ⊢
      obtain ⟨hshut, hn⟩ := Classical.not_imp.1 hn
      obtain ⟨hstop, hcov⟩ := Classical.not_imp.1 hn
      rw [writeMessage, if_neg (by simpa using hstop)]
      apply lost_breaks (p := p)
      · simpa using h.started p hlive
      · simpa using hshut
      · rw [covered_modSess]
        · exact hcov
        · exact fun _ => rfl
    | false =>
      exact onCloseIntern_twice hlive (not_not.1 hn)
  | handleClose p =>
    simp only [Safe, Classical.not_imp] at hn
    obtain ⟨hm, hlive, hcov⟩ := hn
    simp only [step, if_pos hm]
    apply lost_breaks (p := p)
    · simpa [handleClose] using h.started p hlive
    · simp [handleClose]
    · rw [handleClose, covered_modSess]
      · exact hcov
      · exact fun _ => rfl
  | listen => exact absurd trivial hn
  | accept p r => exact absurd trivial hn
  | handleAccept p => exact absurd trivial hn
  | writeMessage p more => exact absurd trivial hn
  | close p => exact absurd trivial hn
  | poll => exact absurd trivial hn

/-- **One `on_close` for every connection.** In every state of a run each accepted connection has exactly one `on_close`
(never two, and not none once its socket is shut and its handlers have run) exactly when every event of the run is
`Safe`. -/
theorem closed_once_iff (n k : ℕ) (ops : List Op) :
    (∀ pre, pre <+: ops → ClosedOnce (run step (create n k) pre)) ↔ Along step Safe (create n k) ops :=
  (along_iff_of (fun _ h => h.closedOnce)
    (fun s o _ h => ⟨closeInv_step s o h, fun hc => by_contra fun hn => unsafe_breaks s o h hn hc⟩)
    (closeInv_create n k)).symm

/-- the read of the connection fails, and the write that is still pending fails before `on_close` is polled: the second
`on_close` is called on an object that is back in the pool, or serves someone else -/
theorem closed_twice : ¬∀ (n k : ℕ) (ops : List Op), ClosedOnce (run step (create n k) ops) := by
  intro h
  have hnodup := (h 1 40 [.listen, .accept 0 .ok, .handleAccept 0, .writeMessage 0 true, .readSome 0 1 .error,
    .write 0 1 false false]).neverTwo
  revert hnodup
  decide

end DreamHeroes.Net

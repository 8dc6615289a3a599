/-
What a hero has saved when it is deleted.

A hero is written by its save timer (10 s) and by nothing else until the server shuts down; it is deleted by its destroy
timer (3 s), which starts when its session goes. `Destroy` does not save, so a hero that leaves within the 10 seconds
after a change loses the change (`logout_loses_change`).

- `unsaved`: bookkeeping; what the hero was created with, or a change since its last `SaveHero`, has not been written.
- `logoutInv_step`: a hero that has nothing unsaved is what its last statement says.
- `saved_at_logout`: when no destroy timer fires on a hero with something unsaved, the last statement of every deleted
  hero encodes its final state.
- `safe_of_scheduled`: the same condition by the schedule, without `unsaved`: before a destroy timer fires, the hero has
  been saved, and no column of its row has changed since.
-/
import Mathlib.Tactic
import DreamHeroes.Common.EventHolder
import DreamHeroes.Hero.DreamHero

namespace DreamHeroes.Hero.Logout

open DreamHeroes.Lib DreamHeroes.Common

/-! ## State -/

/-- the callbacks: of a hero, by its account, and of everything else that changes heroes on a timer -/
inductive Cb where
  | saveHero (a : ℕ)
  | destroy (a : ℕ)
  | other (f : ℕ → DreamHero → DreamHero)

/-- `sent` are the statements on `character`; `destroyed` is bookkeeping: the final state of every deleted hero, and
the last statement of its account at that moment -/
structure World where
  heroes : ℕ → Option DreamHero := fun _ => none
  sent : List CharacterRow := []
  unsaved : ℕ → Bool := fun _ => false
  destroyed : List (CharacterRow × Option CharacterRow) := []

abbrev St := Timed World Cb

def saveEvent : ℕ := 1
def destroyEvent : ℕ := 2

/-- `_SAVE_PLAYER_TIME_` -/
def savePlayerTime : ℕ := 10 * 1000

/-- `_REMOVE_PLAYER_TIME_` -/
def removePlayerTime : ℕ := 3 * 1000

variable (time : ℕ → String)

def lastRow (w : World) (a : ℕ) : Option CharacterRow := (w.sent.filter fun r => r.accountId = a).getLast?

/-! ## The hero -/

def startSave (s : St) (a : ℕ) : St :=
  if hasEvent s a saveEvent then s else addEvent s (some a) (.saveHero a) saveEvent savePlayerTime (-1)

def stopDestroyClock (s : St) (a : ℕ) : St :=
  if hasEvent s a destroyEvent then removeEvents s a destroyEvent else s

def startDestroyTime (s : St) (a : ℕ) : St :=
  let s := if hasEvent s a destroyEvent then removeEvents s a destroyEvent else s
  addEvent s (some a) (.destroy a) destroyEvent removePlayerTime (-1)

/-- a change of the hero, which keeps its account; it leaves something unsaved if the row is another one -/
def World.change (w : World) (a : ℕ) (f : DreamHero → DreamHero) : World :=
  match w.heroes a with
  | none => w
  | some h =>
    let h' := { f h with account := h.account }
    { w with
      heroes := Function.update w.heroes a (some h')
      unsaved := Function.update w.unsaved a (w.unsaved a || characterRow time h' ≠ characterRow time h) }

/-- `SaveHero`, as far as the table `character` goes -/
def World.saveHero (w : World) (a : ℕ) : World :=
  match w.heroes a with
  | none => w
  | some h =>
    { w with sent := w.sent ++ [characterRow time h], unsaved := Function.update w.unsaved a false }

/-- `Destroy` and `DestroyHero`: the object goes with its events -/
def destroy (s : St) (a : ℕ) : St :=
  match s.world.heroes a with
  | none => s
  | some h =>
    removeAllEvents
      { s with world :=
          { s.world with
            heroes := Function.update s.world.heroes a none
            destroyed := s.world.destroyed ++ [(characterRow time h, lastRow s.world a)] } } a

/-- `StopDestroyClock`, `dayRefresh`, `StartSave`; `f` is what `dayRefresh` does -/
def sendClientInit (s : St) (a : ℕ) (f : DreamHero → DreamHero) : St :=
  let s := stopDestroyClock s a
  let s := { s with world := s.world.change time a f }
  let s := startSave s a
  { s with world := s.world.change time a fun h => { h with online := true } }

/-! ## Steps -/

/-- what another timer does to every hero -/
def World.changeAll (w : World) (f : ℕ → DreamHero → DreamHero) : World :=
  { w with
    heroes := fun a => (w.heroes a).map fun h => { f a h with account := h.account }
    unsaved := fun a => w.unsaved a || match w.heroes a with
      | none => false
      | some h => characterRow time { f a h with account := h.account } ≠ characterRow time h }

def exec (cb : Cb) (s : St) : St :=
  match cb with
  | .saveHero a => { s with world := s.world.saveHero time a }
  | .destroy a => destroy time s a
  | .other f => { s with world := s.world.changeAll time f }

inductive Op where
  /-- `CreateHero` of both kinds, from the data of the database or from the configuration, and `SendClientInit` -/
  | createHero (a : ℕ) (h : DreamHero) (f : DreamHero → DreamHero)
  /-- the constructor of `Session` when the hero is in memory -/
  | newSession (a : ℕ) (f : DreamHero → DreamHero)
  /-- `Session::close`, and the destructor of `Session` -/
  | closeSession (a : ℕ)
  /-- `setReconnet`, `setWaitReconnet` -/
  | setOnline (a : ℕ) (online : Bool)
  | request (a : ℕ) (f : DreamHero → DreamHero)
  /-- a timer that is not of a hero: the recovery of spirit, the refresh of the day -/
  | addTimer (f : ℕ → DreamHero → DreamHero) (ms : ℕ) (repeats : ℤ)
  | update (d : ℕ)
  /-- `SaveDreamHeroes` for one of the heroes -/
  | saveDreamHero (a : ℕ)

def step (s : St) : Op → St
  | .createHero a h f =>
    match s.world.heroes a with
    | some _ => sendClientInit time s a f
    | none =>
      let h := { h with account := a }
      let w := { s.world with
        heroes := Function.update s.world.heroes a (some h)
        unsaved := Function.update s.world.unsaved a (lastRow s.world a ≠ some (characterRow time h)) }
      sendClientInit time (stopDestroyClock { s with world := w } a) a f
  | .newSession a f =>
    match s.world.heroes a with
    | some _ => sendClientInit time (stopDestroyClock s a) a f
    | none => s
  | .closeSession a =>
    match s.world.heroes a with
    | some _ => startDestroyTime s a
    | none => s
  | .setOnline a online => { s with world := s.world.change time a fun h => { h with online := online } }
  | .request a f => { s with world := s.world.change time a f }
  | .addTimer f ms repeats => addEvent s none (.other f) 0 ms repeats
  | .update d => update (exec time) s d
  | .saveDreamHero a => { s with world := s.world.saveHero time a }

def start : St := { world := {} }

/-! ## The property and its guard -/

/-- the last statement of every deleted hero encodes its final state -/
def SavedAtLogout (s : St) : Prop := ∀ e ∈ s.world.destroyed, e.2 = some e.1

/-- the destroy timer of a hero with something unsaved does not fire -/
def SafeVisit (d : ℕ) (s : St) (i : ℕ) : Prop :=
  match s.events[i]? with
  | none => True
  | some ev =>
    match ev.cb with
    | .destroy a => ev.deleted = false → ev.currTime ≤ d → (s.world.heroes a).isSome → s.world.unsaved a = false
    | _ => True

def Safe (s : St) : Op → Prop
  | .update d => Along (visit (exec time) d) (SafeVisit d) s (List.range s.events.length)
  | _ => True

/-! ## The invariant -/

structure LogoutInv (w : World) : Prop where
  account : ∀ a h, w.heroes a = some h → h.account = a
  saved : ∀ a h, w.heroes a = some h → w.unsaved a = false → lastRow w a = some (characterRow time h)
  destroyed : ∀ e ∈ w.destroyed, e.2 = some e.1

theorem logoutInv_change {w : World} (h : LogoutInv time w) (a : ℕ) (f : DreamHero → DreamHero) :
    LogoutInv time (w.change time a f) := by
  unfold World.change
  split
  · exact h
  · rename_i hero hh
    refine ⟨?_, ?_, h.destroyed⟩
    · intro a' h' ha'
      rcases eq_or_ne a' a with rfl | hne
      · simp only [Function.update_self, Option.some.injEq] at ha'
        rw [← ha']
        exact h.account a' hero hh
      · simp only [Function.update_of_ne hne] at ha'
        exact h.account a' h' ha'
    · intro a' h' ha' hu
      rcases eq_or_ne a' a with rfl | hne
      · simp only [Function.update_self, Option.some.injEq] at ha' hu
        obtain ⟨hold, hsame⟩ := Bool.or_eq_false_iff.1 hu
        have hrow : characterRow time { f hero with account := hero.account } = characterRow time hero := by
          simpa using hsame
        rw [← ha', hrow]
        exact h.saved a' hero hh hold
      · simp only [Function.update_of_ne hne] at ha' hu
        exact h.saved a' h' ha' hu

theorem logoutInv_changeAll {w : World} (h : LogoutInv time w) (f : ℕ → DreamHero → DreamHero) :
    LogoutInv time (w.changeAll time f) := by
  refine ⟨?_, ?_, h.destroyed⟩
  · intro a h' ha
    obtain ⟨hero, hh, rfl⟩ := Option.map_eq_some_iff.1 ha
    exact h.account a hero hh
  · intro a h' ha hu
    obtain ⟨hero, hh, rfl⟩ := Option.map_eq_some_iff.1 ha
    simp only [World.changeAll, hh] at hu
    obtain ⟨hold, hsame⟩ := Bool.or_eq_false_iff.1 hu
    have hrow : characterRow time { f a hero with account := hero.account } = characterRow time hero := by
      simpa using hsame
    rw [hrow]
    exact h.saved a hero hh hold

theorem lastRow_snoc (w : World) (r : CharacterRow) (a : ℕ) :
    lastRow { w with sent := w.sent ++ [r] } a = if r.accountId = a then some r else lastRow w a := by
  unfold lastRow
  rw [List.filter_append]
  split_ifs with h
  · simp [h]
  · simp [h]

theorem logoutInv_saveHero {w : World} (h : LogoutInv time w) (a : ℕ) : LogoutInv time (w.saveHero time a) := by
  unfold World.saveHero
  split
  · exact h
  · rename_i hero hh
    have hacc : (characterRow time hero).accountId = a := h.account a hero hh
    refine ⟨h.account, ?_, h.destroyed⟩
    intro a' h' ha' hu
    have hlast := lastRow_snoc w (characterRow time hero) a'
    rw [hacc] at hlast
    rcases eq_or_ne a' a with rfl | hne
    · have hsame : h' = hero := Option.some.inj (ha'.symm.trans hh)
      rw [hsame]
      exact hlast.trans (if_pos rfl)
    · simp only [Function.update_of_ne hne] at hu
      exact (hlast.trans (if_neg hne.symm)).trans (h.saved a' h' ha' hu)

/-- a hero is deleted with nothing unsaved -/
theorem logoutInv_destroy {s : St} (h : LogoutInv time s.world) (a : ℕ)
    (hu : (s.world.heroes a).isSome → s.world.unsaved a = false) : LogoutInv time (destroy time s a).world := by
  unfold destroy
  split
  · exact h
  · rename_i hero hh
    have hne : ∀ a' h', Function.update s.world.heroes a none a' = some h' → s.world.heroes a' = some h' := by
      intro a' h' ha'
      rcases eq_or_ne a' a with rfl | hne
      · simp at ha'
      · rwa [Function.update_of_ne hne] at ha'
    refine ⟨fun a' h' ha' => h.account a' h' (hne a' h' ha'), fun a' h' ha' => h.saved a' h' (hne a' h' ha'),
      ?_⟩
    intro e he
    rcases List.mem_append.1 he with he | he
    · exact h.destroyed e he
    · rw [List.mem_singleton.1 he]
      exact h.saved a hero hh (hu (by rw [hh]; rfl))

/-! ### Steps -/

theorem logoutInv_visit {d : ℕ} {s : St} {i : ℕ} (h : LogoutInv time s.world) (hsafe : SafeVisit d s i) :
    LogoutInv time (visit (exec time) d s i).world := by
  unfold visit
  split
  · exact h
  · rename_i ev hev
    split_ifs with herased hdel hdue
    · exact h
    · exact h
    · cases hcb : ev.cb with
      | saveHero a => exact logoutInv_saveHero time h a
      | destroy a =>
        simp only [SafeVisit, hev, hcb] at hsafe
        exact logoutInv_destroy time h a (hsafe (Bool.eq_false_iff.2 hdel) hdue)
      | other f => exact logoutInv_changeAll time h f
    · exact h

@[simp] theorem startSave_world (s : St) (a : ℕ) : (startSave s a).world = s.world := by
  unfold startSave; split_ifs <;> rfl

@[simp] theorem stopDestroyClock_world (s : St) (a : ℕ) : (stopDestroyClock s a).world = s.world := by
  unfold stopDestroyClock; split_ifs <;> rfl

@[simp] theorem startDestroyTime_world (s : St) (a : ℕ) : (startDestroyTime s a).world = s.world := by
  unfold startDestroyTime; split_ifs <;> rfl

theorem logoutInv_sendClientInit {s : St} (h : LogoutInv time s.world) (a : ℕ) (f : DreamHero → DreamHero) :
    LogoutInv time (sendClientInit time s a f).world := by
  simp only [sendClientInit, startSave_world, stopDestroyClock_world]
  exact logoutInv_change time (logoutInv_change time h a f) a _

theorem logoutInv_step (s : St) (o : Op) (h : LogoutInv time s.world) (hsafe : Safe time s o) :
    LogoutInv time (step time s o).world := by
  cases o with
  | createHero a hero f =>
    simp only [step]
    split
    · exact logoutInv_sendClientInit time h a f
    · refine logoutInv_sendClientInit time ?_ a f
      rw [stopDestroyClock_world]
      refine ⟨?_, ?_, h.destroyed⟩
      · intro a' h' ha'
        rcases eq_or_ne a' a with rfl | hne
        · simp only [Function.update_self, Option.some.injEq] at ha'
          rw [← ha']
        · simp only [Function.update_of_ne hne] at ha'
          exact h.account a' h' ha'
      · intro a' h' ha' hu
        rcases eq_or_ne a' a with rfl | hne
        · simp only [Function.update_self, Option.some.injEq, decide_eq_false_iff_not, not_not] at ha' hu
          rw [← ha']
          exact hu
        · simp only [Function.update_of_ne hne] at ha' hu
          exact h.saved a' h' ha' hu
  | newSession a f =>
    simp only [step]
    split
    · refine logoutInv_sendClientInit time ?_ a f
      rw [stopDestroyClock_world]
      exact h
    · exact h
  | closeSession a =>
    simp only [step]
    split
    · rw [startDestroyTime_world]; exact h
    · exact h
  | setOnline a online => exact logoutInv_change time h a _
  | request a f => exact logoutInv_change time h a f
  | addTimer f ms repeats => exact h
  | update d =>
    exact inv_run (I := fun u : St => LogoutInv time u.world) (fun _ _ hu hv => logoutInv_visit time hu hv) h hsafe
  | saveDreamHero a => exact logoutInv_saveHero time h a

theorem logoutInv_start : LogoutInv time start.world :=
  ⟨fun _ _ ha => absurd ha (Option.some_ne_none _).symm, fun _ _ ha => absurd ha (Option.some_ne_none _).symm,
    fun _ he => absurd he List.not_mem_nil⟩

/-- **Saved at logout.** In a run in which the destroy timer fires only on heroes with nothing unsaved, the last
statement of every deleted hero encodes its final state. -/
theorem saved_at_logout (ops : List Op) (hops : Along (step time) (Safe time) start ops) :
    ∀ pre, pre <+: ops → SavedAtLogout (run (step time) start pre) := by
  rintro pre ⟨post, rfl⟩
  have hpre := ((along_append (step time) (Safe time) start pre post).1 hops).1
  exact (inv_run (I := fun u : St => LogoutInv time u.world) (logoutInv_step time)
    (logoutInv_start time) hpre).destroyed

/-- a hero that leaves after its save timer has fired -/
theorem saved_after_tick :
    SavedAtLogout (run (step fun _ => "") start [.createHero 5 {} id, .update 10000, .closeSession 5, .update 3000]) :=
  saved_at_logout (fun _ => "") [.createHero 5 {} id, .update 10000, .closeSession 5, .update 3000]
    ⟨trivial, ⟨trivial, trivial⟩, trivial, ⟨trivial, fun _ _ _ => rfl, trivial⟩, trivial⟩ _ (List.prefix_refl _)

/-- a hero plays for a second and leaves -/
def quickLogout : List Op :=
  [.createHero 5 {} id, .update 1000, .request 5 fun h => { h with info := { h.info with gold := 100 } },
    .closeSession 5, .update 3000]

/-- three seconds later it is deleted, and nothing has been written -/
theorem logout_loses_change :
    ¬∀ (time : ℕ → String) (ops : List Op), SavedAtLogout (run (step time) start ops) := by
  intro h
  have hnone : (run (step fun _ => "") start quickLogout).world.destroyed.map Prod.snd = [none] := rfl
  obtain ⟨e, he, hlast⟩ := List.mem_map.1 (hnone ▸ List.mem_singleton.2 rfl)
  have hsaved : e.2 = some e.1 := h (fun _ => "") quickLogout e he
  rw [hlast] at hsaved
  exact absurd hsaved (Option.some_ne_none _).symm

/-! ## The schedule -/

/-- the loop of `update` at one entry, or an operation that is no update -/
inductive Turn where
  | event (d i : ℕ)
  | op (o : Op)

def turn (s : St) : Turn → St
  | .event d i => visit (exec time) d s i
  | .op o => step time s o

/-- the turns of a run -/
def turns (s : St) : List Op → List Turn
  | [] => []
  | .update d :: ops => (List.range s.events.length).map (.event d) ++ turns (step time s (.update d)) ops
  | o :: ops => .op o :: turns (step time s o) ops

/-- the row of the hero in memory -/
def row (w : World) (a : ℕ) : Option CharacterRow := (w.heroes a).map (characterRow time)

/-- no column of the row changes in the turn -/
def KeepsRow (a : ℕ) (s : St) (t : Turn) : Prop := row time (turn time s t).world a = row time s.world a

/-- the hero is saved in the turn: by its save timer, or by `SaveDreamHeroes` -/
def Saves (a : ℕ) (s : St) (t : Turn) : Prop := (turn time s t).world = s.world.saveHero time a

/-- the event at the entry is due, with this callback -/
def Due (d : ℕ) (s : St) (i : ℕ) (cb : Cb) : Prop :=
  ∃ ev, s.events[i]? = some ev ∧ ev.deleted = false ∧ ev.currTime ≤ d ∧ ev.cb = cb

/-- before the destroy timer of a hero fires, the hero has been saved, and no column of its row has changed since -/
def Scheduled (s : St) (l : List Turn) : Prop :=
  ∀ pre d i post a, l = pre ++ .event d i :: post → Due d (run (turn time) s pre) i (.destroy a) →
    ∃ before save mid, pre = before ++ save :: mid ∧ Saves time a (run (turn time) s before) save ∧
      Along (turn time) (KeepsRow time a) (run (turn time) s (before ++ [save])) mid

theorem saves_tick {s : St} {d i a : ℕ} {ev : TimedEvent Cb} (hev : s.events[i]? = some ev)
    (herased : ev.erased = false)
    (hdel : ev.deleted = false) (hdue : ev.currTime ≤ d) (hcb : ev.cb = .saveHero a) : Saves time a s (.event d i) := by
  rw [Saves, turn, visit, hev]
  simp [herased, hdel, hdue, hcb, exec]

/-- nothing of the hero is unsaved -/
def Clean (w : World) (a : ℕ) : Prop := (w.heroes a).isSome → w.unsaved a = false

/-! ### What keeps the row keeps it saved -/

section

variable {time} {w w' : World} {a b : ℕ} {s : St} {f : DreamHero → DreamHero}

theorem clean_congr (hheroes : w'.heroes a = w.heroes a) (hunsaved : w'.unsaved a = w.unsaved a) (h : Clean w a) :
    Clean w' a := by
  unfold Clean
  rw [hheroes, hunsaved]
  exact h

theorem clean_change (hrow : row time (w.change time b f) a = row time w a) (h : Clean w a) :
    Clean (w.change time b f) a := by
  cases hb : w.heroes b with
  | none =>
    have hsame : w.change time b f = w := by rw [World.change, hb]
    rwa [hsame]
  | some hero =>
    rw [World.change, hb] at hrow ⊢
    dsimp only at hrow ⊢
    rcases eq_or_ne a b with rfl | hne
    · intro _
      have hsame : characterRow time { f hero with account := hero.account } = characterRow time hero := by
        simpa [row, hb] using hrow
      have hold : w.unsaved a = false := h (by rw [hb]; rfl)
      simp [hold, hsame]
    · exact clean_congr (Function.update_of_ne hne _ _) (Function.update_of_ne hne _ _) h

theorem clean_changeAll {f : ℕ → DreamHero → DreamHero} (hrow : row time (w.changeAll time f) a = row time w a)
    (h : Clean w a) : Clean (w.changeAll time f) a := by
  cases ha : w.heroes a with
  | none =>
    intro hsome
    simp [World.changeAll, ha] at hsome
  | some hero =>
    intro _
    have hsame : characterRow time { f a hero with account := hero.account } = characterRow time hero := by
      simpa [row, World.changeAll, ha] using hrow
    have hold : w.unsaved a = false := h (by rw [ha]; rfl)
    simp [World.changeAll, ha, hold, hsame]

theorem clean_saveHero (h : a = b ∨ Clean w a) : Clean (w.saveHero time b) a := by
  unfold World.saveHero
  cases hb : w.heroes b with
  | none =>
    rcases h with rfl | h
    · intro hsome
      rw [hb] at hsome
      cases hsome
    · exact h
  | some hero =>
    intro hsome
    rcases eq_or_ne a b with rfl | hne
    · exact Function.update_self _ _ _
    · exact (Function.update_of_ne hne _ _).trans (h.resolve_left hne hsome)

theorem clean_destroy (h : Clean s.world a) : Clean (destroy time s b).world a := by
  unfold destroy
  split
  · exact h
  · rcases eq_or_ne a b with rfl | hne
    · intro hsome
      simp [removeAllEvents] at hsome
    · exact clean_congr (w := s.world) (Function.update_of_ne hne _ _) rfl h

/-- whether the hero is online is no column of its row -/
theorem row_change_online (online : Bool) :
    row time (w.change time b fun h => { h with online := online }) a = row time w a := by
  unfold World.change
  split
  · rfl
  · rename_i hero hb
    rcases eq_or_ne a b with rfl | hne
    · simp only [row, Function.update_self, hb, Option.map_some]
      rfl
    · simp only [row, Function.update_of_ne hne]

theorem clean_sendClientInit (hrow : row time (sendClientInit time s b f).world a = row time s.world a)
    (h : Clean s.world a) : Clean (sendClientInit time s b f).world a := by
  simp only [sendClientInit, startSave_world, stopDestroyClock_world] at hrow ⊢
  rw [row_change_online] at hrow
  exact clean_change (row_change_online true) (clean_change hrow h)

theorem row_sendClientInit (hne : a ≠ b) : row time (sendClientInit time s b f).world a = row time s.world a := by
  have hother (w : World) (f : DreamHero → DreamHero) : row time (w.change time b f) a = row time w a := by
    unfold World.change
    split
    · rfl
    · simp only [row, Function.update_of_ne hne]
  simp only [sendClientInit, startSave_world, stopDestroyClock_world]
  rw [hother, hother]

/-- a hero that is made is in memory -/
theorem sendClientInit_isSome (h : (s.world.heroes b).isSome) :
    ((sendClientInit time s b f).world.heroes b).isSome := by
  have hchange (w : World) (f : DreamHero → DreamHero) (h : (w.heroes b).isSome) :
      ((w.change time b f).heroes b).isSome := by
    unfold World.change
    split
    · exact h
    · simp
  simp only [sendClientInit, startSave_world, stopDestroyClock_world]
  exact hchange _ _ (hchange _ _ h)

theorem clean_visit {d i : ℕ} (hrow : row time (visit (exec time) d s i).world a = row time s.world a)
    (h : Clean s.world a) : Clean (visit (exec time) d s i).world a := by
  rcases visit_world_cases (exec time) d s i with hsame | ⟨ev, -, -, -, hexec⟩
  · rwa [hsame]
  · rw [hexec] at hrow ⊢
    cases hcb : ev.cb with
    | saveHero b => exact clean_saveHero (Or.inr h)
    | destroy b => exact clean_destroy h
    | other f =>
      rw [hcb] at hrow
      exact clean_changeAll hrow h

theorem clean_createHero {hero : DreamHero} (hrow : KeepsRow time a s (.op (.createHero b hero f)))
    (h : Clean s.world a) : Clean (turn time s (.op (.createHero b hero f))).world a := by
  rw [KeepsRow, turn, step] at hrow
  rw [turn, step]
  cases hb : s.world.heroes b with
  | some _ =>
    rw [hb] at hrow
    exact clean_sendClientInit hrow h
  | none =>
    rw [hb] at hrow
    dsimp only at hrow ⊢
    rcases eq_or_ne a b with rfl | hne
    · -- the hero has a row now, and it had none
      have hnone : row time s.world a = none := by rw [row, hb]; rfl
      rw [hnone, row, Option.map_eq_none_iff] at hrow
      let made := stopDestroyClock
        { s with world := { s.world with
            heroes := Function.update s.world.heroes a (some { hero with account := a })
            unsaved := Function.update s.world.unsaved a
              (lastRow s.world a ≠ some (characterRow time { hero with account := a })) } } a
      have hmade : ((sendClientInit time made a f).world.heroes a).isSome := sendClientInit_isSome (by simp [made])
      rw [hrow] at hmade
      cases hmade
    · refine clean_sendClientInit (row_sendClientInit hne) ?_
      rw [stopDestroyClock_world]
      exact clean_congr (w := s.world) (Function.update_of_ne hne _ _) (Function.update_of_ne hne _ _) h

/-- **A turn that changes no column of the row leaves nothing of it unsaved.** -/
theorem clean_turn {t : Turn} (hupdate : ∀ d, t ≠ .op (.update d)) (hrow : KeepsRow time a s t) (h : Clean s.world a) :
    Clean (turn time s t).world a := by
  cases t with
  | event d i => exact clean_visit hrow h
  | op o =>
    cases o with
    | createHero b hero f => exact clean_createHero hrow h
    | newSession b f =>
      rw [KeepsRow, turn, step] at hrow
      rw [turn, step]
      split at hrow
      · have hbase : Clean (stopDestroyClock s b).world a := by rwa [stopDestroyClock_world]
        rw [← stopDestroyClock_world s b] at hrow
        exact clean_sendClientInit hrow hbase
      · exact h
    | closeSession b =>
      rw [turn, step]
      split
      · rwa [startDestroyTime_world]
      · exact h
    | setOnline b online => exact clean_change hrow h
    | request b f => exact clean_change hrow h
    | addTimer f ms repeats => exact h
    | update d => exact absurd rfl (hupdate d)
    | saveDreamHero b => exact clean_saveHero (Or.inr h)

theorem clean_saves {t : Turn} (h : Saves time a s t) : Clean (turn time s t).world a := by
  rw [h]
  exact clean_saveHero (Or.inl rfl)

/-! ### Turns of a run -/

theorem turns_update {ops : List Op} {d : ℕ} : .op (.update d) ∉ turns time s ops := by
  induction ops generalizing s with
  | nil => exact List.not_mem_nil
  | cons o ops ih =>
    cases o with
    | update d' =>
      rw [turns, List.mem_append, not_or]
      exact ⟨by simp, ih⟩
    | _ => simp [turns, ih]

/-- the destroy timer of a hero with something unsaved does not fire in the turn -/
def SafeTurn (s : St) : Turn → Prop
  | .event d i => SafeVisit d s i
  | .op _ => True

theorem safeVisit_of_turns {d : ℕ} {l : List ℕ} (h : Along (turn time) SafeTurn s (l.map (.event d))) :
    Along (visit (exec time) d) (SafeVisit d) s l := by
  induction l generalizing s with
  | nil => trivial
  | cons i l ih => exact ⟨h.1, ih h.2⟩

theorem run_events (d : ℕ) (l : List ℕ) : run (turn time) s (l.map (.event d)) = run (visit (exec time) d) s l := by
  rw [run, List.foldl_map]
  rfl

theorem safe_of_turns {ops : List Op} (h : Along (turn time) SafeTurn s (turns time s ops)) :
    Along (step time) (Safe time) s ops := by
  induction ops generalizing s with
  | nil => trivial
  | cons o ops ih =>
    cases o with
    | update d =>
      rw [turns, along_append, run_events] at h
      exact ⟨safeVisit_of_turns h.1, ih h.2⟩
    | _ => exact ⟨trivial, ih h.2⟩

/-- **Safe by the schedule.** If in the turns of a run each hero has been saved before its destroy timer fires, and no
column of its row has changed in between, the run is `Safe`. -/
theorem safe_of_scheduled {ops : List Op} (h : Scheduled time s (turns time s ops)) :
    Along (step time) (Safe time) s ops := by
  refine safe_of_turns (Along.of_split fun pre t post hsplit => ?_)
  cases t with
  | op o => trivial
  | event d i =>
    rw [SafeTurn, SafeVisit]
    split
    · trivial
    · rename_i ev hev
      split
      · rename_i a hcb
        intro hdel hdue hsome
        obtain ⟨before, save, mid, rfl, hsaves, hkeeps⟩ := h pre d i post a hsplit ⟨ev, hev, hdel, hdue, hcb⟩
        have hno (d' : ℕ) (t : Turn) (ht : t ∈ mid) : t ≠ .op (.update d') := by
          rintro rfl
          have hmem : .op (.update d') ∈ turns time s ops := by
            rw [hsplit]
            simp [ht]
          exact turns_update hmem
        have hclean : Clean (run (turn time) s (before ++ [save])).world a := by
          rw [run_snoc]
          exact clean_saves hsaves
        have hquiet : Along (turn time) (fun u t => KeepsRow time a u t ∧ ∀ d', t ≠ .op (.update d'))
            (run (turn time) s (before ++ [save])) mid :=
          (along_and _ _ _ _ _).2 ⟨hkeeps, Along.of_forall _ _ fun _ t ht d' => hno d' t ht⟩
        have hlast : Clean (run (turn time) (run (turn time) s (before ++ [save])) mid).world a :=
          inv_run (I := fun u : St => Clean u.world a) (fun _ _ hu hok => clean_turn hok.2 hok.1 hu) hclean hquiet
        rw [← run_append, List.append_assoc, List.singleton_append] at hlast
        exact hlast hsome
      · trivial

end

end DreamHeroes.Hero.Logout

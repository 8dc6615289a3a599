/-
The timers of a client session of the gate server, over every run of its calls, of the other timers and of the updates.

- `Inv`: the timers of the session are right, the one that closes it is there while it is open, and what the timers
  called was due. `Inv.loop` is the step of the loop: a timer goes on, begins its callback, or starts again after it.
- `no_session_outstays`: between two updates no session has reached the deadline of its state.
- `pings_go_on`: a session is sent a ping every 2 seconds, from its first login on.
- `calls_due`: a timer does nothing before its time.
- `onClose_keeps`, `stale_noPing`: `on_close` leaves the minute and the pings of a client to the next one.
-/
import Mathlib.Tactic
import DreamHeroes.Gate.KeepAlive

namespace DreamHeroes.KeepAlive

open DreamHeroes.Lib DreamHeroes.Gate DreamHeroes.Events

variable {t : Table Callback} {p : ℕ} {x y : Session} {ev ev' : TimedEvent Callback} {s : St}

/-! ## Every run -/

/-- a timer that calls has waited for its time -/
inductive Call.Due (c : Call) : Prop where
  | account (a : ℕ) (hcb : c.cb = .setClose) (hstate : c.session.user.state = .waitAccount)
      (hsince : c.session.accepted = some a) (hdue : a + waitAccountDataTime ≤ c.clock)
  | ending (e : ℕ) (hcb : c.cb = .setClose)
      (hstate : c.session.user.state = .waitAccount ∨ c.session.user.state = .waitClose)
      (hsince : c.session.ending = some e) (hdue : e + waitCloseTime ≤ c.clock)
  | silent (l : ℕ) (hcb : c.cb = .noPing) (hsince : c.session.heard = some l) (hdue : l + noPingTime ≤ c.clock)
  | ping (l : ℕ) (hcb : c.cb = .pingNotify) (hsince : c.session.pinged = some l) (hdue : l + pingTime ≤ c.clock)

structure Inv (p : ℕ) (s : St) : Prop where
  kept : Kept s.table
  listed : Listed s.table
  alive : (s.table.objects p).destroyed = false
  right : ∀ i ev, s.table.pending p i = some ev → s.table.cur ≠ some i → Right s.session ev
  fired : ∀ i ev, s.table.pending p i = some ev → s.table.cur = some i → Fired s.session s.table.now.clock ev
  pinging : Pinging s.table p s.session
  guarded : s.session.opened = true → s.session.closing = false → Guarded s.table p s.session
  fresh : s.session.opened = false → s.session.user.state ≠ .waitAccount
  calls : ∀ c ∈ s.calls, c.Due

theorem Inv.ready (h : Inv p s) (hidle : s.table.updating = none) : Ready p s := by
  refine ⟨⟨h.kept, h.listed, h.alive, hidle⟩, fun i ev hev => h.right i ev hev ?_, h.pinging⟩
  simp [(h.kept.placed.idle hidle).1]

theorem Ready.inv (h : Ready p s)
    (hguarded : s.session.opened = true → s.session.closing = false → Guarded s.table p s.session)
    (hfresh : s.session.opened = false → s.session.user.state ≠ .waitAccount) (hcalls : ∀ c ∈ s.calls, c.Due) :
    Inv p s := by
  refine ⟨h.idle.kept, h.idle.listed, h.idle.alive, fun i ev hev _ => h.right i ev hev,
    fun i ev _ hcur => ?_, h.pinging, hguarded, hfresh, hcalls⟩
  rw [h.idle.cur] at hcur
  cases hcur

theorem Ready.congr (h : Ready p s) (hstate : y.user.state = s.session.user.state)
    (haccepted : y.accepted = s.session.accepted) (hending : y.ending = s.session.ending)
    (hheard : y.heard = s.session.heard) (hpinged : y.pinged = s.session.pinged) : Ready p { s with session := y } :=
  ⟨h.idle, fun i ev hev => (h.right i ev hev).congr hstate haccepted hending hheard fun _ => hpinged,
    h.pinging.congr (fun _ => Iff.rfl) (by rw [hpinged]; exact id)⟩

theorem Guarded.congr (h : Guarded t p x) (hstate : y.user.state = x.user.state) : Guarded t p y := by
  obtain ⟨i, ev, hev, hcur, hguards⟩ := h
  exact ⟨i, ev, hev, hcur, hguards.congr hstate⟩

theorem Inv.accept (h : Inv p s) (hidle : s.table.updating = none) (hclosed : s.session.opened = false) :
    Inv p (onAccept s p) := by
  have hready : Ready p (onAccept s p) := ((h.ready hidle).setState fun _ => h.fresh hclosed).congr rfl rfl rfl rfl rfl
  refine hready.inv (fun _ _ => ?_) (fun hopened => by cases hopened) h.calls
  exact (guarded_waitAccount (h.ready hidle).idle).congr rfl

theorem Inv.waitClose (h : Inv p s) (hidle : s.table.updating = none) : Inv p (s.setState p .waitClose) :=
  ((h.ready hidle).setState (by simp)).inv (fun _ _ => guarded_waitClose (h.ready hidle).idle)
    (fun _ hstate => by cases hstate) h.calls

theorem Inv.onClose (h : Inv p s) (hidle : s.table.updating = none) : Inv p (onClose s p) := by
  have hready : Ready p (KeepAlive.onClose s p) := ((h.ready hidle).setState (by simp)).congr rfl rfl rfl rfl rfl
  exact hready.inv (fun hopened => by cases hopened) (fun _ hstate => by cases hstate) h.calls

theorem Inv.heardNow (h : Inv p s) (hidle : s.table.updating = none) : Inv p (heardNow s p) :=
  (h.ready hidle).heardNow.inv (fun hopened hclosing => (h.guarded hopened hclosing).heardNow (h.ready hidle).idle)
    h.fresh h.calls

/-- after `checkConn` the session is told to close, or it is connected and the minute has still to begin -/
theorem checkConn_cases (h : Ready p s) (u : ℕ) (conn : Option ℕ) :
    Ready p (checkConn s p u conn) ∧ (checkConn s p u conn).calls = s.calls ∧
      ((checkConn s p u conn).session.user.state = .connect ∨
        (checkConn s p u conn).session.user.state = .waitClose ∧
          Guarded (checkConn s p u conn).table p (checkConn s p u conn).session) := by
  cases conn with
  | none => exact ⟨h.setState (by simp), rfl, Or.inr ⟨rfl, guarded_waitClose h.idle⟩⟩
  | some gs =>
    have hconnect : Ready p (s.setState p .connect) := h.setState (by simp)
    exact ⟨hconnect.congr rfl rfl rfl rfl rfl, rfl, Or.inl rfl⟩

theorem startPing_frame (s : St) (p : ℕ) :
    (startPing s p).session.user = s.session.user ∧ (startPing s p).calls = s.calls := by
  unfold startPing
  split_ifs
  · exact ⟨rfl, rfl⟩
  · exact ⟨rfl, rfl⟩

theorem Inv.loginGame (h : Inv p s) (hidle : s.table.updating = none) (u : ℕ) (conn : Option ℕ) :
    Inv p (parseLoginGame s p u conn) := by
  unfold parseLoginGame
  split_ifs
  · exact h
  · obtain ⟨hready, hcalls, hstate⟩ := checkConn_cases (h.ready hidle) u conn
    have hheard := hready.heardNow
    obtain ⟨huser, hsent⟩ := startPing_frame (KeepAlive.heardNow (checkConn s p u conn) p) p
    refine hheard.startPing.inv (fun _ _ => Guarded.startPing ?_ hheard.idle) (fun _ => ?_) ?_
    · rcases hstate with hconnect | ⟨-, hguarded⟩
      · exact guarded_connect hready.idle hconnect
      · exact hguarded.heardNow hready.idle
    · rw [huser]
      show (checkConn s p u conn).session.user.state ≠ .waitAccount
      rcases hstate with hconnect | ⟨hwait, -⟩
      · simp [hconnect]
      · simp [hwait]
    · rw [hsent]
      show ∀ c ∈ (checkConn s p u conn).calls, c.Due
      rw [hcalls]
      exact h.calls

theorem Inv.close (h : Inv p s) : Inv p { s with session := s.session.close } := by
  refine ⟨h.kept, h.listed, h.alive, fun i ev hev hcur => (h.right i ev hev hcur).congr rfl rfl rfl rfl fun _ => rfl,
    fun i ev hev hcur => ?_, h.pinging.congr (fun _ => Iff.rfl) id, fun _ hclosing => ?_, h.fresh, h.calls⟩
  · cases h.fired i ev hev hcur with
    | closes ty cb made hne => exact .closes ty cb made hne rfl
    | ping hpings hsince => exact .ping hpings hsince
  · cases hclosing

theorem Inv.other (h : Inv p s) {a : Act Callback} (ha : a.object ≠ p) : Inv p { s with table := does s.table a } := by
  have hpending (i : ℕ) : (does s.table a).pending p i = s.table.pending p i :=
    pending_other h.kept.owned a ha.symm i
  obtain ⟨-, hcur, hnow⟩ := does_loop s.table a
  refine ⟨kept_step (.act a) h.kept, listed_step h.kept.owned h.kept.placed (.act a) h.listed, ?_,
    fun i ev hev hi => ?_, fun i ev hev hi => ?_, h.pinging.congr (fun i => by simp only [PingsAt, hpending]) id,
    fun hopened hclosing => ?_, h.fresh, h.calls⟩
  · simp only [does, Events.step]
    split_ifs
    · refine alive_act h.alive ?_
      rintro rfl
      exact ha rfl
    · exact h.alive
  · rw [hpending] at hev
    exact h.right i ev hev (by rwa [← hcur])
  · rw [hpending] at hev
    rw [hnow]
    exact h.fired i ev hev (by rwa [← hcur])
  · obtain ⟨i, ev, hev, hi, hguards⟩ := h.guarded hopened hclosing
    exact ⟨i, ev, by rw [hpending, hev], by rwa [hcur], hguards⟩

/-! ## The loop -/

variable {clock : ℕ}

theorem Fired.ages (h : Fired x clock ev) (ha : Ages ev ev') : Fired x clock ev' := by
  cases h with
  | closes ty cb made hne hclosing => exact .closes ty cb (made.ages ha) hne hclosing
  | ping hpings hsince => exact .ping (hpings.ages ha) hsince

theorem Fired.congr (h : Fired x clock ev) (hclosing : x.closing = true → y.closing = true)
    (hpinged : y.pinged = x.pinged) : Fired y clock ev := by
  cases h with
  | closes ty cb made hne hx => exact .closes ty cb made hne (hclosing hx)
  | ping hpings hsince => exact .ping hpings (hpinged.trans hsince)

/-- a timer that starts again is the one of the pings -/
theorem Fired.rearm {i : ℕ} (h : Fired x t.now.clock ev) (ht : Timely t i ev) (hkeeps : ev.deletesObject = false)
    (hpinged : y.pinged = x.pinged) : Right y (ev.rearm t.now) := by
  cases h with
  | closes _ _ made =>
    rw [TimedEvent.deletesObject, made.eventFlag] at hkeeps
    cases hkeeps
  | ping hpings hsince =>
    obtain ⟨⟨htype, hcb, hflag, hinstance⟩, -, hdelay, hmodified, hwanted⟩ := hpings
    exact .ping ⟨⟨htype, hcb, hflag, hinstance⟩, (ht.steady hmodified).1.trans hdelay, hdelay, hmodified, hwanted⟩
      (hpinged.trans hsince)

/-- the pings have no end -/
theorem Pings.goes_on (h : Pings ev) {i : ℕ} (hcount : Counting t i ev) (hcur : t.cur = some i)
    (hdeleted : ev.deleted = false) : ev.deletesObject = false ∧ ev.ends = false := by
  constructor
  · rw [TimedEvent.deletesObject, h.made.eventFlag]
    rfl
  · obtain ⟨hpos, hrepeats⟩ := hcount.running hcur
    have hneg : ev.repeats < 0 := by
      rw [hrepeats, TimedEvent.repeatsAfter, h.wanted]
      simp
      omega
    simp only [TimedEvent.ends, TimedEvent.count, hdeleted, Bool.or_false, decide_eq_false_iff_not, not_and]
    intro hne
    rw [if_neg hne]
    omega

/-- only the end of a callback moves the loop away from its entry -/
theorem loop_waits (h : Kept t) {op : Events.Op Callback} (hloop : ∀ a, op ≠ .act a) (hret : op ≠ .ret) {i : ℕ}
    (hcur : t.cur = some i) : Events.step t op = t := by
  cases op with
  | act a => exact absurd rfl (hloop a)
  | update d =>
    simp only [Events.step]
    rw [if_neg (h.placed.updating_ne hcur)]
  | visit => simp [Events.step, hcur]
  | ret => exact absurd rfl hret

theorem Inv.pings (h : Inv p s) {i : ℕ} (hev : s.table.pending p i = some ev) (hty : ev.eventType = eventPingTimeInfo) :
    Pings ev := by
  by_cases hcur : s.table.cur = some i
  · cases h.fired i ev hev hcur with
    | closes _ _ made hne => exact absurd (made.eventType.symm.trans hty) hne
    | ping hpings => exact hpings
  · exact ((h.right i ev hev hcur).pings hty).1

/-- the loop goes on with the pings -/
theorem Inv.pingsAt_loop (h : Inv p s) {op : Events.Op Callback} (hloop : ∀ a, op ≠ .act a) (i : ℕ) :
    PingsAt (Events.step s.table op) p i ↔ PingsAt s.table p i := by
  constructor
  · rintro ⟨ev', hev', hty⟩
    obtain ⟨ev, hev, ⟨hages, -⟩ | ⟨-, -, -, rfl⟩⟩ := pending_before h.kept.owned hloop hev'
    · exact ⟨ev, hev, hages.eventType.symm.trans hty⟩
    · exact ⟨ev, hev, hty⟩
  · rintro ⟨ev, hev, hty⟩
    have hpings := h.pings hev hty
    obtain ⟨hval, hdeleted, -⟩ := pending_eq_some.1 hev
    obtain ⟨ev', hev', hages⟩ | ⟨hcur, hend⟩ :=
      pending_after h.kept.owned hloop hev (hpings.made.executable rfl hdeleted) (by simp [hpings.made.cb])
    · exact ⟨ev', hev', hages.eventType.trans hty⟩
    · obtain ⟨hkeeps, hends⟩ := hpings.goes_on (h.kept.counting i ev hval) hcur hdeleted
      rcases hend with hdeletes | hlast | hagain
      · exact absurd (hdeletes.symm.trans hkeeps) (by decide)
      · exact absurd (hlast.symm.trans hends) (by decide)
      · exact ⟨_, hagain, hty⟩

/-- how the callbacks change a session -/
structure Called (x y : Session) : Prop where
  user : y.user = x.user
  opened : y.opened = x.opened
  closing : x.closing = true → y.closing = true
  accepted : y.accepted = x.accepted
  ending : y.ending = x.ending
  heard : y.heard = x.heard

theorem Called.refl (x : Session) : Called x x := ⟨rfl, rfl, id, rfl, rfl, rfl⟩

theorem alive_loop (h : (t.objects p).destroyed = false) {op : Events.Op Callback} (hloop : ∀ a, op ≠ .act a) :
    ((Events.step t op).objects p).destroyed = false := by
  cases op with
  | act a => exact absurd rfl (hloop a)
  | update d =>
    simp only [Events.step]
    split_ifs
    · exact h
    · exact h
  | visit =>
    rw [objects_loop (loop_visit t)]
    exact h
  | ret =>
    rw [objects_loop (loop_ret t)]
    exact h

theorem ne_ret (h : Kept t) {op : Events.Op Callback} {i : ℕ} (hcur : (Events.step t op).cur = some i) : op ≠ .ret := by
  rintro rfl
  rw [h.ret_cur] at hcur
  cases hcur

/-- a step of the loop, when the session changes as its callbacks change it -/
theorem Inv.loop (h : Inv p s) (op : Events.Op Callback) (hloop : ∀ a, op ≠ .act a) {s' : St}
    (htable : s'.table = Events.step s.table op) (hcalled : Called s.session s'.session)
    (hpinged : s'.session.pinged = s.session.pinged ∨
      s.table.cur = none ∧ ∃ i, s'.table.cur = some i ∧ PingsAt s.table p i)
    (hcalls : ∀ c ∈ s'.calls, c.Due)
    (hstart : ∀ i ev, s.table.pending p i = some ev → s.table.cur = none → s'.table.cur = some i →
      Fired s'.session s'.table.now.clock ev) : Inv p s' := by
  obtain ⟨huser, hopened, hclosing, haccepted, hending, hheard⟩ := hcalled
  have hstate : s'.session.user.state = s.session.user.state := by rw [huser]
  -- while a callback runs, nothing else does
  have hstays {j : ℕ} (hcur : s.table.cur = some j) (hop : op ≠ .ret) :
      Events.step s.table op = s.table ∧ s'.session.pinged = s.session.pinged := by
    refine ⟨loop_waits h.kept hloop hop hcur, hpinged.resolve_right ?_⟩
    rintro ⟨hnone, -⟩
    rw [hnone] at hcur
    cases hcur
  refine ⟨htable ▸ kept_step op h.kept, htable ▸ listed_step h.kept.owned h.kept.placed op h.listed, ?_,
    fun i ev' hev' hcur' => ?_, fun i ev' hev' hcur' => ?_, ?_, fun hopened' hclosing' => ?_,
    fun hopened' => ?_, hcalls⟩
  · rw [htable]
    exact alive_loop h.alive hloop
  · rw [htable] at hev'
    obtain ⟨ev, hev, ⟨hages, hret⟩ | ⟨rfl, hcur, hkeeps, rfl⟩⟩ := pending_before h.kept.owned hloop hev'
    · have hcur : s.table.cur ≠ some i := by
        intro hcur
        by_cases hop : op = .ret
        · exact hret hop hcur
        · rw [htable, (hstays hcur hop).1] at hcur'
          exact hcur' hcur
      refine ((h.right i ev hev hcur).congr hstate haccepted hending hheard fun hty => ?_).ages hages
      -- the ping that is sent now is the one of the only timer of the pings
      rcases hpinged with hsame | ⟨-, j, hj, hat⟩
      · exact hsame
      · rw [h.pinging.once j i hat ⟨ev, hev, hty⟩] at hj
        exact absurd hj hcur'
    · refine (h.fired i ev hev hcur).rearm (h.kept.timely i ev (pending_eq_some.1 hev).1) hkeeps ?_
      refine hpinged.resolve_right ?_
      rintro ⟨hnone, -⟩
      rw [hnone] at hcur
      cases hcur
  · rw [htable] at hev'
    have hret : op ≠ .ret := ne_ret h.kept (htable ▸ hcur')
    obtain ⟨ev, hev, ⟨hages, -⟩ | ⟨hop, -⟩⟩ := pending_before h.kept.owned hloop hev'
    · rcases hcur : s.table.cur with _ | j
      · exact (hstart i ev hev hcur hcur').ages hages
      · obtain ⟨hsame, hsent⟩ := hstays hcur hret
        rw [htable, hsame] at hcur' ⊢
        exact ((h.fired i ev hev hcur').congr hclosing hsent).ages hages
    · exact absurd hop hret
  · rw [htable]
    refine ⟨fun i j hi hj => h.pinging.once i j ((h.pingsAt_loop hloop i).1 hi) ((h.pingsAt_loop hloop j).1 hj),
      fun hsent => ?_⟩
    obtain ⟨i, hi⟩ : ∃ i, PingsAt s.table p i := by
      rcases hpinged with hsame | ⟨-, i, -, hat⟩
      · exact h.pinging.started (hsame ▸ hsent)
      · exact ⟨i, hat⟩
    exact ⟨i, (h.pingsAt_loop hloop i).2 hi⟩
  · have hclosing0 : s.session.closing = false := by
      by_contra hnot
      rw [hclosing (by simpa using hnot)] at hclosing'
      cases hclosing'
    obtain ⟨i, ev, hev, hcur, hguards⟩ := h.guarded (by rw [← hopened, hopened']) hclosing0
    obtain ⟨hex, hcb⟩ := (h.right i ev hev hcur).executable (pending_eq_some.1 hev).2.1
    obtain ⟨ev', hev', hages⟩ | ⟨hcur', -⟩ := pending_after h.kept.owned hloop hev hex hcb
    · refine ⟨i, ev', by rw [htable, hev'], fun hcur' => ?_, (hguards.congr hstate).ages hages⟩
      have hret : op ≠ .ret := ne_ret h.kept (htable ▸ hcur')
      have hnone : s.table.cur = none := by
        rcases hold : s.table.cur with _ | j
        · rfl
        · rw [htable, (hstays hold hret).1] at hcur'
          exact absurd hcur' hcur
      -- the callback of the timer closes the session
      cases hstart i ev hev hnone hcur' with
      | closes _ _ _ _ hclosed =>
        rw [hclosed] at hclosing'
        cases hclosing'
      | ping hpings => exact absurd hpings.made.eventType hguards.not_ping
    · exact absurd hcur' hcur
  · rw [hstate]
    exact h.fresh (by rw [← hopened, hopened'])

/-! ## The callbacks -/

theorem call_frame (s : St) (cb : Callback) :
    (s.call cb).table = s.table ∧ (s.call cb).calls = s.calls ∧ Called s.session (s.call cb).session ∧
      (cb ≠ .pingNotify → (s.call cb).session.pinged = s.session.pinged) := by
  cases cb with
  | setClose => exact ⟨rfl, rfl, ⟨rfl, rfl, fun _ => rfl, rfl, rfl, rfl⟩, fun _ => rfl⟩
  | noPing => exact ⟨rfl, rfl, ⟨rfl, rfl, fun _ => rfl, rfl, rfl, rfl⟩, fun _ => rfl⟩
  | pingNotify => exact ⟨rfl, rfl, ⟨rfl, rfl, id, rfl, rfl, rfl⟩, fun hne => absurd rfl hne⟩
  | other => exact ⟨rfl, rfl, .refl _, fun _ => rfl⟩

/-- a callback of the session that begins is the one of a timer that has reached its goal -/
theorem begun_cases (h : Kept t) {cb : Callback} (hbegun : begun t (Events.step t .visit) p = some cb) :
    ∃ i ev, t.pending p i = some ev ∧ t.cur = none ∧ (Events.step t .visit).cur = some i ∧ ev.cb = some cb ∧
      ev.armed.clock + ev.goal ≤ t.now.clock := by
  unfold begun at hbegun
  split_ifs at hbegun with hcur
  obtain ⟨i, hcur', hbind⟩ := Option.bind_eq_some_iff.1 hbegun
  obtain ⟨ev', hev', hcb⟩ := Option.bind_eq_some_iff.1 hbind
  obtain ⟨ev, hev, hdeleted, hfire, hreached⟩ := h.reached hcur hcur'
  obtain ⟨hval, -, howner⟩ := pending_eq_some.1 hev'
  obtain rfl : ev' = ev.fire t.before t.now := Option.some.inj (hval.symm.trans hfire)
  exact ⟨i, ev, pending_eq_some.2 ⟨hev, hdeleted, howner⟩, hcur, hcur', hcb, hreached⟩

/-- a timer of the session whose callback begins -/
theorem begun_of (h : Kept t) {i : ℕ} (hev : t.pending p i = some ev) (hcur : t.cur = none)
    (hcur' : (Events.step t .visit).cur = some i) : begun t (Events.step t .visit) p = ev.cb := by
  obtain ⟨ev0, hev0, -, hfire, -⟩ := h.reached hcur hcur'
  obtain ⟨hval, hdeleted, howner⟩ := pending_eq_some.1 hev
  obtain rfl : ev0 = ev := Option.some.inj (hev0.symm.trans hval)
  have hpending : (Events.step t .visit).pending p i = some (ev0.fire t.before t.now) :=
    pending_eq_some.2 ⟨hfire, hdeleted, howner⟩
  simp [begun, hcur, hcur', hpending, TimedEvent.fire]

theorem Right.due (h : Right x ev) {cb : Callback} (hcb : ev.cb = some cb)
    (hdue : ev.armed.clock + ev.goal ≤ clock) : Call.Due ⟨cb, clock, x⟩ := by
  have hsame {ty flags : ℕ} {cb' : Callback} (made : Made ev ty cb' flags) : cb = cb' :=
    Option.some.inj (hcb.symm.trans made.cb)
  cases h with
  | account made hstate hgoal hsince => exact .account _ (hsame made) hstate hsince (hgoal ▸ hdue)
  | ending made hstate hgoal hsince => exact .ending _ (hsame made) hstate hsince (hgoal ▸ hdue)
  | silent made hgoal hsince => exact .silent _ (hsame made) hsince (hgoal ▸ hdue)
  | ping hpings hsince => exact .ping _ (hsame hpings.made) hsince (hpings.goal ▸ hdue)

/-- what the callback of a timer does to its session -/
theorem Right.call (h : Right s.session ev) {cb : Callback} (hcb : ev.cb = some cb) :
    Fired (s.call cb).session s.table.now.clock ev ∧ (cb = .pingNotify → ev.eventType = eventPingTimeInfo) := by
  have hsame {ty flags : ℕ} {cb' : Callback} (made : Made ev ty cb' flags) : cb = cb' :=
    Option.some.inj (hcb.symm.trans made.cb)
  cases h with
  | account made =>
    obtain rfl := hsame made
    exact ⟨.closes _ _ made (by decide) rfl, fun hping => by cases hping⟩
  | ending made =>
    obtain rfl := hsame made
    exact ⟨.closes _ _ made (by decide) rfl, fun hping => by cases hping⟩
  | silent made =>
    obtain rfl := hsame made
    exact ⟨.closes _ _ made (by decide) rfl, fun hping => by cases hping⟩
  | ping hpings =>
    obtain rfl := hsame hpings.made
    exact ⟨.ping hpings rfl, fun _ => hpings.made.eventType⟩

theorem Inv.visit (h : Inv p s) : Inv p (visit s p) := by
  have hwaits {i : ℕ} {ev : TimedEvent Callback} (hev : s.table.pending p i = some ev) (hcur : s.table.cur = none) :
      Right s.session ev := h.right i ev hev (by simp [hcur])
  unfold KeepAlive.visit
  dsimp only
  split
  · rename_i hnone
    refine h.loop .visit (by simp) rfl (.refl _) (Or.inl rfl) h.calls fun i ev hev hcur hcur' => ?_
    rw [begun_of h.kept hev hcur hcur'] at hnone
    exact absurd hnone ((hwaits hev hcur).executable (pending_eq_some.1 hev).2.1).2
  · rename_i cb hbegun
    obtain ⟨i, ev, hev, hcur, hcur', hcb, hdue⟩ := begun_cases h.kept hbegun
    have hright := hwaits hev hcur
    obtain ⟨htable, hcalls, hcalled, hpinged⟩ := call_frame
      { s with
        table := Events.step s.table .visit
        calls := s.calls ++ [⟨cb, (Events.step s.table .visit).now.clock, s.session⟩] } cb
    refine h.loop .visit (by simp) htable hcalled ?_ ?_ fun j ev' hev' _ hj => ?_
    · by_cases hping : cb = .pingNotify
      · exact Or.inr ⟨hcur, i, by rw [htable, hcur'], ev, hev, (hright.call hcb).2 hping⟩
      · exact Or.inl (hpinged hping)
    · rw [hcalls]
      intro c hc
      rcases List.mem_append.1 hc with hc | hc
      · exact h.calls c hc
      · rw [List.mem_singleton.1 hc, now_loop (loop_visit s.table)]
        exact hright.due hcb hdue
    · rw [htable, hcur'] at hj
      obtain rfl := Option.some.inj hj
      obtain rfl := Option.some.inj (hev.symm.trans hev')
      rw [htable]
      exact (Right.call (s := { s with table := Events.step s.table .visit, calls := _ }) hright hcb).1

theorem inv_step (op : Op) (h : Inv p s) : Inv p (step p s op) := by
  cases op with
  | accept =>
    simp only [step]
    split_ifs with hguard
    · exact h.accept hguard.1 hguard.2
    · exact h
  | loginGame u conn =>
    simp only [step]
    split_ifs with hidle
    · exact h.loginGame hidle u conn
    · exact h
  | ping =>
    simp only [step]
    split_ifs with hidle
    · exact h.heardNow hidle
    · exact h
  | waitClose =>
    simp only [step]
    split_ifs with hidle
    · exact h.waitClose hidle
    · exact h
  | close => exact h.close
  | onClose =>
    simp only [step]
    split_ifs with hguard
    · exact h.onClose hguard.1
    · exact h
  | other a =>
    simp only [step]
    split_ifs with ha
    · exact h.other ha
    · exact h
  | update d =>
    refine h.loop (.update d) (by simp) rfl (.refl _) (Or.inl rfl) h.calls fun i ev _ hcur hcur' => ?_
    simp only [step, Events.step] at hcur'
    split_ifs at hcur'
    · exact absurd (hcur.symm.trans hcur') (by simp)
    · exact absurd (hcur.symm.trans hcur') (by simp)
  | visit => exact h.visit
  | ret =>
    refine h.loop .ret (by simp) rfl (.refl _) (Or.inl rfl) h.calls fun i ev _ _ hcur' => ?_
    simp only [step, h.kept.ret_cur] at hcur'
    cases hcur'

theorem inv_run (p : ℕ) (ops : List Op) : Inv p (run (step p) {} ops) := by
  have hnone (i : ℕ) (ev : TimedEvent Callback) : ({} : Table Callback).pending p i ≠ some ev := by
    simp [Table.pending, Table.val, Heap.val]
  refine inv_run_all (fun _ op h => inv_step op h) ops ?_
  refine ⟨kept_run [], listed_start, rfl, fun i ev hev => ?_, fun i ev hev => ?_, ⟨fun i j hi => ?_, fun hsent => ?_⟩,
    fun hopened => ?_, fun _ hstate => ?_, fun c hc => ?_⟩
  · exact absurd hev (hnone i ev)
  · exact absurd hev (hnone i ev)
  · obtain ⟨ev, hev, -⟩ := hi
    exact absurd hev (hnone i ev)
  · exact absurd rfl hsent
  · cases hopened
  · cases hstate
  · cases hc

/-! ## The timers of a session -/

/-- **No session outstays.** After every run, between two updates, a session that is open and that nothing has closed
has not reached the deadline of its state: 20 seconds from `on_accept` without an account, a minute from its last ping
or login while it is connected, 1 second from when it was last told to close. -/
theorem no_session_outstays (p : ℕ) (ops : List Op) (hidle : (run (step p) {} ops).table.updating = none)
    (hopened : (run (step p) {} ops).session.opened = true) (hclosing : (run (step p) {} ops).session.closing = false) :
    ∃ d, (run (step p) {} ops).session.deadline = some d ∧ (run (step p) {} ops).table.now.clock < d := by
  have h := inv_run p ops
  obtain ⟨i, ev, hev, hcur, hguards⟩ := h.guarded hopened hclosing
  have hright := h.right i ev hev hcur
  exact ⟨_, hright.deadline hguards, h.kept.waits h.listed hidle hev hright.goal_pos⟩

/-- a session that logs in after 5 seconds, 40 seconds later -/
theorem no_session_outstays_connected :
    let s := run (step 0) {} [.accept, .update 5000, .visit, .visit, .loginGame 7 (some 1), .update 40000,
      .visit, .visit, .visit, .ret, .visit]
    ∃ d, s.session.deadline = some d ∧ s.table.now.clock < d :=
  no_session_outstays 0 _ rfl rfl rfl

/-- **No timer is early.** In every run, what a timer of the session calls it calls when its time is over: since
`on_accept`, since the session was told to close, since its last ping or login, since it was last sent a ping. -/
theorem calls_due (p : ℕ) (ops : List Op) (c : Call) (hc : c ∈ (run (step p) {} ops).calls) : c.Due :=
  (inv_run p ops).calls c hc

theorem calls_due_account :
    Call.Due ⟨.setClose, 20000, { user := { state := .waitAccount }, opened := true, accepted := some 0 }⟩ :=
  calls_due 0 [.accept, .update 20000, .visit] _ (by decide)

/-- `on_close` removes the timer that closes the session, and no other -/
theorem onClose_keeps (h : Idle s.table p) {i : ℕ} (hev : s.table.pending p i = some ev)
    (hty : ev.eventType ≠ eventUserSessionClose) : (onClose s p).table.pending p i = some ev := by
  simp only [onClose, St.setState, setStateEvents]
  rw [h.pending_remove (by decide), hev]
  exact Option.filter_some_pos (by simpa using hty)

/-- the minute of a client that is gone ends the connection of the next one, 10 seconds after its `on_accept` -/
theorem stale_noPing :
    let s := run (step 0) {} [.accept, .loginGame 7 (some 1), .onClose, .update 50000, .visit, .visit, .visit,
      .ret, .visit, .accept, .update 10000, .visit, .ret]
    s.session.accepted = some 50000 ∧ s.session.deadline = some 70000 ∧ s.table.now.clock = 60000 ∧
      s.session.closing = true ∧ (s.calls.map fun c => (c.cb, c.clock)) = [(.pingNotify, 50000), (.noPing, 60000)] := by
  decide +kernel

end DreamHeroes.KeepAlive

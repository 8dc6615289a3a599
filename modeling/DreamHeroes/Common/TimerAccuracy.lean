/-
When a timer fires: the clock of the updates against the time an event waits for, over every run of additions, removals,
modifications and updates, from inside the callbacks too.

An event is armed with a `goal` when it is added, when it starts again after a callback, and when its time left is
modified. It then counts the updates from the stamp `armed` on: those that start after it, and the update that is
running when the loop has still to visit the event.

- `Timely`: what an event waits for, and what its executions so far have waited for.
- `Counting`: what `repeats` says of the number of the executions.
- `kept_run`: both hold of every event after every run.
- `timer_accuracy`: no execution before its goal; at the end of every update every event that has reached its goal has
  been executed; `repeats` executions for a positive `repeats`, and no end otherwise.
- `late_and_early`: an event does not fire by the time it was added with when its time left is modified, and one that a
  callback adds may fire in the update that runs.
-/
import Mathlib.Tactic
import DreamHeroes.Common.EventOwnership

namespace DreamHeroes.Events

open DreamHeroes.Lib

variable {Cb : Type*}

/-! ## The places of the loop -/

/-- between two updates the whole list is before `itr`, and during an update its time is in the clock -/
structure Placed (s : Table Cb) : Prop where
  idle : s.updating = none → s.cur = none ∧ s.front = [] ∧ s.back = [] ∧ s.before = s.now
  running : ∀ d, s.updating = some d → s.now = ⟨s.before.round + 1, s.before.clock + d⟩

theorem Placed.updating_ne {s : Table Cb} (h : Placed s) {i : ℕ} (hi : s.cur = some i) : s.updating ≠ none := by
  intro hidle
  rw [(h.idle hidle).1] at hi
  cases hi

theorem placed_loop {s s' : Table Cb} {o : Op Cb} (h : Placed s) (hl : LoopStep s o s') : Placed s' := by
  have hkeep (hrun : s.updating ≠ none) (hupdating : s'.updating = s.updating) (hbefore : s'.before = s.before)
      (hnow : s'.now = s.now) : Placed s' := by
    refine ⟨fun hidle => absurd (hupdating ▸ hidle) hrun, fun d hd => ?_⟩
    rw [hbefore, hnow]
    exact h.running d (hupdating ▸ hd)
  have hvisit {d : ℕ} (hd : s.updating = some d) : s.updating ≠ none := by
    rw [hd]
    exact Option.some_ne_none d
  cases hl with
  | idle => exact h
  | atEnd d hd hcur hrest => exact ⟨fun _ => ⟨hcur, rfl, rfl, rfl⟩, fun d hd => by cases hd⟩
  | erase d i l ev hd => exact hkeep (hvisit hd) rfl rfl rfl
  | fire d i l ev hd => exact hkeep (hvisit hd) rfl rfl rfl
  | pass d i l ev hd => exact hkeep (hvisit hd) rfl rfl rfl
  | deletesObject i ev hcur => exact hkeep (h.updating_ne hcur) rfl rfl rfl
  | ends i ev hcur => exact hkeep (h.updating_ne hcur) rfl rfl rfl
  | rearm i ev hcur => exact hkeep (h.updating_ne hcur) rfl rfl rfl

theorem placed_act {s : Table Cb} (h : Placed s) (a : Act Cb) (hend : s.atEnd = true → s.updating ≠ none) :
    Placed (act s a) := by
  cases a with
  | addEvent n =>
    refine ⟨fun hidle => ?_, h.running⟩
    obtain ⟨hcur, hfront, hback, hbefore⟩ := h.idle hidle
    refine ⟨hcur, hfront, ?_, hbefore⟩
    simp only [act, addEvent]
    rw [if_neg fun hat => hend hat hidle]
    exact hback
  | removeEvents o ty => exact ⟨h.idle, h.running⟩
  | destroy o => exact ⟨h.idle, h.running⟩
  | modifyTimeLeft o ty timeLeft unconditioned => exact ⟨h.idle, h.running⟩
  | modifyTime o ty time => exact ⟨h.idle, h.running⟩
  | modifyTimeAndTimeLeft o ty time => exact ⟨h.idle, h.running⟩

theorem placed_step {s : Table Cb} (o : Op Cb) (h : Placed s) : Placed (step s o) := by
  cases o with
  | act a =>
    simp only [step]
    split_ifs
    · refine placed_act h a fun hat => ?_
      simp only [Table.atEnd, Bool.and_eq_true, Option.isSome_iff_exists] at hat
      obtain ⟨⟨i, hi⟩, -⟩ := hat
      exact h.updating_ne hi
    · exact h
  | update d =>
    simp only [step]
    split_ifs
    · refine ⟨fun hidle => absurd hidle (Option.some_ne_none d), fun d' hd' => ?_⟩
      obtain rfl : d = d' := Option.some.inj hd'
      rfl
    · exact h
  | visit => exact placed_loop h (loop_visit s)
  | ret => exact placed_loop h (loop_ret s)

/-- a step at which the loop is elsewhere -/
structure Stays (s s' : Table Cb) (i : ℕ) : Prop where
  list : i ∈ s'.list ↔ i ∈ s.list
  cur : s'.cur = some i ↔ s.cur = some i
  seen : i ∈ s.list → s'.seen i = s.seen i
  now : s'.cur = some i → s'.now = s.now

theorem stays_addEvent {s : Table Cb} (n : NewEvent Cb) {i : ℕ} (hi : i < s.heap.cells.length) :
    Stays s (addEvent s n) i := by
  refine ⟨?_, Iff.rfl, fun _ => ?_, fun _ => rfl⟩
  · rw [(list_addEvent s n).mem_iff, List.mem_cons]
    exact or_iff_right hi.ne
  · unfold Table.seen
    have hrest : i ∈ (addEvent s n).rest ↔ i ∈ s.rest := by
      unfold addEvent
      dsimp only
      split_ifs
      · exact Iff.rfl
      · rw [List.mem_append, List.mem_singleton]
        exact or_iff_left hi.ne
    simp only [hrest]
    rfl

theorem stays_act {s : Table Cb} (a : Act Cb) {i : ℕ} (hi : i < s.heap.cells.length) : Stays s (act s a) i := by
  cases a with
  | addEvent n => exact stays_addEvent n hi
  | removeEvents o ty => exact ⟨Iff.rfl, Iff.rfl, fun _ => rfl, fun _ => rfl⟩
  | destroy o => exact ⟨Iff.rfl, Iff.rfl, fun _ => rfl, fun _ => rfl⟩
  | modifyTimeLeft o ty timeLeft unconditioned => exact ⟨Iff.rfl, Iff.rfl, fun _ => rfl, fun _ => rfl⟩
  | modifyTime o ty time => exact ⟨Iff.rfl, Iff.rfl, fun _ => rfl, fun _ => rfl⟩
  | modifyTimeAndTimeLeft o ty time => exact ⟨Iff.rfl, Iff.rfl, fun _ => rfl, fun _ => rfl⟩

theorem stays_loop {s s' : Table Cb} {o : Op Cb} (hl : LoopStep s o s') {i : ℕ} (ho : ¬Turn s o i) : Stays s s' i := by
  have hrest_ne {d j : ℕ} {l : List ℕ} (hvisit : o = .visit) (hd : s.updating = some d) (hcur : s.cur = none)
      (hrest : s.rest = j :: l) : i ≠ j := by
    rintro rfl
    refine ho (Or.inl ⟨hvisit, ?_, hcur, by rw [hrest]; rfl⟩)
    rw [hd]
    exact Option.some_ne_none d
  have hcur_ne {j : ℕ} (hret : o = .ret) (hcur : s.cur = some j) : i ≠ j := by
    rintro rfl
    exact ho (Or.inr ⟨hret, hcur⟩)
  cases hl with
  | idle => exact ⟨Iff.rfl, Iff.rfl, fun _ => rfl, fun _ => rfl⟩
  | atEnd d hd hcur hrest =>
    refine ⟨?_, Iff.rfl, fun hi => ?_, fun _ => rfl⟩
    · simp [Table.list, endUpdate, hcur, hrest]
    · simp only [Table.list, hcur, hrest, Option.toList_none, List.append_nil] at hi
      simp [Table.seen, endUpdate, hi, hrest]
  | erase d j l ev hd hcur hrest =>
    have hij := hrest_ne rfl hd hcur hrest
    exact ⟨by simp [Table.list, hrest, hcur, hij], Iff.rfl, fun _ => by simp [Table.seen, hrest, hij], fun _ => rfl⟩
  | fire d j l ev hd hcur hrest =>
    have hij := hrest_ne rfl hd hcur hrest
    exact ⟨by simp [Table.list, hrest, hcur, hij], by simp [hcur, Ne.symm hij], fun _ => by
      simp [Table.seen, hrest, hij], fun _ => rfl⟩
  | pass d j l ev hd hcur hrest =>
    have hij := hrest_ne rfl hd hcur hrest
    exact ⟨by simp [Table.list, hrest, hcur, hij], Iff.rfl, fun _ => by simp [Table.seen, hrest, hij], fun _ => rfl⟩
  | deletesObject j ev hcur =>
    have hij := hcur_ne rfl hcur
    exact ⟨by simp [Table.list, hcur, hij], by simp [hcur, Ne.symm hij], fun _ => rfl, fun _ => rfl⟩
  | ends j ev hcur =>
    have hij := hcur_ne rfl hcur
    exact ⟨by simp [Table.list, hcur, hij], by simp [hcur, Ne.symm hij], fun _ => rfl, fun _ => rfl⟩
  | rearm j ev hcur =>
    have hij := hcur_ne rfl hcur
    exact ⟨by simp [Table.list, hcur, hij], by simp [hcur, Ne.symm hij], fun _ => rfl, fun _ => rfl⟩

theorem stays_step {s : Table Cb} (hp : Placed s) {o : Op Cb} {i : ℕ} (hi : i < s.heap.cells.length)
    (ho : ¬Turn s o i) : Stays s (step s o) i := by
  have hsame : Stays s s i := ⟨Iff.rfl, Iff.rfl, fun _ => rfl, fun _ => rfl⟩
  cases o with
  | act a =>
    simp only [step]
    split_ifs
    · exact stays_act a hi
    · exact hsame
  | update d =>
    simp only [step]
    split_ifs with hidle
    · obtain ⟨hcur, hfront, hback, hbefore⟩ := hp.idle hidle
      refine ⟨Iff.rfl, Iff.rfl, fun hmem => ?_, fun hrun => ?_⟩
      · have hrest : i ∈ s.rest := by simpa [Table.list, hcur, hfront, hback] using hmem
        simp [Table.seen, startUpdate, hrest, hbefore]
      · rw [show (startUpdate s d).cur = none from hcur] at hrun
        cases hrun
    · exact hsame
  | visit => exact stays_loop (loop_visit s) ho
  | ret => exact stays_loop (loop_ret s) ho

theorem now_loop {s s' : Table Cb} {o : Op Cb} (hl : LoopStep s o s') : s'.now = s.now := by
  cases hl with
  | idle => rfl
  | atEnd => rfl
  | erase => rfl
  | fire => rfl
  | pass => rfl
  | deletesObject => rfl
  | ends => rfl
  | rearm => rfl

/-! ## Waiting -/

structure Stamp.Le (a b : Stamp) : Prop where
  round : a.round ≤ b.round
  clock : a.clock ≤ b.clock

theorem Stamp.Le.refl (a : Stamp) : a.Le a := ⟨le_rfl, le_rfl⟩

theorem Stamp.Le.trans {a b c : Stamp} (h : a.Le b) (h' : b.Le c) : a.Le c :=
  ⟨h.round.trans h'.round, h.clock.trans h'.clock⟩

/-- an event of the list, when the updates up to `st` have visited it -/
structure Waiting (ev : TimedEvent Cb) (st : Stamp) : Prop where
  after : ev.armed.Le st
  same : ev.armed.round = st.round → ev.armed.clock = st.clock
  left : ev.currTime + (st.clock - ev.armed.clock) = ev.goal
  notDue : ev.armed.round = st.round ∨ st.clock - ev.armed.clock < ev.goal

/-- the execution comes in the first update that reaches the goal -/
structure Firing.Due (f : Firing) : Prop where
  reached : f.goal ≤ f.now.clock - f.armed.clock
  first : f.armed.round = f.before.round ∨ f.before.clock - f.armed.clock < f.goal
  after : f.armed.Le f.before
  next : f.before.Le f.now

theorem Waiting.arm {ev : TimedEvent Cb} {st : Stamp} (harmed : ev.armed = st) (hgoal : ev.currTime = ev.goal) :
    Waiting ev st :=
  ⟨harmed ▸ Stamp.Le.refl _, fun _ => by rw [harmed], by rw [harmed, Nat.sub_self, hgoal, Nat.add_zero],
    Or.inl (by rw [harmed])⟩

/-- an update of `d` visits the event and it is not due -/
theorem Waiting.pass {ev : TimedEvent Cb} {st : Stamp} {d : ℕ} (h : Waiting ev st) (hd : d < ev.currTime) :
    Waiting (ev.pass d) ⟨st.round + 1, st.clock + d⟩ := by
  obtain ⟨⟨hround, hclock⟩, hsame, hleft, -⟩ := h
  refine ⟨⟨Nat.le_succ_of_le hround, Nat.le_add_right_of_le hclock⟩, fun he => ?_, ?_, Or.inr ?_⟩
  · simp only [TimedEvent.pass] at he
    omega
  · simp only [TimedEvent.pass]
    omega
  · simp only [TimedEvent.pass]
    omega

/-- an update of `d` visits the event and it is due -/
theorem Waiting.fire {ev : TimedEvent Cb} {st : Stamp} {d : ℕ} (h : Waiting ev st) (hd : ev.currTime ≤ d) :
    Firing.Due ⟨ev.armed, ev.goal, st, ⟨st.round + 1, st.clock + d⟩⟩ := by
  obtain ⟨⟨hround, hclock⟩, hsame, hleft, hnotDue⟩ := h
  refine ⟨?_, hnotDue, ⟨hround, hclock⟩, ⟨Nat.le_succ _, Nat.le_add_right _ _⟩⟩
  dsimp only
  omega

/-- the stamp the next execution of the event counts from -/
def Table.since (s : Table Cb) (i : ℕ) (ev : TimedEvent Cb) : Stamp := if s.cur = some i then s.now else ev.armed

/-- what an event waits for, and what its executions have waited for -/
structure Timely (s : Table Cb) (i : ℕ) (ev : TimedEvent Cb) : Prop where
  waiting : i ∈ s.list → s.cur ≠ some i → Waiting ev (s.seen i)
  due : ∀ f ∈ ev.firings, f.Due
  order : ev.firings.Pairwise fun f g => f.now.Le g.armed
  last : i ∈ s.list → ∀ f ∈ ev.firings, f.now.Le (s.since i ev)
  steady : ev.modified = false → ev.msTime = ev.delay ∧ ev.goal = ev.delay ∧ ∀ f ∈ ev.firings, f.goal = ev.delay
  chain : ev.modified = false → ∃ st, ev.firings.map Firing.armed ++ [st] = ev.added :: ev.firings.map Firing.now ∧
    (i ∈ s.list → st = s.since i ev)

theorem Timely.stays {s s' : Table Cb} {i : ℕ} {ev : TimedEvent Cb} (h : Timely s i ev) (hs : Stays s s' i) :
    Timely s' i ev := by
  have hsince : s'.since i ev = s.since i ev := by
    unfold Table.since
    by_cases hcur : s'.cur = some i
    · rw [if_pos hcur, if_pos (hs.cur.1 hcur), hs.now hcur]
    · rw [if_neg hcur, if_neg fun hc => hcur (hs.cur.2 hc)]
  refine ⟨fun hi hcur => ?_, h.due, h.order, fun hi => ?_, h.steady, fun hm => ?_⟩
  · rw [hs.seen (hs.list.1 hi)]
    exact h.waiting (hs.list.1 hi) fun hc => hcur (hs.cur.2 hc)
  · rw [hsince]
    exact h.last (hs.list.1 hi)
  · rw [hsince]
    obtain ⟨st, hst, hsame⟩ := h.chain hm
    exact ⟨st, hst, fun hi => hsame (hs.list.1 hi)⟩

/-- an event that leaves the list -/
theorem Timely.leave {s s' : Table Cb} {i : ℕ} {ev ev' : TimedEvent Cb} (h : Timely s i ev) (hout : i ∉ s'.list)
    (hfirings : ev'.firings = ev.firings) (hsteady : ev'.modified = ev.modified ∧ ev'.msTime = ev.msTime ∧
      ev'.goal = ev.goal ∧ ev'.delay = ev.delay ∧ ev'.added = ev.added) : Timely s' i ev' := by
  obtain ⟨hmodified, hms, hgoal, hdelay, hadded⟩ := hsteady
  refine ⟨fun hi => absurd hi hout, ?_, ?_, fun hi => absurd hi hout, ?_, ?_⟩
  · rw [hfirings]; exact h.due
  · rw [hfirings]; exact h.order
  · rw [hmodified, hms, hgoal, hdelay, hfirings]; exact h.steady
  · rw [hmodified, hadded, hfirings]
    intro hm
    obtain ⟨st, hst, -⟩ := h.chain hm
    exact ⟨st, hst, fun hi => absurd hi hout⟩

theorem Owned.cur_ne {s : Table Cb} (h : Owned s) {i : ℕ} (hi : i ∈ s.rest) : s.cur ≠ some i := by
  intro hcur
  have hnodup := h.list_nodup
  simp only [Table.list, hcur, Option.toList_some, List.append_assoc, List.cons_append, List.nil_append] at hnodup
  have hafter := (List.nodup_append.1 hnodup).2.1
  exact (List.nodup_cons.1 hafter).1 (List.mem_append_left _ hi)

theorem timely_fire {s s' : Table Cb} (h : Owned s) (hp : Placed s) {i d : ℕ} {ev : TimedEvent Cb} (ht : Timely s i ev)
    (hd : s.updating = some d) (hi : i ∈ s.rest) (hdue : ev.currTime ≤ d) (hcur : s'.cur = some i)
    (hnow : s'.now = s.now) : Timely s' i (ev.fire s.before s.now) := by
  have hlist : i ∈ s.list := by simp [Table.list, hi]
  have hseen : s.seen i = s.before := if_pos hi
  have hwait : Waiting ev s.before := hseen ▸ ht.waiting hlist (h.cur_ne hi)
  have hsince : s.since i ev = ev.armed := if_neg (h.cur_ne hi)
  have hsince' : s'.since i (ev.fire s.before s.now) = s.now := by
    unfold Table.since
    rw [if_pos hcur, hnow]
  have hlast := ht.last hlist
  rw [hsince] at hlast
  have hfire : Firing.Due ⟨ev.armed, ev.goal, s.before, s.now⟩ := by
    rw [hp.running d hd]
    exact hwait.fire hdue
  refine ⟨fun _ hne => absurd hcur hne, ?_, ?_, ?_, ?_, ?_⟩
  · intro f hf
    rcases List.mem_append.1 hf with hf | hf
    · exact ht.due f hf
    · rw [List.mem_singleton.1 hf]; exact hfire
  · refine List.pairwise_append.2 ⟨ht.order, List.pairwise_singleton _ _, ?_⟩
    intro f hf g hg
    rw [List.mem_singleton.1 hg]
    exact hlast f hf
  · intro _ f hf
    rw [hsince']
    rcases List.mem_append.1 hf with hf | hf
    · exact ((hlast f hf).trans hwait.after).trans hfire.next
    · rw [List.mem_singleton.1 hf]; exact Stamp.Le.refl _
  · intro hm
    obtain ⟨hms, hgoal, hall⟩ := ht.steady hm
    refine ⟨hms, hgoal, ?_⟩
    intro f hf
    rcases List.mem_append.1 hf with hf | hf
    · exact hall f hf
    · rw [List.mem_singleton.1 hf]; exact hgoal
  · intro hm
    obtain ⟨st, hst, hsame⟩ := ht.chain hm
    rw [hsame hlist, hsince] at hst
    refine ⟨s.now, ?_, fun _ => hsince'.symm⟩
    simp [TimedEvent.fire, hst]

theorem timely_pass {s s' : Table Cb} (h : Owned s) (hp : Placed s) {i d : ℕ} {ev : TimedEvent Cb} (ht : Timely s i ev)
    (hd : s.updating = some d) (hi : i ∈ s.rest) (hdue : d < ev.currTime) (hcur : s'.cur = none)
    (hpast : i ∉ s'.rest) (hnow : s'.now = s.now) : Timely s' i (ev.pass d) := by
  have hlist : i ∈ s.list := by simp [Table.list, hi]
  have hseen : s.seen i = s.before := if_pos hi
  have hwait : Waiting ev s.before := hseen ▸ ht.waiting hlist (h.cur_ne hi)
  have hsince : s.since i ev = ev.armed := if_neg (h.cur_ne hi)
  have hsince' : s'.since i (ev.pass d) = ev.armed := if_neg (by rw [hcur]; exact (Option.some_ne_none i).symm)
  have hseen' : s'.seen i = s.now := (if_neg hpast).trans hnow
  refine ⟨fun _ _ => ?_, ht.due, ht.order, fun _ => ?_, ht.steady, fun hm => ?_⟩
  · rw [hseen', hp.running d hd]
    exact hwait.pass hdue
  · rw [hsince', ← hsince]
    exact ht.last hlist
  · obtain ⟨st, hst, hsame⟩ := ht.chain hm
    exact ⟨st, hst, fun _ => by rw [hsame hlist, hsince, hsince']⟩

theorem timely_rearm {s s' : Table Cb} {i : ℕ} {ev : TimedEvent Cb} (ht : Timely s i ev) (hcur : s.cur = some i)
    (hcur' : s'.cur = none) (hpast : i ∉ s'.rest) (hnow : s'.now = s.now) : Timely s' i (ev.rearm s.now) := by
  have hlist : i ∈ s.list := by simp [Table.list, hcur]
  have hsince : s.since i ev = s.now := if_pos hcur
  have hsince' : s'.since i (ev.rearm s.now) = s.now := if_neg (by rw [hcur']; exact (Option.some_ne_none i).symm)
  have hseen' : s'.seen i = s.now := (if_neg hpast).trans hnow
  refine ⟨fun _ _ => ?_, ht.due, ht.order, fun _ => ?_, fun hm => ?_, fun hm => ?_⟩
  · rw [hseen']
    exact Waiting.arm rfl rfl
  · rw [hsince', ← hsince]
    exact ht.last hlist
  · obtain ⟨hms, -, hall⟩ := ht.steady hm
    exact ⟨hms, hms, hall⟩
  · obtain ⟨st, hst, hsame⟩ := ht.chain hm
    exact ⟨st, hst, fun _ => by rw [hsame hlist, hsince, hsince']⟩

theorem timely_change {s : Table Cb} (h : Owned s) (hp : Placed s) {o : Op Cb} {i : ℕ} {ev ev' : TimedEvent Cb}
    (hev : s.val i = some ev) (ht : Timely s i ev) (hc : Change s (step s o) i ev o ev') :
    Timely (step s o) i ev' := by
  have hi : i < s.heap.cells.length := lt_of_ownerOf (o := ev.owner) (by unfold Table.ownerOf; rw [hev]; rfl)
  have hact (a : Act Cb) : Stays s (step s (.act a)) i := stays_step hp hi (by unfold Turn; simp)
  have hhead (hrest : s.rest.head? = some i) : i ∈ s.rest := List.mem_of_mem_head? hrest
  cases hc with
  | same hturn => exact ht.stays (stays_step hp hi hturn)
  | remove a =>
    have hstay := ht.stays (hact a)
    refine ⟨fun hmem hcur => ?_, hstay.due, hstay.order, hstay.last, hstay.steady, hstay.chain⟩
    obtain ⟨hafter, hsame, hleft, hnotDue⟩ := hstay.waiting hmem hcur
    exact ⟨hafter, hsame, hleft, hnotDue⟩
  | setTimeLeft a time msTime =>
    have hstay := hact a
    refine ⟨fun hmem _ => Waiting.arm (hstay.seen (hstay.list.1 hmem)).symm rfl, ht.due, ht.order, ?_,
      (fun hm => by cases hm), (fun hm => by cases hm)⟩
    intro hmem f hf
    have hold := ht.last (hstay.list.1 hmem) f hf
    unfold Table.since at hold ⊢
    by_cases hcur : (step s (.act a)).cur = some i
    · rw [if_pos hcur, hstay.now hcur]
      rwa [if_pos (hstay.cur.1 hcur)] at hold
    · have hcur' : s.cur ≠ some i := fun hc => hcur (hstay.cur.2 hc)
      rw [if_neg hcur]
      rw [if_neg hcur'] at hold
      exact hold.trans (ht.waiting (hstay.list.1 hmem) hcur').after
  | setTime a msTime =>
    have hstay := ht.stays (hact a)
    refine ⟨fun hmem hcur => ?_, hstay.due, hstay.order, hstay.last, (fun hm => by cases hm), (fun hm => by cases hm)⟩
    obtain ⟨hafter, hsame, hleft, hnotDue⟩ := hstay.waiting hmem hcur
    exact ⟨hafter, hsame, hleft, hnotDue⟩
  | erase d _ _ _ hout => exact ht.leave hout rfl ⟨rfl, rfl, rfl, rfl, rfl⟩
  | fire d hd hrest _ hdue _ hcur => exact timely_fire h hp ht hd (hhead hrest) hdue hcur (now_loop (loop_visit s))
  | pass d hd hrest _ hdue hcur hpast _ =>
    exact timely_pass h hp ht hd (hhead hrest) hdue hcur hpast (now_loop (loop_visit s))
  | deletesObject _ _ hout => exact ht.leave hout rfl ⟨rfl, rfl, rfl, rfl, rfl⟩
  | ends _ _ _ hout => exact ht.leave hout rfl ⟨rfl, rfl, rfl, rfl, rfl⟩
  | rearm hcur _ _ hcur' hpast _ => exact timely_rearm ht hcur hcur' hpast (now_loop (loop_ret s))

theorem timely_new {s : Table Cb} (h : Owned s) (n : NewEvent Cb) :
    Timely (addEvent s n) s.heap.cells.length (n.event (if s.atEnd then s.now else s.before)) := by
  have hnew : s.heap.cells.length ∉ s.list := fun hmem => Nat.lt_irrefl _ (h.list_lt hmem)
  have hcur : (addEvent s n).cur ≠ some s.heap.cells.length := by
    intro hcur
    have hsame : s.cur = some s.heap.cells.length := hcur
    exact hnew (by simp [Table.list, hsame])
  have hseen : (addEvent s n).seen s.heap.cells.length = if s.atEnd then s.now else s.before := by
    unfold Table.seen addEvent
    by_cases hend : s.atEnd = true
    · have hrest : s.heap.cells.length ∉ s.rest := fun hmem => hnew (by simp [Table.list, hmem])
      simp [hend, hrest]
    · simp [hend]
  refine ⟨fun _ _ => Waiting.arm hseen.symm rfl, List.forall_mem_nil _, List.Pairwise.nil,
    fun _ => List.forall_mem_nil _, fun _ => ⟨rfl, rfl, List.forall_mem_nil _⟩, fun _ => ⟨_, rfl, fun _ => ?_⟩⟩
  unfold Table.since
  rw [if_neg hcur]
  rfl

theorem timely_step {s : Table Cb} (h : Owned s) (hp : Placed s) (o : Op Cb)
    (ht : ∀ i ev, s.val i = some ev → Timely s i ev) :
    ∀ i ev, (step s o).val i = some ev → Timely (step s o) i ev := by
  intro i ev' hev'
  rcases exists_before h o hev' with ⟨ev, hev, hchange⟩ | ⟨n, -, he, hi, rfl⟩
  · exact timely_change h hp hev (ht i ev hev) hchange
  · rw [he, hi]
    exact timely_new h n

/-! ## How often -/

/-- an event that only a removal, or the last of its executions, ends -/
structure Regular (ev : TimedEvent Cb) : Prop where
  instance_eq : ev.instanceId = worldInstance
  inWorld : ev.notInWorld = false
  keepsObject : ev.deletesObject = false
  cb : ev.cb ≠ none

/-- `repeats` after `k` executions -/
def TimedEvent.repeatsAfter (ev : TimedEvent Cb) (k : ℕ) : ℤ := if ev.wanted = 0 then 0 else ev.wanted - k

structure Counting (s : Table Cb) (i : ℕ) (ev : TimedEvent Cb) : Prop where
  alive : i ∈ s.list → ev.deleted = true → ev.removed = true
  waiting : i ∈ s.list → s.cur ≠ some i →
    ev.repeats = ev.repeatsAfter ev.firings.length ∧ (0 < ev.wanted → ev.firings.length < ev.wanted)
  running : s.cur = some i → 0 < ev.firings.length ∧ ev.repeats = ev.repeatsAfter (ev.firings.length - 1)
  most : 0 < ev.wanted → ev.firings.length ≤ ev.wanted
  ended : i ∉ s.list → Regular ev → ev.removed = false → 0 < ev.wanted ∧ ev.firings.length = ev.wanted

theorem Counting.stays {s s' : Table Cb} {i : ℕ} {ev : TimedEvent Cb} (h : Counting s i ev) (hs : Stays s s' i) :
    Counting s' i ev :=
  ⟨fun hi => h.alive (hs.list.1 hi), fun hi hcur => h.waiting (hs.list.1 hi) fun hc => hcur (hs.cur.2 hc),
    fun hcur => h.running (hs.cur.1 hcur), h.most, fun hi => h.ended fun hmem => hi (hs.list.2 hmem)⟩

theorem not_executable {ev : TimedEvent Cb} (h : ¬Executable ev) (hr : Regular ev) : ev.deleted = true := by
  by_contra hdeleted
  exact h ⟨hr.instance_eq, Bool.eq_false_iff.2 hdeleted, hr.inWorld⟩

theorem counting_fire {s s' : Table Cb} (h : Owned s) {i : ℕ} {ev : TimedEvent Cb} (ht : Counting s i ev)
    (hi : i ∈ s.rest) (hcur : s'.cur = some i) : Counting s' i (ev.fire s.before s.now) := by
  have hlist : i ∈ s.list := by simp [Table.list, hi]
  obtain ⟨hrepeats, hless⟩ := ht.waiting hlist (h.cur_ne hi)
  have hlen : (ev.fire s.before s.now).firings.length = ev.firings.length + 1 := List.length_append
  refine ⟨fun _ => ht.alive hlist, fun _ hne => absurd hcur hne, fun _ => ⟨?_, ?_⟩, fun hpos => ?_, fun hnot => ?_⟩
  · omega
  · rw [hlen, Nat.add_sub_cancel]
    exact hrepeats
  · rw [hlen]
    have hlt := hless hpos
    push_cast
    exact hlt
  · exact absurd (by simp [Table.list, hcur]) hnot

/-- the callback was the last one, or the event has been removed -/
theorem counting_ends {s s' : Table Cb} {i : ℕ} {ev : TimedEvent Cb} (ht : Counting s i ev) (hcur : s.cur = some i)
    (hends : ev.ends = true) (hout : i ∉ s'.list) : Counting s' i ev.count.mark := by
  have hnot : s'.cur ≠ some i := fun hcur' => hout (by simp [Table.list, hcur'])
  refine ⟨fun hmem => absurd hmem hout, fun hmem => absurd hmem hout, fun hcur' => absurd hcur' hnot, ht.most, ?_⟩
  intro _ _ hremoved
  obtain ⟨hlen, hrepeats⟩ := ht.running hcur
  simp only [TimedEvent.ends, Bool.or_eq_true, decide_eq_true_eq] at hends
  rcases hends with ⟨hne, hzero⟩ | hdeleted
  · simp only [TimedEvent.count, if_neg hne] at hzero
    simp only [TimedEvent.repeatsAfter] at hrepeats
    split_ifs at hrepeats with hwanted
    · exact absurd hrepeats hne
    · have hall : (ev.firings.length : ℤ) = ev.wanted := by omega
      exact ⟨show 0 < ev.wanted by omega, hall⟩
  · have hold := ht.alive (by simp [Table.list, hcur]) hdeleted
    rw [show ev.removed = false from hremoved] at hold
    cases hold

theorem counting_rearm {s s' : Table Cb} {i : ℕ} {ev : TimedEvent Cb} (ht : Counting s i ev) (hcur : s.cur = some i)
    (hends : ev.ends = false) (hcur' : s'.cur = none) (hin : i ∈ s'.list) : Counting s' i (ev.rearm s.now) := by
  obtain ⟨hlen, hrepeats⟩ := ht.running hcur
  simp only [TimedEvent.ends, Bool.or_eq_false_iff, decide_eq_false_iff_not, not_and] at hends
  obtain ⟨hmore, hdeleted⟩ := hends
  refine ⟨fun _ hdel => ?_, fun _ _ => ⟨?_, fun hpos => ?_⟩, fun hc => ?_, ht.most, fun hnot => absurd hin hnot⟩
  · rw [show ev.deleted = true from hdel] at hdeleted
    cases hdeleted
  · show ev.count.repeats = ev.repeatsAfter ev.firings.length
    simp only [TimedEvent.count, TimedEvent.repeatsAfter] at hrepeats ⊢
    split_ifs at hrepeats ⊢ with hzero hwanted hwanted
    · rfl
    · -- the last execution was the one before
      have hmost := ht.most
      omega
    · exact absurd hrepeats hzero
    · omega
  · have hwanted : 0 < ev.wanted := hpos
    have hmost := ht.most hwanted
    rw [TimedEvent.repeatsAfter, if_neg hwanted.ne'] at hrepeats
    have hnonzero : ev.repeats ≠ 0 := by omega
    have hnext := hmore hnonzero
    simp only [TimedEvent.count, if_neg hnonzero] at hnext
    have hlt : (ev.firings.length : ℤ) < ev.wanted := by omega
    exact hlt
  · rw [hcur'] at hc
    cases hc

theorem counting_change {s : Table Cb} (h : Owned s) (hp : Placed s) {o : Op Cb} {i : ℕ} {ev ev' : TimedEvent Cb}
    (hev : s.val i = some ev) (ht : Counting s i ev) (hc : Change s (step s o) i ev o ev') :
    Counting (step s o) i ev' := by
  have hi : i < s.heap.cells.length := lt_of_ownerOf (o := ev.owner) (by unfold Table.ownerOf; rw [hev]; rfl)
  have hact (a : Act Cb) : Counting (step s (.act a)) i ev := ht.stays (stays_step hp hi (by unfold Turn; simp))
  have hhead (hrest : s.rest.head? = some i) : i ∈ s.rest := List.mem_of_mem_head? hrest
  have hlist (hrest : i ∈ s.rest) : i ∈ s.list := by simp [Table.list, hrest]
  have hout {s' : Table Cb} (hout : i ∉ s'.list) : s'.cur ≠ some i := fun hcur => hout (by simp [Table.list, hcur])
  cases hc with
  | same hturn => exact ht.stays (stays_step hp hi hturn)
  | remove a =>
    obtain ⟨-, hwaiting, hrunning, hmost, -⟩ := hact a
    exact ⟨fun _ _ => rfl, hwaiting, hrunning, hmost, fun _ _ hremoved => by cases hremoved⟩
  | setTimeLeft a time msTime =>
    obtain ⟨halive, hwaiting, hrunning, hmost, hended⟩ := hact a
    exact ⟨halive, hwaiting, hrunning, hmost, fun hnot hr => hended hnot ⟨hr.1, hr.2, hr.3, hr.4⟩⟩
  | setTime a msTime =>
    obtain ⟨halive, hwaiting, hrunning, hmost, hended⟩ := hact a
    exact ⟨halive, hwaiting, hrunning, hmost, fun hnot hr => hended hnot ⟨hr.1, hr.2, hr.3, hr.4⟩⟩
  | erase d _ hrest hskip hnot =>
    refine ⟨fun hmem => absurd hmem hnot, fun hmem => absurd hmem hnot,
      fun hcur => absurd hcur (hout hnot), ht.most, ?_⟩
    intro _ hr hremoved
    rcases hskip with hskip | ⟨-, hcb⟩
    · have hdeleted := not_executable hskip ⟨hr.1, hr.2, hr.3, hr.4⟩
      have hold := ht.alive (hlist (hhead hrest)) hdeleted
      rw [show ev.removed = false from hremoved] at hold
      cases hold
    · exact absurd hcb hr.cb
  | fire d _ hrest _ _ _ hcur => exact counting_fire h ht (hhead hrest) hcur
  | pass d _ hrest hex _ hcur _ hin =>
    have hold := hlist (hhead hrest)
    refine ⟨fun _ => ht.alive hold, fun _ _ => ht.waiting hold (h.cur_ne (hhead hrest)), fun hc => ?_, ht.most,
      fun hnot => absurd hin hnot⟩
    rw [hcur] at hc
    cases hc
  | deletesObject hcur hdel hnot =>
    refine ⟨fun hmem => absurd hmem hnot, fun hmem => absurd hmem hnot, fun hc => absurd hc (hout hnot), ht.most, ?_⟩
    intro _ hr
    have hkeeps := hr.keepsObject
    rw [show ev.mark.deletesObject = true from hdel] at hkeeps
    cases hkeeps
  | ends hcur _ hends hnot => exact counting_ends ht hcur hends hnot
  | rearm hcur _ hends hcur' _ hin => exact counting_rearm ht hcur hends hcur' hin

theorem counting_new {s : Table Cb} (h : Owned s) (n : NewEvent Cb) (seen : Stamp) :
    Counting (addEvent s n) s.heap.cells.length (n.event seen) := by
  have hcur : (addEvent s n).cur ≠ some s.heap.cells.length := by
    intro hcur
    have hsame : s.cur = some s.heap.cells.length := hcur
    exact Nat.lt_irrefl _ (h.list_lt (by simp [Table.list, hsame]))
  refine ⟨fun _ hdeleted => ?_, fun _ _ => ⟨?_, fun hpos => ?_⟩, fun hc => absurd hc hcur, fun hpos => ?_,
    fun hnot => ?_⟩
  · cases hdeleted
  · simp only [NewEvent.event, TimedEvent.repeatsAfter, List.length_nil, Nat.cast_zero, sub_zero]
    split_ifs with hzero
    · exact hzero
    · rfl
  · simpa [NewEvent.event] using hpos
  · exact le_of_lt (by simpa [NewEvent.event] using hpos)
  · exact absurd ((list_addEvent s n).mem_iff.2 List.mem_cons_self) hnot

/-- what holds after every run -/
structure Kept (s : Table Cb) : Prop where
  owned : Owned s
  placed : Placed s
  timely : ∀ i ev, s.val i = some ev → Timely s i ev
  counting : ∀ i ev, s.val i = some ev → Counting s i ev

theorem kept_step {s : Table Cb} (o : Op Cb) (h : Kept s) : Kept (step s o) := by
  refine ⟨owned_step o h.owned, placed_step o h.placed, timely_step h.owned h.placed o h.timely, ?_⟩
  intro i ev' hev'
  rcases exists_before h.owned o hev' with ⟨ev, hev, hchange⟩ | ⟨n, -, he, hi, rfl⟩
  · exact counting_change h.owned h.placed hev (h.counting i ev hev) hchange
  · rw [he, hi]
    exact counting_new h.owned n _

theorem kept_run (ops : List (Op Cb)) : Kept (run step ({} : Table Cb) ops) := by
  have hnone (i : ℕ) (ev : TimedEvent Cb) : ({} : Table Cb).val i ≠ some ev := by simp [Table.val, Heap.val]
  refine inv_run_all (fun _ o h => kept_step o h) ops ⟨owned_run [],
    ⟨fun _ => ⟨rfl, rfl, rfl, rfl⟩, fun d hd => by cases hd⟩, ?_, ?_⟩
  · exact fun i ev hev => absurd hev (hnone i ev)
  · exact fun i ev hev => absurd hev (hnone i ev)

/-! ## Accuracy -/

/-- what the executions of an event have to do with the clock of the updates -/
structure Accurate (s : Table Cb) (i : ℕ) (ev : TimedEvent Cb) : Prop where
  /-- the updates since the event was armed take at least as long as its goal, -/
  notEarly : ∀ f ∈ ev.firings, f.goal ≤ f.now.clock - f.armed.clock
  /-- and the updates before the one of the execution do not -/
  firstUpdate : ∀ f ∈ ev.firings, f.armed.round = f.before.round ∨ f.before.clock - f.armed.clock < f.goal
  /-- at the end of an update no event that waits has reached its goal -/
  notLate : s.updating = none → i ∈ s.list → ev.armed.round = s.now.round ∨ s.now.clock - ev.armed.clock < ev.goal
  /-- an execution counts from the end of the update of the one before, or from later -/
  apart : ev.firings.Pairwise fun f g => f.now.Le g.armed
  /-- while the times of the event are not modified, its goal is the time it was added with, -/
  period : ev.modified = false → ev.goal = ev.delay ∧ ∀ f ∈ ev.firings, f.goal = ev.delay
  /-- the first execution counts from the addition, and each one after it, and the one it waits for, from the end of the
  update of the one before -/
  chain : ev.modified = false → ∃ st, ev.firings.map Firing.armed ++ [st] = ev.added :: ev.firings.map Firing.now ∧
    (s.updating = none → i ∈ s.list → st = ev.armed)
  /-- not more than `repeats` executions, -/
  most : 0 < ev.wanted → ev.firings.length ≤ ev.wanted
  /-- and an event that is not removed waits until there are as many -/
  ends : Regular ev → ev.removed = false → s.updating = none →
    (i ∉ s.list ↔ 0 < ev.wanted ∧ ev.firings.length = ev.wanted)

/-- **Accuracy.** After every run of additions, removals, modifications of the times and updates, between the updates or
from inside the callbacks, every event has been executed when its goal was reached: not before, and in the first update
that reaches it; and as often as its `repeats` says. -/
theorem timer_accuracy (ops : List (Op Cb)) (i : ℕ) (ev : TimedEvent Cb)
    (hev : (run step ({} : Table Cb) ops).val i = some ev) : Accurate (run step ({} : Table Cb) ops) i ev := by
  obtain ⟨-, hplaced, htimely, hcounting⟩ := kept_run ops
  have htime := htimely i ev hev
  have hcount := hcounting i ev hev
  have hcur (hidle : (run step ({} : Table Cb) ops).updating = none) :
      (run step ({} : Table Cb) ops).cur ≠ some i := by
    rw [(hplaced.idle hidle).1]
    exact (Option.some_ne_none i).symm
  refine ⟨fun f hf => (htime.due f hf).reached, fun f hf => (htime.due f hf).first, fun hidle hi => ?_, htime.order,
    fun hm => (htime.steady hm).2, fun hm => ?_, hcount.most, fun hr hremoved hidle => ?_⟩
  · have hwait := htime.waiting hi (hcur hidle)
    have hseen : (run step ({} : Table Cb) ops).seen i = (run step ({} : Table Cb) ops).now := by
      unfold Table.seen
      rw [(hplaced.idle hidle).2.2.2, ite_self]
    rw [hseen] at hwait
    exact hwait.notDue
  · obtain ⟨st, hst, hsame⟩ := htime.chain hm
    refine ⟨st, hst, fun hidle hi => ?_⟩
    rw [hsame hi]
    exact if_neg (hcur hidle)
  · refine ⟨fun hnot => hcount.ended hnot hr hremoved, ?_⟩
    rintro ⟨hpos, hall⟩ hi
    exact ((hcount.waiting hi (hcur hidle)).2 hpos).ne hall

/-- an event of 10 ms with two executions, over updates of 4, 6, 9 and 1 ms -/
theorem timer_accuracy_twice :
    let ops : List (Op Unit) :=
      [.act (.addEvent ⟨0, some (), 0, 10, 2, 0⟩), .update 4, .visit, .visit, .update 6, .visit,
      .ret, .visit, .update 9, .visit, .visit, .update 1, .visit, .ret, .visit]
    ∃ ev, (run step {} ops).val 0 = some ev ∧ ev.firings.length = 2 ∧ Accurate (run step {} ops) 0 ev :=
  ⟨_, rfl, rfl, timer_accuracy _ 0 _ rfl⟩

/-- an event of 10 ms whose time left is set to 100 ms waits on after an update of 10 ms; and an event of 10 ms that the
first of two callbacks adds is executed in the same update -/
theorem late_and_early :
    (let ops : List (Op Unit) := [.act (.addEvent ⟨0, some (), 0, 10, 1, 0⟩),
      .act (.modifyTimeLeft 0 0 100 true), .update 10, .visit, .visit]
      let s := run step ({} : Table Unit) ops
      ∃ ev, s.val 0 = some ev ∧ s.updating = none ∧ 0 ∈ s.list ∧ ev.removed = false ∧
        ev.delay ≤ s.now.clock - ev.added.clock ∧ ev.added.round < s.now.round ∧ ev.firings = []) ∧
    (let ops : List (Op Unit) := [.act (.addEvent ⟨0, some (), 0, 10, -1, 0⟩),
      .act (.addEvent ⟨0, some (), 0, 10, -1, 0⟩), .update 10, .visit]
      let s := run step ({} : Table Unit) ops
      s.cur = some 0 ∧ s.val 2 = none ∧
        let s' := run step s [.act (.addEvent ⟨0, some (), 0, 10, -1, 0⟩), .ret, .visit, .ret, .visit]
        ∃ ev, s'.val 2 = some ev ∧ s'.now = s.now ∧ ev.delay = 10 ∧ ev.firings.length = 1) := by
  refine ⟨⟨_, rfl, ?_⟩, rfl, rfl, _, rfl, ?_⟩
  · decide
  · decide

end DreamHeroes.Events

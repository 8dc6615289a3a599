/-
What `removeEvents` and the end of an object do to its events, between two updates or from a callback: each event of the
object, of the type if one is given, is deleted, leaves the map, and is never executed again. The event in whose
callback it happens is one of them.

- `Executes`: the loop calls the callback of an event. By `executable_of_executes` only of one that is not deleted.
- `Silenced`: an event is deleted, and no further run executes it. `silenced_of_deleted`: the one gives the other.
- `gone_removeEvents`, `gone_destroy`: each event of the object is deleted.
- `event_ownership`: the references of `EventOwnership`, with this.
-/
import Mathlib.Tactic
import DreamHeroes.Common.PendingEvents

namespace DreamHeroes.Events

open DreamHeroes.Lib

variable {Cb : Type*}

/-! ## Executions -/

/-- the step calls the callback of the event -/
def Executes (s : Table Cb) (op : Op Cb) (i : ℕ) : Prop := s.cur ≠ some i ∧ (step s op).cur = some i

theorem executable_of_loop {s s' : Table Cb} {op : Op Cb} {i : ℕ} (hl : LoopStep s op s') (hcur : s.cur ≠ some i)
    (hcur' : s'.cur = some i) : ∃ ev, s.val i = some ev ∧ Executable ev := by
  cases hl with
  | idle => exact absurd hcur' hcur
  | atEnd => exact absurd hcur' hcur
  | erase => exact absurd hcur' hcur
  | fire d j l ev _ _ _ hev hex =>
    obtain rfl : j = i := Option.some.inj hcur'
    exact ⟨ev, hev, hex⟩
  | pass => exact absurd hcur' hcur
  | deletesObject => cases hcur'
  | ends => cases hcur'
  | rearm => cases hcur'

theorem cur_act (s : Table Cb) (a : Act Cb) : (act s a).cur = s.cur := by cases a <;> rfl

theorem executable_of_executes {s : Table Cb} {op : Op Cb} {i : ℕ} (h : Executes s op i) :
    ∃ ev, s.val i = some ev ∧ Executable ev := by
  obtain ⟨hcur, hcur'⟩ := h
  cases op with
  | act a =>
    simp only [step] at hcur'
    split_ifs at hcur'
    · rw [cur_act] at hcur'
      exact absurd hcur' hcur
    · exact absurd hcur' hcur
  | update d =>
    simp only [step] at hcur'
    split_ifs at hcur'
    · exact absurd hcur' hcur
    · exact absurd hcur' hcur
  | visit => exact executable_of_loop (loop_visit s) hcur hcur'
  | ret => exact executable_of_loop (loop_ret s) hcur hcur'

/-- the event is deleted, and no further run executes it -/
structure Silenced (s : Table Cb) (i : ℕ) : Prop where
  deleted : ∃ ev, s.val i = some ev ∧ ev.deleted = true
  firings : ∀ ev, s.val i = some ev → ∀ more : List (Op Cb),
    ∃ ev', (run step s more).val i = some ev' ∧ ev'.firings = ev.firings
  silent : ∀ (more : List (Op Cb)) (op : Op Cb), ¬Executes (run step s more) op i

theorem deleted_run {s : Table Cb} (h : Owned s) (ops : List (Op Cb)) {i : ℕ}
    (hdeleted : ∃ ev, s.val i = some ev ∧ ev.deleted = true) :
    ∃ ev, (run step s ops).val i = some ev ∧ ev.deleted = true := by
  have hboth := inv_run_all (I := fun s : Table Cb => Owned s ∧ ∃ ev, s.val i = some ev ∧ ev.deleted = true)
    (fun s op ⟨h, ev, hev, hdeleted⟩ => by
      obtain ⟨ev', hev', hchange⟩ := change_step h op hev
      exact ⟨owned_step op h, ev', hev', (removed_step hchange hdeleted).1⟩) ops ⟨h, hdeleted⟩
  exact hboth.2

theorem silenced_of_deleted {s : Table Cb} (h : Owned s) {i : ℕ}
    (hdeleted : ∃ ev, s.val i = some ev ∧ ev.deleted = true) : Silenced s i where
  deleted := hdeleted
  firings := fun ev hev more => by
    obtain ⟨ev', hev', hmark⟩ := hdeleted
    obtain rfl := Option.some.inj (hev'.symm.trans hev)
    exact removed_run h more hev hmark
  silent := fun more op hexecutes => by
    obtain ⟨ev, hev, hex⟩ := executable_of_executes hexecutes
    obtain ⟨ev', hev', hmark⟩ := deleted_run h more hdeleted
    obtain rfl := Option.some.inj (hev'.symm.trans hev)
    rw [hex.not_deleted] at hmark
    cases hmark

/-! ## Removals -/

/-- the program may act on the object: it exists, and no update runs, or a callback does -/
def Acts (s : Table Cb) (o : ℕ) : Prop := (s.updating = none ∨ s.cur ≠ none) ∧ (s.objects o).destroyed = false

/-- what drops the entry of the event from the map of its object deletes it, unless it was deleted before -/
theorem deleted_of_dropped {s s' : Table Cb} (hl : Listed s) {gone : List ℕ}
    (hheap : s'.heap = s.heap.decRefs TimedEvent.remove gone) {i : ℕ} {ev : TimedEvent Cb} (hev : s.val i = some ev)
    (hgone : (ev.eventType, i) ∈ (s.objects ev.owner).events → i ∈ gone) :
    ∃ ev', s'.val i = some ev' ∧ ev'.deleted = true := by
  rw [val_dropped hheap, hev]
  by_cases hi : i ∈ gone
  · rw [if_pos hi]
    exact ⟨ev.remove, rfl, rfl⟩
  · rw [if_neg hi]
    refine ⟨ev, rfl, ?_⟩
    by_contra hlive
    have hpending : s.pending ev.owner i = some ev :=
      pending_eq_some.2 ⟨hev, Bool.not_eq_true _ ▸ hlive, rfl⟩
    exact hi (hgone (hl.mapped _ _ _ hpending))

/-- the event has left the map of the object, and is silenced -/
structure Gone (s : Table Cb) (o i : ℕ) : Prop where
  unmapped : i ∉ (s.objects o).ids
  silenced : Silenced s i

theorem gone_removeEvents {s : Table Cb} (h : Owned s) (hl : Listed s) {ty i : ℕ} {ev : TimedEvent Cb}
    (hacts : Acts s ev.owner) (hev : s.val i = some ev) (hty : ty = removalFlagAll ∨ ev.eventType = ty) :
    Gone (step s (.act (.removeEvents ev.owner ty))) ev.owner i := by
  have hstep : step s (.act (.removeEvents ev.owner ty)) = eventRemoveEvents s ev.owner ty := if_pos hacts
  constructor
  · rw [hstep]
    intro hi
    obtain ⟨⟨ty', i'⟩, hp, rfl⟩ := List.mem_map.1 hi
    simp only [eventRemoveEvents, Function.update_self] at hp
    obtain ⟨hmem, hkept⟩ := List.mem_filter.1 hp
    have htype : ev.eventType = ty' := hl.typed _ _ _ _ hmem hev
    rw [decide_eq_true_eq] at hkept
    exact hkept (htype ▸ hty)
  · refine silenced_of_deleted (owned_step _ h) ?_
    rw [hstep]
    refine deleted_of_dropped hl rfl hev fun hmem => ?_
    exact List.mem_map_of_mem (List.mem_filter.2 ⟨hmem, decide_eq_true hty⟩)

theorem gone_destroy {s : Table Cb} (h : Owned s) (hl : Listed s) {i : ℕ} {ev : TimedEvent Cb}
    (hacts : Acts s ev.owner) (hev : s.val i = some ev) : Gone (step s (.act (.destroy ev.owner))) ev.owner i := by
  have hstep : step s (.act (.destroy ev.owner)) = destroy s ev.owner := if_pos hacts
  constructor
  · rw [hstep, destroy]
    simp [EventableObject.ids]
  · refine silenced_of_deleted (owned_step _ h) ?_
    rw [hstep]
    exact deleted_of_dropped hl rfl hev fun hmem => List.mem_map_of_mem hmem

/-! ## Ownership -/

/-- the new event is in both of its containers -/
structure Added (s : Table Cb) (n : NewEvent Cb) (i : ℕ) : Prop where
  event : ∃ ev, s.val i = some ev ∧ ev.owner = n.owner ∧ ev.eventType = n.eventType ∧ ev.cb = n.cb
  mapped : i ∈ s.contents (.object n.owner)
  listed : i ∈ s.contents .holder

theorem added_addEvent {s : Table Cb} {n : NewEvent Cb} (hacts : Acts s n.owner) :
    Added (step s (.act (.addEvent n))) n s.heap.cells.length := by
  have hstep : step s (.act (.addEvent n)) = addEvent s n := if_pos hacts
  rw [hstep]
  refine ⟨⟨_, (val_addEvent s n _).trans (if_pos rfl), rfl, rfl, rfl⟩, ?_, ?_⟩
  · simp [Table.contents, addEvent, EventableObject.ids]
  · exact (list_addEvent s n).mem_iff.2 List.mem_cons_self

/-- **Ownership.** After every run: no event has been accessed after it was freed; the count of an event is the number
of the containers that have it, and it has been freed once if there are none, and not yet otherwise; an event that has
been removed is not executed in any further run; and from here `addEvent` puts a new event into its two containers,
`removeEvents` removes each event of its object and type, and the end of an object each of its events. -/
theorem event_ownership (ops : List (Op Cb)) :
    let s := run step ({} : Table Cb) ops
    s.heap.fault = false ∧
      (∀ (i : ℕ) (cell : Cell (TimedEvent Cb)), s.heap.cells[i]? = some cell →
        cell.ref = ({c | i ∈ s.contents c}.ncard : ℤ) ∧ cell.freed = if cell.ref = 0 then 1 else 0) ∧
      (∀ (i : ℕ) (ev : TimedEvent Cb), s.val i = some ev → ev.removed = true → Silenced s i) ∧
      (∀ n, Acts s n.owner → Added (step s (.act (.addEvent n))) n s.heap.cells.length) ∧
      ∀ (i : ℕ) (ev : TimedEvent Cb), s.val i = some ev → Acts s ev.owner →
        (∀ ty, ty = removalFlagAll ∨ ev.eventType = ty →
          Gone (step s (.act (.removeEvents ev.owner ty))) ev.owner i) ∧
        Gone (step s (.act (.destroy ev.owner))) ev.owner i := by
  intro s
  have h : Owned s := owned_run ops
  have hl : Listed s := listed_run ops
  refine ⟨h.counted.safe, fun i cell hcell => ref_eq_ncard h hcell, fun i ev hev hremoved => ?_,
    fun n hacts => added_addEvent hacts, ?_⟩
  · exact silenced_of_deleted h ⟨ev, hev, marked_run ops i ev hev hremoved⟩
  · intro i ev hev hacts
    exact ⟨fun ty hty => gone_removeEvents h hl hacts hev hty, gone_destroy h hl hacts hev⟩

/-- a repeating event that ends its own object from its callback -/
theorem event_ownership_callback : ∀ (more : List (Op Unit)) (op : Op Unit), ¬Executes (run step
    (step (run step ({} : Table Unit) [.act (.addEvent ⟨3, some (), 5, 10, 0, 0⟩), .update 10, .visit])
      (.act (.destroy 3))) more) op 0 := by
  have hevent := (event_ownership ([.act (.addEvent ⟨3, some (), 5, 10, 0, 0⟩), .update 10, .visit] :
    List (Op Unit))).2.2.2.2 0 _ rfl ⟨Or.inr (Option.some_ne_none 0), rfl⟩
  exact hevent.2.silenced.silent

end DreamHeroes.Events

/-
Two queues and one consumer. Producers push to the current queue; the consumer takes the other one, makes it current,
and works off what is left in its own without the lock.

- `push`, `consume`: one critical section or one unlocked step of the consumer each. `body a e` is what is called for
  the item `a`, and an item is popped after its last call.
- `Inv`: where each item is. `inv_step` keeps it.
- `Law`, `law_run`: what holds after every interleaving. `Correct`: a machine whose steps are these, and which has
  pushed what its operations push.
- `comes_back`: a pass that nobody disturbs ends; `empties`: after one more, the queues are empty.

`pushed`, `begun`, `calls` and `finished` are bookkeeping.
-/
import Mathlib.Tactic
import DreamHeroes.Lib.Machine

namespace DreamHeroes.Lib

/-- where the consumer is -/
inductive Phase (β : Type*) where
  | idle
  /-- it holds a queue, and no item of it -/
  | draining (proc : Bool)
  /-- it holds the front of a queue, and has these calls to make for it -/
  | running (proc : Bool) (todo : List β)

structure DoubleQueue (α ε β : Type*) where
  queue : Bool → List α := fun _ => []
  current : Bool := false
  phase : Phase β := .idle
  /-- no further pass begins -/
  stopped : Bool := false
  /-- in the order of the pushes -/
  pushed : List α := []
  /-- the items that the consumer has begun, and what it found there -/
  begun : List (α × ε) := []
  calls : List β := []
  /-- the items that were popped -/
  finished : List α := []

namespace DoubleQueue

variable {α ε β : Type*} (body : α → ε → List β)

def push (s : DoubleQueue α ε β) (a : α) : DoubleQueue α ε β :=
  { s with queue := Function.update s.queue s.current (s.queue s.current ++ [a]), pushed := s.pushed ++ [a] }

/-- the next step of the consumer -/
def consume (s : DoubleQueue α ε β) (e : ε) : DoubleQueue α ε β :=
  match s.phase with
  | .idle =>
    if s.stopped || (s.queue s.current).isEmpty then s
    else { s with current := !s.current, phase := .draining s.current }
  | .draining proc =>
    match s.queue proc with
    | [] => { s with phase := .idle }
    | a :: _ => { s with phase := .running proc (body a e), begun := s.begun ++ [(a, e)] }
  | .running proc (c :: todo) => { s with phase := .running proc todo, calls := s.calls ++ [c] }
  | .running proc [] =>
    { s with
      phase := .draining proc, finished := s.finished ++ (s.queue proc).head?.toList,
      queue := Function.update s.queue proc (s.queue proc).tail }

inductive Op (α ε : Type*) where
  | push (a : α)
  | consume (e : ε)
  | stop

def step (s : DoubleQueue α ε β) : Op α ε → DoubleQueue α ε β
  | .push a => s.push a
  | .consume e => s.consume body e
  | .stop => { s with stopped := true }

/-- the item that the consumer has begun and not popped -/
def item (s : DoubleQueue α ε β) : Option α :=
  match s.phase with
  | .running proc _ => (s.queue proc).head?
  | _ => none

/-- the calls that it still has to make -/
def todo (s : DoubleQueue α ε β) : List β :=
  match s.phase with
  | .running _ todo => todo
  | _ => []

/-! ## The invariant -/

structure Inv (s : DoubleQueue α ε β) : Prop where
  order : s.finished ++ (s.queue (!s.current) ++ s.queue s.current) = s.pushed
  begun : s.begun.map Prod.fst = s.finished ++ s.item.toList
  calls : s.calls ++ s.todo = s.begun.flatMap fun p => body p.1 p.2
  idle : s.phase = .idle → s.queue (!s.current) = []
  draining : ∀ proc, s.phase = .draining proc → proc = !s.current
  running : ∀ proc todo, s.phase = .running proc todo → proc = !s.current ∧ s.queue proc ≠ []

variable {body}

theorem queue_push_current (s : DoubleQueue α ε β) (a : α) : (s.push a).queue s.current = s.queue s.current ++ [a] :=
  Function.update_self ..

theorem queue_push_not (s : DoubleQueue α ε β) (a : α) : (s.push a).queue (!s.current) = s.queue (!s.current) :=
  Function.update_of_ne (Bool.not_ne_self _) _ _

/-- the item in hand is in the other queue -/
theorem item_push {s : DoubleQueue α ε β} (hs : Inv body s) (a : α) : (s.push a).item = s.item := by
  rw [item, item, show (s.push a).phase = s.phase from rfl]
  cases hphase : s.phase with
  | idle => rfl
  | draining proc => rfl
  | running proc todo =>
    obtain ⟨rfl, -⟩ := hs.running proc todo hphase
    exact congrArg List.head? (queue_push_not s a)

theorem inv_push {s : DoubleQueue α ε β} (hs : Inv body s) (a : α) : Inv body (s.push a) where
  order := by
    change s.finished ++ ((s.push a).queue (!s.current) ++ (s.push a).queue s.current) = s.pushed ++ [a]
    rw [queue_push_not, queue_push_current, ← hs.order]
    simp only [List.append_assoc]
  begun := by
    rw [item_push hs]
    exact hs.begun
  calls := hs.calls
  idle := fun hidle => (queue_push_not s a).trans (hs.idle hidle)
  draining := hs.draining
  running := fun proc todo hrunning => by
    obtain ⟨rfl, hne⟩ := hs.running proc todo hrunning
    exact ⟨rfl, by rwa [queue_push_not]⟩

theorem inv_consume {s : DoubleQueue α ε β} (hs : Inv body s) (e : ε) : Inv body (s.consume body e) := by
  obtain ⟨queue, current, phase, stopped, pushed, begun, calls, finished⟩ := s
  obtain ⟨horder, hbegun, hcalls, hidle, hdraining, hrunning⟩ := hs
  cases phase with
  | idle =>
    have hempty : queue (!current) = [] := hidle rfl
    rw [consume]
    dsimp only
    split_ifs with hstay
    · exact ⟨horder, hbegun, hcalls, hidle, hdraining, hrunning⟩
    · refine ⟨?_, hbegun, hcalls, nofun, ?_, nofun⟩
      · dsimp only at horder ⊢
        rw [hempty, List.nil_append] at horder
        rw [Bool.not_not, hempty, List.append_nil, horder]
      · rintro proc ⟨⟩
        exact (Bool.not_not _).symm
  | draining proc =>
    obtain rfl : proc = !current := hdraining proc rfl
    rw [consume]
    dsimp only
    cases hqueue : queue (!current) with
    | nil => exact ⟨horder, hbegun, hcalls, fun _ => hqueue, nofun, nofun⟩
    | cons a rest =>
      dsimp only
      refine ⟨horder, ?_, ?_, nofun, nofun, ?_⟩
      · dsimp only [item] at hbegun ⊢
        rw [List.map_append, hbegun, hqueue]
        simp
      · dsimp only [todo] at hcalls ⊢
        rw [List.flatMap_append, ← hcalls]
        simp
      · rintro proc todo ⟨⟩
        exact ⟨rfl, fun hnil => List.cons_ne_nil a rest (hqueue.symm.trans hnil)⟩
  | running proc todo =>
    obtain ⟨hproc, hne⟩ := hrunning proc todo rfl
    obtain rfl : proc = !current := hproc
    obtain ⟨a, rest, hqueue⟩ := List.exists_cons_of_ne_nil hne
    change queue (!current) = a :: rest at hqueue
    cases todo with
    | cons c todo =>
      refine ⟨horder, hbegun, (List.append_assoc calls [c] todo).trans hcalls, nofun, nofun, ?_⟩
      · rintro proc todo ⟨⟩
        exact ⟨rfl, hne⟩
    | nil =>
      refine ⟨?_, ?_, hcalls, nofun, ?_, nofun⟩
      · dsimp only [consume] at horder ⊢
        rw [Function.update_self, Function.update_of_ne (Bool.not_ne_self _).symm, ← horder, hqueue]
        simp
      · dsimp only [consume, item] at hbegun ⊢
        rw [hbegun]
        exact (List.append_nil _).symm
      · rintro proc ⟨⟩
        rfl

theorem inv_step (s : DoubleQueue α ε β) (op : Op α ε) (hs : Inv body s) : Inv body (step body s op) := by
  cases op with
  | push a => exact inv_push hs a
  | consume e => exact inv_consume hs e
  | stop => exact ⟨hs.order, hs.begun, hs.calls, hs.idle, hs.draining, hs.running⟩

/-- the items are begun in the order in which they were pushed -/
theorem begun_prefix {s : DoubleQueue α ε β} (hs : Inv body s) : s.begun.map Prod.fst <+: s.pushed := by
  have hitem : s.item.toList <+: s.queue (!s.current) ++ s.queue s.current := by
    rw [item]
    cases hphase : s.phase with
    | idle => exact List.nil_prefix
    | draining proc => exact List.nil_prefix
    | running proc todo =>
      obtain ⟨rfl, hne⟩ := hs.running proc todo hphase
      obtain ⟨a, rest, hqueue⟩ := List.exists_cons_of_ne_nil hne
      dsimp only
      rw [hqueue]
      exact ⟨rest ++ s.queue s.current, rfl⟩
  rw [hs.begun, ← hs.order]
  exact (List.prefix_append_right_inj s.finished).2 hitem

theorem inv_start : Inv body ({} : DoubleQueue α ε β) := ⟨rfl, rfl, rfl, fun _ => rfl, nofun, nofun⟩

/-! ## A pass -/

/-- the queue that becomes current is empty -/
theorem queue_of_flip {s : DoubleQueue α ε β} (hs : Inv body s) (op : Op α ε)
    (hflip : (step body s op).current ≠ s.current) : (step body s op).queue (step body s op).current = [] := by
  cases op with
  | push a => exact absurd rfl hflip
  | stop => exact absurd rfl hflip
  | consume e =>
    rw [step, consume] at hflip ⊢
    cases hphase : s.phase with
    | idle =>
      rw [hphase] at hflip
      dsimp only at hflip ⊢
      split_ifs at hflip ⊢
      · exact absurd rfl hflip
      · exact hs.idle hphase
    | draining proc =>
      rw [hphase] at hflip
      dsimp only at hflip
      split at hflip <;> exact absurd rfl hflip
    | running proc todo =>
      rw [hphase] at hflip
      cases todo <;> exact absurd rfl hflip

/-- nothing is pushed -/
def Op.Quiet : Op α ε → Prop
  | .push _ => False
  | _ => True

/-- the current queue stays empty as long as nothing is pushed -/
theorem current_step {s : DoubleQueue α ε β} (hs : Inv body s) (hempty : s.queue s.current = []) {op : Op α ε}
    (hquiet : op.Quiet) : (step body s op).queue (step body s op).current = [] := by
  cases op with
  | push a => exact hquiet.elim
  | stop => exact hempty
  | consume e =>
    rw [step, consume]
    cases hphase : s.phase with
    | idle =>
      dsimp only
      rw [hempty, List.isEmpty_nil, Bool.or_true, if_pos rfl]
      exact hempty
    | draining proc =>
      dsimp only
      split <;> exact hempty
    | running proc todo =>
      obtain ⟨rfl, -⟩ := hs.running proc todo hphase
      cases todo with
      | cons c todo => exact hempty
      | nil => exact (Function.update_of_ne (Bool.not_ne_self _).symm _ _).trans hempty

theorem current_run {s : DoubleQueue α ε β} (hs : Inv body s) (hempty : s.queue s.current = []) (ops : List (Op α ε))
    (hquiet : ∀ op ∈ ops, op.Quiet) :
    (run (step body) s ops).queue (run (step body) s ops).current = [] := by
  induction ops generalizing s with
  | nil => exact hempty
  | cons op ops ih =>
    have hop := hquiet op List.mem_cons_self
    exact ih (inv_step s op hs) (current_step hs hempty hop) fun op' hop' => hquiet op' (List.mem_cons_of_mem op hop')

/-- when a pass begins, the current queue is empty -/
theorem current_of_begin {s : DoubleQueue α ε β} (hs : Inv body s) (hidle : s.phase = .idle)
    (hgo : s.stopped = false) (e : ε) : (s.consume body e).queue (s.consume body e).current = [] := by
  rw [consume, hidle]
  dsimp only
  rw [hgo, Bool.false_or]
  split_ifs with hempty
  · exact List.isEmpty_iff.1 hempty
  · exact hs.idle hidle

theorem both_empty {s : DoubleQueue α ε β} (hs : Inv body s) (hidle : s.phase = .idle)
    (hempty : s.queue s.current = []) (i : Bool) : s.queue i = [] := by
  rcases Bool.eq_or_eq_not i s.current with rfl | rfl
  · exact hempty
  · exact hs.idle hidle

theorem pass_empties {s : DoubleQueue α ε β} (hs : Inv body s) (hidle : s.phase = .idle)
    (hgo : s.stopped = false) (e : ε) (ops : List (Op α ε)) (hquiet : ∀ op ∈ ops, op.Quiet)
    (hback : (run (step body) s (.consume e :: ops)).phase = .idle) (i : Bool) :
    (run (step body) s (.consume e :: ops)).queue i = [] := by
  have hbegin : Inv body (s.consume body e) := inv_consume hs e
  exact both_empty (inv_run_all inv_step ops hbegin) hback
    (current_run hbegin (current_of_begin hs hidle hgo e) ops hquiet) i

variable (body) in
/-- the consumer makes its calls, and pops -/
theorem calls_end {s : DoubleQueue α ε β} {proc : Bool} {todo : List β} (hs : s.phase = .running proc todo) (e : ε) :
    ∃ n, (run (step body) s (List.replicate n (.consume e))).phase = .draining proc ∧
      (run (step body) s (List.replicate n (.consume e))).queue proc = (s.queue proc).tail := by
  induction todo generalizing s with
  | nil =>
    refine ⟨1, ?_, ?_⟩ <;> rw [List.replicate_one, run_cons, run_nil, step, consume, hs]
    exact Function.update_self ..
  | cons c todo ih =>
    have hnext : s.consume body e = { s with phase := .running proc todo, calls := s.calls ++ [c] } :=
      by rw [consume, hs]
    obtain ⟨n, hphase, hqueue⟩ := ih (s := s.consume body e) (by rw [hnext])
    refine ⟨n + 1, hphase, hqueue.trans ?_⟩
    rw [hnext]

/-- the consumer empties its queue -/
theorem drain_ends {s : DoubleQueue α ε β} {proc : Bool} (hs : s.phase = .draining proc) (e : ε) :
    ∃ n, (run (step body) s (List.replicate n (.consume e))).phase = .idle := by
  induction hqueue : s.queue proc generalizing s with
  | nil => exact ⟨1, by rw [List.replicate_one, run_cons, run_nil, step, consume, hs]; dsimp only; rw [hqueue]⟩
  | cons a rest ih =>
    have hnext : (s.consume body e).phase = .running proc (body a e) ∧ (s.consume body e).queue = s.queue := by
      rw [consume, hs]
      dsimp only
      rw [hqueue]
      exact ⟨rfl, rfl⟩
    obtain ⟨n, hphase, htail⟩ := calls_end body hnext.1 e
    rw [hnext.2, hqueue] at htail
    obtain ⟨m, hm⟩ := ih hphase htail
    refine ⟨1 + n + m, ?_⟩
    rwa [← List.replicate_append_replicate, ← List.replicate_append_replicate, run_append, run_append,
      List.replicate_one, run_cons, run_nil]

/-- a pass that nobody disturbs ends -/
theorem comes_back {s : DoubleQueue α ε β} (e : ε) :
    ∃ n, (run (step body) s (List.replicate n (.consume e))).phase = .idle := by
  cases hphase : s.phase with
  | idle => exact ⟨0, hphase⟩
  | draining proc => exact drain_ends hphase e
  | running proc todo =>
    obtain ⟨n, hdraining, -⟩ := calls_end body hphase e
    obtain ⟨m, hm⟩ := drain_ends hdraining e
    exact ⟨n + m, by rwa [← List.replicate_append_replicate, run_append]⟩

theorem stopped_consume (s : DoubleQueue α ε β) (e : ε) : (s.consume body e).stopped = s.stopped := by
  rw [consume]
  cases s.phase with
  | idle =>
    dsimp only
    split_ifs <;> rfl
  | draining proc =>
    dsimp only
    split <;> rfl
  | running proc todo => cases todo <;> rfl

theorem stopped_run (s : DoubleQueue α ε β) (e : ε) (n : ℕ) :
    (run (step body) s (List.replicate n (.consume e))).stopped = s.stopped := by
  induction n generalizing s with
  | zero => rfl
  | succ n ih => exact (ih (s.consume body e)).trans (stopped_consume s e)

/-- the consumer gets to the end of what is there -/
theorem empties {s : DoubleQueue α ε β} (hs : Inv body s) (hgo : s.stopped = false) (e : ε) : ∃ n,
    (run (step body) s (List.replicate n (.consume e))).phase = .idle ∧
      ∀ i, (run (step body) s (List.replicate n (.consume e))).queue i = [] := by
  obtain ⟨n, hidle⟩ : ∃ n, (run (step body) s (List.replicate n (.consume e))).phase = .idle := comes_back e
  have hinv := inv_run_all inv_step (List.replicate n (.consume e)) hs
  have hstopped : (run (step body) s (List.replicate n (.consume e))).stopped = false := (stopped_run s e n).trans hgo
  obtain ⟨m, hback⟩ : ∃ m, (run (step body) ((run (step body) s (List.replicate n (.consume e))).consume body e)
    (List.replicate m (.consume e))).phase = .idle := comes_back e
  have hpass := pass_empties hinv hidle hstopped e (List.replicate m (.consume e))
    (fun op hop => by rw [List.eq_of_mem_replicate hop]; trivial) hback
  refine ⟨n + (m + 1), ?_, ?_⟩
  · rw [← List.replicate_append_replicate, run_append]
    exact hback
  · rw [← List.replicate_append_replicate, run_append]
    exact hpass

/-! ## Every interleaving -/

variable (body)

structure Law (s : DoubleQueue α ε β) : Prop where
  /-- the items that are through, the rest of the queue that is worked off, and the current queue: what was pushed -/
  order : s.finished ++ (s.queue (!s.current) ++ s.queue s.current) = s.pushed
  /-- the items that were begun are the ones that are through, and the one in hand -/
  begun : s.begun.map Prod.fst = s.finished ++ s.item.toList
  fifo : s.begun.map Prod.fst <+: s.pushed
  calls : s.calls ++ s.todo = s.begun.flatMap fun p => body p.1 p.2
  flip : ∀ op, (step body s op).current ≠ s.current → (step body s op).queue (step body s op).current = []
  pass : s.phase = .idle → s.stopped = false → ∀ e ops, (∀ op ∈ ops, op.Quiet) →
    (run (step body) s (.consume e :: ops)).phase = .idle → ∀ i, (run (step body) s (.consume e :: ops)).queue i = []
  back : ∀ e, ∃ n, (run (step body) s (List.replicate n (.consume e))).phase = .idle

variable {body}

theorem law_of_inv {s : DoubleQueue α ε β} (hs : Inv body s) : Law body s where
  order := hs.order
  begun := hs.begun
  fifo := begun_prefix hs
  calls := hs.calls
  flip := queue_of_flip hs
  pass := pass_empties hs
  back := comes_back

theorem inv_step_of {O : Type*} {step' : DoubleQueue α ε β → O → DoubleQueue α ε β} {toOp : O → Op α ε}
    (hstep : ∀ s o, step' s o = step body s (toOp o)) (s : DoubleQueue α ε β) (o : O) (hs : Inv body s) :
    Inv body (step' s o) := by
  rw [hstep]
  exact inv_step s (toOp o) hs

/-- **Law.** A machine whose steps are steps of the two queues keeps their promises in every state it reaches. -/
theorem law_run {O : Type*} {step' : DoubleQueue α ε β → O → DoubleQueue α ε β} {toOp : O → Op α ε}
    (hstep : ∀ s o, step' s o = step body s (toOp o)) (ops : List O) : Law body (run step' {} ops) :=
  law_of_inv (inv_run_all (inv_step_of hstep) ops inv_start)

/-- the item that an operation pushes -/
def Op.items : Op α ε → List α
  | .push a => [a]
  | _ => []

theorem pushed_consume (s : DoubleQueue α ε β) (e : ε) : (s.consume body e).pushed = s.pushed := by
  rw [consume]
  cases s.phase with
  | idle =>
    dsimp only
    split_ifs <;> rfl
  | draining proc =>
    dsimp only
    split <;> rfl
  | running proc todo => cases todo <;> rfl

theorem pushed_step (s : DoubleQueue α ε β) (op : Op α ε) : (step body s op).pushed = s.pushed ++ op.items := by
  cases op with
  | push a => rfl
  | consume e => exact (pushed_consume s e).trans (List.append_nil _).symm
  | stop => exact (List.append_nil _).symm

end DoubleQueue

end DreamHeroes.Lib

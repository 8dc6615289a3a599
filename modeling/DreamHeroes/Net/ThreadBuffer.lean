/-
The packet buffers of the threads (`common/thread_buffer.h`). `thread_buffer_manager` has a table of them, which it
looks through for the id of the calling thread. Both searches compare with `=`: the first entry is taken, whoever asks.

- `bufferLength`: what `thread_packet_buffer::getThreadBuffer` makes of a length, in `unsigned int`.
- `search`, `getThreadBuffer`, `releaseThreadBuffer`: the manager. A packet buffer is named by its address.
- `given` and `holds` are bookkeeping: who was ever given which packet buffer, and the one each thread has been given
  since its last release.
- `Private`: what the threads rely on, at each call. `Owned`: the table is empty, or its first entry is the caller's.
- `buffers_private_iff`: the calls are private all along exactly when they are all owned.
-/
import Mathlib.Tactic
import DreamHeroes.Lib.Machine

namespace DreamHeroes.ThreadBuffer

open DreamHeroes.Lib

/-! ## Packet buffers -/

inductive BufferType where
  | send
  | recv
  | compress
  | base64Decode
  | base64Encode
deriving DecidableEq, Repr

def bufferDefaultLength : UInt32 := 262144

/-- the length of a buffer that has `length` and is asked for `maxlen` -/
def bufferLength (length maxlen : UInt32) : UInt32 :=
  if length < maxlen then
    if maxlen < bufferDefaultLength then bufferDefaultLength else maxlen * 150 / 100
  else length

/-- `thread_packet_buffer` -/
structure PacketBuffer where
  addr : ℕ
  threadId : ℕ
  length : BufferType → UInt32 := fun _ => 0

/-- `thread_packet_buffer::getThreadBuffer` -/
def PacketBuffer.getThreadBuffer (p : PacketBuffer) (ntype : BufferType) (maxlen : UInt32) : PacketBuffer :=
  { p with length := Function.update p.length ntype (bufferLength (p.length ntype) maxlen) }

/-! ## The manager -/

structure Manager where
  table : List PacketBuffer := []
  next : ℕ := 0
  given : List (ℕ × ℕ) := []
  holds : ℕ → Option ℕ := fun _ => none

/-- the loop of both functions: `thread_id = p->_thread_id` is true when that id is not zero -/
def search (threadId : ℕ) : List PacketBuffer → ℕ × Option PacketBuffer
  | [] => (threadId, none)
  | p :: rest => if p.threadId ≠ 0 then (p.threadId, some p) else search p.threadId rest

/-- the packet buffer that the calling thread gets -/
def Manager.gives (m : Manager) (threadId : ℕ) : ℕ :=
  match (search threadId m.table).2 with
  | some p => p.addr
  | none => m.next

def Manager.getThreadBuffer (m : Manager) (threadId : ℕ) (ntype : BufferType) (maxlen : UInt32) : Manager :=
  let given := (threadId, m.gives threadId) :: m.given
  let holds := Function.update m.holds threadId (some (m.gives threadId))
  match search threadId m.table with
  | (_, some p) =>
    { m with
      table := m.table.map fun x => if x.addr = p.addr then x.getThreadBuffer ntype maxlen else x
      given := given, holds := holds }
  | (threadId, none) =>
    { table := m.table ++ [PacketBuffer.getThreadBuffer { addr := m.next, threadId := threadId } ntype maxlen]
      next := m.next + 1, given := given, holds := holds }

def Manager.releaseThreadBuffer (m : Manager) (threadId : ℕ) : Manager :=
  let holds := Function.update m.holds threadId none
  match search threadId m.table with
  | (_, some p) => { m with table := m.table.eraseP (·.addr = p.addr), holds := holds }
  | (_, none) => { m with holds := holds }

/-- calls, one at a time; the id of a thread is not zero -/
inductive Op where
  | get (threadId : ℕ+) (ntype : BufferType) (maxlen : UInt32)
  | release (threadId : ℕ+)

def Op.threadId : Op → ℕ
  | .get t _ _ => t
  | .release t => t

def step (m : Manager) : Op → Manager
  | .get t ntype maxlen => m.getThreadBuffer t ntype maxlen
  | .release t => m.releaseThreadBuffer t

/-! ## Runs -/

/-- Nobody else was ever given the packet buffer, and it is the one the caller has; a release frees the caller's, and no
other. -/
def Private (m : Manager) : Op → Prop
  | .get t _ _ => (∀ u, (u, m.gives t) ∈ m.given → u = t) ∧ ∀ x, m.holds t = some x → x = m.gives t
  | .release t => ∀ x ∈ m.table.map (·.addr),
    x ∉ (m.releaseThreadBuffer t).table.map (·.addr) ↔ m.holds t = some x

/-- the first entry is the caller's, if there is one -/
def Owned (m : Manager) (o : Op) : Prop := ∀ p, m.table.head? = some p → p.threadId = o.threadId

/-- the one entry, and who has it -/
structure Single (m : Manager) (p : PacketBuffer) : Prop where
  table : m.table = [p]
  threadId : p.threadId ≠ 0
  fresh : p.addr < m.next
  holds : ∀ t x, m.holds t = some x ↔ t = p.threadId ∧ x = p.addr
  given : ∀ u, (u, p.addr) ∈ m.given ↔ u = p.threadId

/-- no entry, or one -/
structure Inv (m : Manager) : Prop where
  fresh : ∀ e ∈ m.given, e.2 < m.next
  single : m.table = [] ∧ (∀ t, m.holds t = none) ∨ ∃ p, Single m p

theorem inv_init : Inv {} := ⟨fun _ h => absurd h List.not_mem_nil, Or.inl ⟨rfl, fun _ => rfl⟩⟩

theorem search_single {m : Manager} {p : PacketBuffer} (h : Single m p) (t : ℕ) :
    search t m.table = (p.threadId, some p) := by
  rw [h.table]
  exact if_pos h.threadId

theorem gives_single {m : Manager} {p : PacketBuffer} (h : Single m p) (t : ℕ) : m.gives t = p.addr := by
  rw [Manager.gives, search_single h]

theorem owned_single {m : Manager} {p : PacketBuffer} (h : Single m p) (o : Op) :
    Owned m o ↔ p.threadId = o.threadId := by
  rw [Owned, h.table]
  simp

theorem release_single {m : Manager} {p : PacketBuffer} (h : Single m p) (t : ℕ) :
    (m.releaseThreadBuffer t).table = [] := by
  rw [Manager.releaseThreadBuffer, search_single h]
  simp [h.table]

/-- the first call makes the entry -/
theorem inv_get_empty {m : Manager} (hm : Inv m) (htable : m.table = []) (hholds : ∀ t, m.holds t = none) (t : ℕ+)
    (ntype : BufferType) (maxlen : UInt32) : Inv (m.getThreadBuffer t ntype maxlen) := by
  have hsearch : search t m.table = ((t : ℕ), none) := by rw [htable]; rfl
  have hgives : m.gives t = m.next := by rw [Manager.gives, hsearch]
  have hget : m.getThreadBuffer t ntype maxlen =
      { table := [PacketBuffer.getThreadBuffer { addr := m.next, threadId := t } ntype maxlen], next := m.next + 1,
        given := ((t : ℕ), m.next) :: m.given, holds := Function.update m.holds t (some m.next) } := by
    rw [Manager.getThreadBuffer, hsearch, hgives, htable]
    rfl
  rw [hget]
  refine ⟨?_, Or.inr ⟨_, rfl, t.ne_zero, Nat.lt_succ_self _, ?_, ?_⟩⟩
  · intro e he
    rcases List.mem_cons.1 he with rfl | he
    · exact Nat.lt_succ_self _
    · exact (hm.fresh e he).trans (Nat.lt_succ_self _)
  · intro u x
    dsimp only
    by_cases hu : u = t
    · rw [hu, Function.update_self]
      simp [PacketBuffer.getThreadBuffer, eq_comm]
    · rw [Function.update_of_ne hu, hholds]
      simp [PacketBuffer.getThreadBuffer, hu]
  · intro u
    rw [List.mem_cons]
    refine ⟨fun hu => ?_, fun hu => Or.inl (Prod.ext hu rfl)⟩
    rcases hu with hu | hu
    · exact congrArg Prod.fst hu
    · exact absurd (hm.fresh _ hu) (lt_irrefl _)

/-- the owner gets its entry again -/
theorem inv_get_single {m : Manager} (hm : Inv m) {p : PacketBuffer} (hp : Single m p) {t : ℕ+}
    (ht : p.threadId = t) (ntype : BufferType) (maxlen : UInt32) : Inv (m.getThreadBuffer t ntype maxlen) := by
  have hget : m.getThreadBuffer t ntype maxlen =
      { m with
        table := [p.getThreadBuffer ntype maxlen], given := ((t : ℕ), p.addr) :: m.given,
        holds := Function.update m.holds t (some p.addr) } := by
    rw [Manager.getThreadBuffer, search_single hp, gives_single hp]
    simp [hp.table]
  rw [hget]
  refine ⟨?_, Or.inr ⟨_, rfl, hp.threadId, hp.fresh, ?_, ?_⟩⟩
  · intro e he
    rcases List.mem_cons.1 he with rfl | he
    · exact hp.fresh
    · exact hm.fresh e he
  · intro u x
    dsimp only [PacketBuffer.getThreadBuffer]
    by_cases hu : u = t
    · rw [hu, Function.update_self, ht]
      simp [eq_comm]
    · rw [Function.update_of_ne hu]
      exact hp.holds u x
  · intro u
    dsimp only [PacketBuffer.getThreadBuffer]
    rw [List.mem_cons, hp.given, ht]
    simp

/-- the owner frees its entry -/
theorem inv_release_single {m : Manager} (hm : Inv m) {p : PacketBuffer} (hp : Single m p) {t : ℕ+}
    (ht : p.threadId = t) : Inv (m.releaseThreadBuffer t) := by
  have hrelease : m.releaseThreadBuffer t = { m with table := [], holds := Function.update m.holds t none } := by
    rw [Manager.releaseThreadBuffer, search_single hp]
    simp [hp.table]
  rw [hrelease]
  refine ⟨hm.fresh, Or.inl ⟨rfl, ?_⟩⟩
  intro u
  dsimp only
  by_cases hu : u = t
  · rw [hu, Function.update_self]
  · rw [Function.update_of_ne hu, Option.eq_none_iff_forall_ne_some]
    intro x hx
    exact hu (((hp.holds u x).1 hx).1.trans ht)

theorem release_empty {m : Manager} (htable : m.table = []) (hholds : ∀ t, m.holds t = none) (t : ℕ) :
    m.releaseThreadBuffer t = m := by
  have hsearch : search t m.table = (t, none) := by rw [htable]; rfl
  have hupdate : Function.update m.holds t none = m.holds := by
    rw [← hholds t]
    exact Function.update_eq_self t m.holds
  rw [Manager.releaseThreadBuffer, hsearch, hupdate]

/-- **What an owned call keeps.** -/
theorem inv_step {m : Manager} (hm : Inv m) {o : Op} (ho : Owned m o) : Inv (step m o) := by
  rcases hm.single with ⟨htable, hholds⟩ | ⟨p, hp⟩
  · cases o with
    | get t ntype maxlen => exact inv_get_empty hm htable hholds t ntype maxlen
    | release t =>
      rw [step, release_empty htable hholds]
      exact hm
  · have ht := (owned_single hp o).1 ho
    cases o with
    | get t ntype maxlen => exact inv_get_single hm hp ht ntype maxlen
    | release t => exact inv_release_single hm hp ht

/-- **An owned call is private**, and no other. -/
theorem owned_iff_private {m : Manager} (hm : Inv m) (o : Op) : Owned m o ↔ Private m o := by
  rcases hm.single with ⟨htable, hholds⟩ | ⟨p, hp⟩
  · have howned : Owned m o := by
      intro p hhead
      rw [htable] at hhead
      exact nomatch hhead
    refine ⟨fun _ => ?_, fun _ => howned⟩
    cases o with
    | get t ntype maxlen =>
      have hgives : m.gives t = m.next := by rw [Manager.gives, htable]; rfl
      refine ⟨fun u hu => ?_, fun x hx => nomatch (hholds t).symm.trans hx⟩
      rw [hgives] at hu
      exact absurd (hm.fresh _ hu) (lt_irrefl _)
    | release t =>
      intro x hx
      rw [htable] at hx
      exact absurd hx List.not_mem_nil
  · rw [owned_single hp]
    cases o with
    | get t ntype maxlen =>
      rw [Private, gives_single hp]
      constructor
      · intro ht
        refine ⟨fun u hu => ((hp.given u).1 hu).trans ht, fun x hx => ((hp.holds t x).1 hx).2⟩
      · intro h
        exact h.1 p.threadId ((hp.given _).2 rfl)
    | release t =>
      rw [Private, release_single hp, hp.table]
      simp only [List.map_cons, List.map_nil, List.mem_singleton, forall_eq, List.not_mem_nil, not_false_eq_true,
        true_iff, hp.holds, and_true]
      exact eq_comm

/-- **The buffers are private exactly when every call is owned.** -/
theorem buffers_private_iff (ops : List Op) : Along step Owned {} ops ↔ Along step Private {} ops := by
  have htrue : Along step (fun _ _ => True) {} ops := Along.of_forall _ ops fun _ _ _ => trivial
  exact along_iff_steps (fun _ _ hm _ ho => inv_step hm ho) (fun _ o hm _ => owned_iff_private hm o) inv_init htrue

/-- two threads ask for their send buffers: both get the same packet buffer, and the second frees it for the first -/
theorem one_buffer_for_two :
    (run step {} [.get 1 .send 100, .get 2 .send 100]).given = [(2, 0), (1, 0)] ∧
      ((run step {} [.get 1 .send 100, .get 2 .send 100, .release 2]).table.map (·.addr)) = [] ∧
      (run step {} [.get 1 .send 100, .get 2 .send 100, .release 2]).holds 1 = some 0 := by
  decide

end DreamHeroes.ThreadBuffer

/-
Runs of a machine with a total step function, and the rules by which a property of one step becomes a property of
every run.

- `run step s ops`: the state after the operations `ops`; an operation that is not enabled leaves the state alone.
- `run_eq_self_iff`: when a run of steps that only go up in an order ends where it began.
- `Along step ok s ops`: every operation of the list meets `ok` in the state it is executed in. The prefixes of such a
  list are such lists, so a theorem about `run step s ops` under `Along` speaks of every state on the way.
  `Along.of_split` gives such a list by the prefix before each operation.
- `inv_run`: an invariant kept by every step that meets `ok` holds after every run along `ok`.
- `along_iff_of`, `along_iff`: when `ok` is exactly what keeps the invariant, the runs along `ok` are exactly the runs
  in which the property holds all the way. `along_iff_under`, `along_iff_steps`: the same beside an invariant that the
  runs along another guard keep, for a property of the states and for one of the steps.
- `Along.imp`: what each step satisfies under the invariant, each step of a run satisfies.
- `log_run`: a list that each step makes longer by what belongs to its operation is, after a run, what belongs to the
  operations of the run. Such a list says what has happened without saying it of itself.

The same `run` is the settled state of a FIFO channel: `run recv r ch` is the receiver `r` once everything in `ch` has
been received, oldest first (`run_snoc` is a send, `run_cons` a delivery).
-/
import Mathlib.Tactic

namespace DreamHeroes.Lib

variable {S O : Type*}

/-- the state after a list of operations -/
def run (step : S → O → S) (s : S) (ops : List O) : S := ops.foldl step s

variable (step : S → O → S)

@[simp] theorem run_nil (s : S) : run step s [] = s := rfl

@[simp] theorem run_cons (s : S) (o : O) (ops : List O) : run step s (o :: ops) = run step (step s o) ops := rfl

theorem run_append (s : S) (a b : List O) : run step s (a ++ b) = run step (run step s a) b := by
  simp [run, List.foldl_append]

theorem run_snoc (s : S) (ops : List O) (o : O) : run step s (ops ++ [o]) = step (run step s ops) o := by
  simp [run_append]

/-- **Rest.** When every step goes up in an order, a run ends where it began exactly when none of its operations moves
the state it began in. -/
theorem run_eq_self_iff {r : S → S → Prop} (hrefl : ∀ s, r s s) (htrans : ∀ a b c, r a b → r b c → r a c)
    (hanti : ∀ a b, r a b → r b a → a = b) (hup : ∀ s o, r s (step s o)) (s : S) (ops : List O) :
    run step s ops = s ↔ ∀ o ∈ ops, step s o = s := by
  have hrun (s : S) (ops : List O) : r s (run step s ops) := by
    induction ops generalizing s with
    | nil => exact hrefl s
    | cons o ops ih => exact htrans _ _ _ (hup s o) (ih (step s o))
  induction ops with
  | nil => simp
  | cons o ops ih =>
    rw [run_cons, List.forall_mem_cons]
    constructor
    · intro hsame
      have hback : r (step s o) s := by
        have hrest := hrun (step s o) ops
        rwa [hsame] at hrest
      have hstep : step s o = s := (hanti _ _ (hup s o) hback).symm
      rw [hstep] at hsame
      exact ⟨hstep, ih.1 hsame⟩
    · rintro ⟨hstep, hrest⟩
      rw [hstep]
      exact ih.2 hrest

/-! ## Guarded runs -/

/-- every operation of the list meets `ok` in the state it is executed in -/
def Along (ok : S → O → Prop) (s : S) : List O → Prop
  | [] => True
  | o :: ops => ok s o ∧ Along ok (step s o) ops

@[simp] theorem along_nil (ok : S → O → Prop) (s : S) : Along step ok s [] := trivial

@[simp] theorem along_cons (ok : S → O → Prop) (s : S) (o : O) (ops : List O) :
    Along step ok s (o :: ops) ↔ ok s o ∧ Along step ok (step s o) ops := Iff.rfl

instance decidableAlong (ok : S → O → Prop) [∀ s o, Decidable (ok s o)] :
    (s : S) → (ops : List O) → Decidable (Along step ok s ops)
  | _, [] => isTrue trivial
  | s, o :: ops =>
    have := decidableAlong ok (step s o) ops
    inferInstanceAs (Decidable (ok s o ∧ Along step ok (step s o) ops))

theorem along_append (ok : S → O → Prop) (s : S) (a b : List O) :
    Along step ok s (a ++ b) ↔ Along step ok s a ∧ Along step ok (run step s a) b := by
  induction a generalizing s with
  | nil => simp
  | cons o a ih => simp [ih, and_assoc]

theorem along_and (ok ok' : S → O → Prop) (s : S) (ops : List O) :
    Along step (fun s o => ok s o ∧ ok' s o) s ops ↔ Along step ok s ops ∧ Along step ok' s ops := by
  induction ops generalizing s with
  | nil => simp
  | cons o ops ih => simp only [along_cons, ih, and_and_and_comm]

variable {step}

theorem Along.of_forall {ok : S → O → Prop} (s : S) (ops : List O) (h : ∀ s, ∀ o ∈ ops, ok s o) :
    Along step ok s ops := by
  induction ops generalizing s with
  | nil => trivial
  | cons o ops ih => exact ⟨h s o List.mem_cons_self, ih _ fun s' o' ho' => h s' o' (List.mem_cons_of_mem o ho')⟩

/-- a run along `ok`, by what comes before each of its operations -/
theorem Along.of_split {ok : S → O → Prop} {s : S} {ops : List O}
    (h : ∀ pre o post, ops = pre ++ o :: post → ok (run step s pre) o) : Along step ok s ops := by
  induction ops generalizing s with
  | nil => trivial
  | cons o ops ih =>
    refine ⟨h [] o ops rfl, ih fun pre o' post hsplit => ?_⟩
    exact h (o :: pre) o' post (by rw [hsplit, List.cons_append])

/-- **Invariance.** What every step along `ok` keeps, every run along `ok` keeps. -/
theorem inv_run {I : S → Prop} {ok : S → O → Prop} (hstep : ∀ s o, I s → ok s o → I (step s o)) {s : S}
    {ops : List O} (h0 : I s) (hops : Along step ok s ops) : I (run step s ops) := by
  induction ops generalizing s with
  | nil => exact h0
  | cons o ops ih => exact ih (hstep s o h0 hops.1) hops.2

/-- an invariant that every step keeps holds after every run -/
theorem inv_run_all {I : S → Prop} (hstep : ∀ s o, I s → I (step s o)) {s : S} (ops : List O) (h0 : I s) :
    I (run step s ops) :=
  have htrue : Along step (fun _ _ => True) s ops := Along.of_forall s ops fun _ _ _ => trivial
  inv_run (fun s o h _ => hstep s o h) h0 htrue

/-- **Logs.** What each step appends for its operation, the run has appended for its operations, in order. -/
theorem log_run {L : Type*} {I : S → Prop} {log : S → List L} {entry : O → List L}
    (hstep : ∀ s o, I s → I (step s o)) (hlog : ∀ s o, I s → log (step s o) = log s ++ entry o) {s : S} (ops : List O)
    (h0 : I s) : log (run step s ops) = log s ++ ops.flatMap entry := by
  induction ops generalizing s with
  | nil => exact (List.append_nil _).symm
  | cons o ops ih => rw [run_cons, ih (hstep s o h0), hlog s o h0, List.append_assoc, List.flatMap_cons]

/-- what each step along `ok` satisfies under the invariant, each step of a run along `ok` satisfies -/
theorem Along.imp {I : S → Prop} {ok Q : S → O → Prop} (hstep : ∀ s o, I s → ok s o → I (step s o))
    (hQ : ∀ s o, I s → ok s o → Q s o) {s : S} {ops : List O} (h0 : I s) (hops : Along step ok s ops) :
    Along step Q s ops := by
  induction ops generalizing s with
  | nil => trivial
  | cons o ops ih => exact ⟨hQ s o h0 hops.1, ih (hstep s o h0 hops.1) hops.2⟩

/-- **The guard is exact.** Suppose that in every state of the invariant `I` an operation of the list that meets `ok`
keeps `I`, and one that does not breaks the property `J`, which `I` implies. Then the run meets `ok` at every step
exactly when `J` holds in every state it reaches. -/
theorem along_iff_of {I J : S → Prop} {ok : S → O → Prop} {s : S} {ops : List O} (hIJ : ∀ s, I s → J s)
    (hstep : ∀ s, ∀ o ∈ ops, I s → (ok s o → I (step s o)) ∧ (J (step s o) → ok s o)) (h0 : I s) :
    Along step ok s ops ↔ ∀ pre, pre <+: ops → J (run step s pre) := by
  induction ops generalizing s with
  | nil => simpa using hIJ s h0
  | cons o ops ih =>
    have hhead := hstep s o List.mem_cons_self h0
    have ih' := fun h1 => ih (s := step s o) (fun s' o' ho' => hstep s' o' (List.mem_cons_of_mem o ho')) h1
    rw [along_cons]
    constructor
    · rintro ⟨ho, hops⟩ pre hpre
      cases pre with
      | nil => exact hIJ s h0
      | cons o' pre =>
        obtain ⟨rfl, hpre'⟩ := List.cons_prefix_cons.1 hpre
        exact (ih' (hhead.1 ho)).1 hops pre hpre'
    · intro h
      have ho : ok s o := hhead.2 (h [o] ⟨ops, rfl⟩)
      refine ⟨ho, (ih' (hhead.1 ho)).2 ?_⟩
      intro pre hpre
      exact h (o :: pre) (List.cons_prefix_cons.2 ⟨rfl, hpre⟩)

/-- **The guard is exact under an invariant.** Along `g` the steps keep `I`. Suppose that in every state of `I` with the
property `J`, a step along `g` meets `ok` exactly when it keeps `J`. Then `J` holds at the start and the run meets `ok`
at every step exactly when `J` holds in every state the run reaches. -/
theorem along_iff_under {I J : S → Prop} {g ok : S → O → Prop} (hI : ∀ s o, I s → g s o → I (step s o))
    (hJ : ∀ s o, I s → g s o → J s → (ok s o ↔ J (step s o))) {s : S} {ops : List O} (h0 : I s)
    (hg : Along step g s ops) :
    J s ∧ Along step ok s ops ↔ ∀ pre, pre <+: ops → J (run step s pre) := by
  induction ops generalizing s with
  | nil => simp
  | cons o ops ih =>
    have ih' := ih (hI s o h0 hg.1) hg.2
    rw [along_cons]
    constructor
    · rintro ⟨hs, hok, hops⟩ pre hpre
      cases pre with
      | nil => exact hs
      | cons o' pre =>
        obtain ⟨rfl, hpre'⟩ := List.cons_prefix_cons.1 hpre
        exact ih'.1 ⟨(hJ s o' h0 hg.1 hs).1 hok, hops⟩ pre hpre'
    · intro h
      have hs : J s := h [] List.nil_prefix
      have hnext := ih'.2 fun pre hpre => h (o :: pre) (List.cons_prefix_cons.2 ⟨rfl, hpre⟩)
      exact ⟨hs, (hJ s o h0 hg.1 hs).2 hnext.1, hnext.2⟩

/-- what the invariant gives each step along `g` to decide, the whole run decides; a step that does not meet `ok` need
not keep the invariant -/
theorem along_iff_steps {I : S → Prop} {g ok Q : S → O → Prop} (hI : ∀ s o, I s → g s o → ok s o → I (step s o))
    (hQ : ∀ s o, I s → g s o → (ok s o ↔ Q s o)) {s : S} {ops : List O} (h0 : I s) (hg : Along step g s ops) :
    Along step ok s ops ↔ Along step Q s ops := by
  induction ops generalizing s with
  | nil => exact Iff.rfl
  | cons o ops ih =>
    have hhead := hQ s o h0 hg.1
    constructor
    · rintro ⟨ho, hops⟩
      exact ⟨hhead.1 ho, (ih (hI s o h0 hg.1 ho) hg.2).1 hops⟩
    · rintro ⟨ho, hops⟩
      exact ⟨hhead.2 ho, (ih (hI s o h0 hg.1 (hhead.2 ho)) hg.2).2 hops⟩

/-- the exact guard when the property is the invariant itself -/
theorem along_iff {I : S → Prop} {ok : S → O → Prop} {s : S} {ops : List O}
    (hstep : ∀ s, ∀ o ∈ ops, I s → (ok s o ↔ I (step s o))) (h0 : I s) :
    Along step ok s ops ↔ ∀ pre, pre <+: ops → I (run step s pre) :=
  along_iff_of (fun _ h => h) (fun s o ho h => ⟨(hstep s o ho h).1, (hstep s o ho h).2⟩) h0

end DreamHeroes.Lib

/-
Procedures that call each other, with a bound on how deep the calls nest.

- `callN body n m s`: the procedure `m` at the state `s`. `body call` are the bodies, with `call` for the procedures
  they call; `none` stands for a call below the depth `n`.
- `callN_mono`: a call that returns, returns the same with more depth.
- `callN_rule`: what the bodies keep, when every call is at a smaller measure, holds of every call that has as much
  depth as its measure. `callN_ends`: so it returns, and returns the same from there on.
-/
import Mathlib.Tactic

namespace DreamHeroes.Lib

variable {M S : Type*}

/-- a call that returns with `call`, returns the same with `call'` -/
def Extends (call call' : M → S → Option S) : Prop := ∀ m s t, call m s = some t → call' m s = some t

/-- one computation after another, when each returns what it returned before -/
theorem bind_extends {r r' : Option S} {f f' : S → Option S} (hr : ∀ t, r = some t → r' = some t)
    (hf : ∀ s t, f s = some t → f' s = some t) (t : S) (h : r.bind f = some t) : r'.bind f' = some t := by
  obtain ⟨s, hs, ht⟩ := Option.bind_eq_some_iff.1 h
  rw [hr s hs, Option.bind_some]
  exact hf s t ht

variable (body : (M → S → Option S) → M → S → Option S)

/-- the procedures, when their calls nest less than `n` deep -/
def callN : ℕ → M → S → Option S
  | 0, _, _ => none
  | n + 1, m, s => body (callN n) m s

/-- a body that returns, returns the same when its calls do -/
def Monotonic : Prop := ∀ call call', Extends call call' → Extends (body call) (body call')

variable {body}

theorem callN_mono (hbody : Monotonic body) {n n' : ℕ} (h : n ≤ n') : Extends (callN body n) (callN body n') := by
  induction n generalizing n' with
  | zero =>
    intro m s t ht
    cases ht
  | succ n ih =>
    obtain ⟨k, rfl⟩ : ∃ k, n' = k + 1 := ⟨n' - 1, by omega⟩
    exact hbody _ _ (ih (by omega))

/-- **Total correctness.** The measure is that of a call, and bounds how deep it nests. -/
theorem callN_rule {Q : M → S → S → Prop} (measure : M → S → ℕ)
    (hbody : ∀ call m s, (∀ m' s', measure m' s' < measure m s → ∃ t, call m' s' = some t ∧ Q m' s' t) →
      ∃ t, body call m s = some t ∧ Q m s t)
    {n : ℕ} {m : M} {s : S} (h : measure m s < n) : ∃ t, callN body n m s = some t ∧ Q m s t := by
  induction n generalizing m s with
  | zero => omega
  | succ n ih =>
    apply hbody (callN body n) m s
    intro m' s' hless
    exact ih (by omega)

theorem callN_ends (hmono : Monotonic body) {Q : M → S → S → Prop} (measure : M → S → ℕ)
    (hbody : ∀ call m s, (∀ m' s', measure m' s' < measure m s → ∃ t, call m' s' = some t ∧ Q m' s' t) →
      ∃ t, body call m s = some t ∧ Q m s t)
    (m : M) (s : S) : ∃ t, Q m s t ∧ ∀ n, measure m s < n → callN body n m s = some t := by
  obtain ⟨t, ht, hQ⟩ := callN_rule measure hbody (Nat.lt_succ_self (measure m s))
  exact ⟨t, hQ, fun n hn => callN_mono hmono hn m s t ht⟩

end DreamHeroes.Lib

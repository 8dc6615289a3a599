/-
Transaction ids of different accounts.

The id of a login is the checksum of name, password, address and time, one after the other and without a separator, and
no table is asked whether an account has it already. A gate that registers says which ids its accounts have.

- `loginId_eq`: two logins from one address in one second get one id when name and password make up the same text.
- `uniqueIds_registerAccounts`, `uniqueIds_step`: an event keeps the ids apart when each id it gives to an account is
  the id of no other account (`Fresh`).
- `trans_ids_unique`: so does a run. `same_id_twice`: two players at one address.
-/
import Mathlib.Tactic
import DreamHeroes.Login.Tables

namespace DreamHeroes.Login

open DreamHeroes.Lib

variable (cfg : Cfg)

/-! ## Ids -/

/-- where name and password are divided is not part of the id -/
theorem loginId_eq (s : St) {d e : CheckAcct} (now : ℕ) (htext : d.str ++ d.pwd = e.str ++ e.pwd)
    (haddr : getRemoteAddressString cfg s d.ower = getRemoteAddressString cfg s e.ower) :
    loginId cfg s d now = loginId cfg s e now := by
  rw [loginId, loginId, htext, haddr]

/-- no other account has the id -/
def FreshId (accts : ℕ → Option Account) (a : ℕ) (t : UInt32) : Prop :=
  ∀ b p, b ≠ a → accts b = some p → p.nTranId ≠ t

/-- two accounts have two ids -/
def UniqueIds (accts : ℕ → Option Account) : Prop :=
  ∀ a b p q, a ≠ b → accts a = some p → accts b = some q → p.nTranId ≠ q.nTranId

theorem UniqueIds.update {accts : ℕ → Option Account} (h : UniqueIds accts) {a g : ℕ} {t : UInt32}
    (ht : FreshId accts a t) : UniqueIds (Function.update accts a (some ⟨g, a, t⟩)) := by
  have hself : Function.update accts a (some ⟨g, a, t⟩) a = some ⟨g, a, t⟩ := Function.update_self _ _ _
  intro b c p q hbc hb hc
  by_cases hba : b = a
  · subst hba
    obtain rfl : ⟨g, b, t⟩ = p := Option.some.inj (hself.symm.trans hb)
    rw [Function.update_of_ne (Ne.symm hbc)] at hc
    exact (ht c q (Ne.symm hbc) hc).symm
  · rw [Function.update_of_ne hba] at hb
    by_cases hca : c = a
    · subst hca
      obtain rfl : ⟨g, c, t⟩ = q := Option.some.inj (hself.symm.trans hc)
      exact ht b p hbc hb
    · rw [Function.update_of_ne hca] at hc
      exact h b c p q hbc hb hc

/-- fewer accounts -/
theorem UniqueIds.erase {accts : ℕ → Option Account} (h : UniqueIds accts) (a : ℕ) :
    UniqueIds (Function.update accts a none) := by
  intro b c p q hbc hb hc
  exact h b c p q hbc (of_update_none hb) (of_update_none hc)

/-! ## Events -/

/-- each account of the list gets an id that no other account has then -/
def RegisterFresh (gateId : ℕ) : List GTLGData → (ℕ → Option Account) → Prop
  | [], _ => True
  | d :: ds, accts =>
    -- the assertion ends the loop at an account of another gate
    (∃ p, accts d.account = some p ∧ p.nGateId ≠ gateId ∧ cfg.ndebug = false) ∨
      (FreshId accts d.account d.transid ∧
        RegisterFresh gateId ds (Function.update accts d.account (some ⟨gateId, d.account, d.transid⟩)))

/-- the id the event gives to an account is the id of no other -/
def Fresh (s : St) : Op → Prop
  | .dbDone i row sucess now => ∀ d, s.tasks[i]? = some d → d.checkType = .loginCheck →
      (s.net.sess d.ower).isvalid = true → sucess = true → (d.batchQuery row).acct ≠ 0 → getIdleGate s ≠ none →
      FreshId s.accts (d.batchQuery row).acct (loginId cfg s d now)
  | .gateRegister _ m => RegisterFresh cfg (m.serverid % 2 ^ 8) m.accounts s.accts
  | _ => True

theorem uniqueIds_registerAccounts (gateId : ℕ) (ds : List GTLGData) {s : St} (h : UniqueIds s.accts)
    (hds : RegisterFresh cfg gateId ds s.accts) : UniqueIds (registerAccounts cfg gateId ds s).accts := by
  induction ds generalizing s with
  | nil => exact h
  | cons d ds ih =>
    unfold registerAccounts
    rcases hds with ⟨p, hp, hgate, hdebug⟩ | ⟨hfresh, hds⟩
    · rw [hp]
      simpa [hgate, hdebug] using h
    · have hnext : UniqueIds (addAccount s d.account d.transid gateId).accts := h.update hfresh
      split
      · exact ih hnext hds
      · split_ifs
        · exact ih hnext hds
        · exact ih (s := addAccount (kickUserFromGate s _) d.account d.transid gateId) hnext hds
        · exact h

theorem uniqueIds_step (s : St) (o : Op) (h : UniqueIds s.accts) (ho : Fresh cfg s o) :
    UniqueIds (step cfg s o).accts := by
  cases step_event cfg s o with
  | quiet hquiet => rwa [hquiet.accts]
  | drop accts _ _ _ _ =>
    rw [accts]
    exact h.erase _
  | give task check valid acct idle given =>
    obtain ⟨g, hg⟩ := given.accts
    rw [hg]
    exact h.update (ho _ task check valid rfl acct idle)
  | register start accts _ _ _ =>
    rw [accts]
    apply uniqueIds_registerAccounts
    · rwa [start]
    · rwa [start]
  | prepar _ _ accts _ _ _ => rwa [accts]

/-- **Transaction ids are unique among the live accounts** in every state of a run whose events give an account only ids
that no other account has. -/
theorem trans_ids_unique {n onceListenCount : ℕ} {ops : List Op}
    (hops : Along (step cfg) (Fresh cfg) (create n onceListenCount) ops) :
    ∀ pre, pre <+: ops → UniqueIds (run (step cfg) (create n onceListenCount) pre).accts := by
  rintro pre ⟨rest, rfl⟩
  have hpre := ((along_append (step cfg) (Fresh cfg) _ pre rest).1 hops).1
  refine inv_run (I := fun s => UniqueIds s.accts) (uniqueIds_step cfg) ?_ hpre
  intro a b p q _ ha
  cases ha

/-! ## Runs -/

/-- two clients connect and ask, and the database finds an account for each -/
def twoLogins (first second : LoginRequest) : List Op :=
  [.gateRegister 7 ⟨1, "10.0.0.9", 9000, []⟩, .net .listen, .net .listen, .net (.accept 0 .ok), .net (.handleAccept 0),
    .net (.accept 1 .ok), .net (.handleAccept 1), .net .poll, .net .poll, .read 0 1 .frames [.loginRequest first],
    .read 1 1 .frames [.loginRequest second], .process 0, .process 0, .dbDone 0 (some (5, 0)) true 1000,
    .dbDone 0 (some (6, 0)) true 1000]

def oneAddress : Cfg := { config := { channels := [0] }, addr := fun _ => "10.0.0.1" }

/-- the players "ann" and "bob" -/
def annAndBob : List Op := twoLogins { name := "ann", pwd := "pw" } { name := "bob", pwd := "pw" }

theorem trans_ids_unique_two : UniqueIds (run (step oneAddress) (create 2 2) annAndBob).accts := by
  have hops : Along (step oneAddress) (Fresh oneAddress) (create 2 2) annAndBob := by
    refine ⟨trivial, trivial, trivial, trivial, trivial, trivial, trivial, trivial, trivial, trivial, trivial, trivial,
      trivial, ?_, ?_, trivial⟩
    · intro d _ _ _ _ _ _ b p _ hb
      cases hb
    · intro d hd _ _ _ _ _ b p _ hp
      have htask : (run (step oneAddress) (create 2 2) (annAndBob.take 14)).tasks[0]? = some
          { str := "bob", pwd := "pw", channel := 0, checkType := .loginCheck, ower := 1, conn := (1, 1) } := by
        decide +kernel
      obtain rfl := Option.some.inj (htask.symm.trans hd)
      by_cases hann : b = 5
      · subst hann
        have hacct : (run (step oneAddress) (create 2 2) (annAndBob.take 14)).accts 5 =
            some ⟨1, 5, makeTransId "annpw10.0.0.1" 1000⟩ := by decide +kernel
        obtain rfl := Option.some.inj (hacct.symm.trans hp)
        decide +kernel
      · have hnone := accts_dbDone oneAddress (run (step oneAddress) (create 2 2) (annAndBob.take 13)) 0 0 true 1000
          (a := b) rfl hann
        exact absurd (hp.symm.trans hnone) (Option.some_ne_none p)
  exact trans_ids_unique oneAddress hops annAndBob List.prefix_rfl

/-- the player "ab" with the password "c" and the player "a" with the password "bc" -/
theorem same_id_twice :
    ¬UniqueIds (run (step oneAddress) (create 2 2)
      (twoLogins { name := "ab", pwd := "c" } { name := "a", pwd := "bc" })).accts := by
  have hfirst : (run (step oneAddress) (create 2 2)
      (twoLogins { name := "ab", pwd := "c" } { name := "a", pwd := "bc" })).accts 5 =
      some ⟨1, 5, makeTransId ("ab" ++ "c" ++ "10.0.0.1") 1000⟩ := by decide +kernel
  have hsecond : (run (step oneAddress) (create 2 2)
      (twoLogins { name := "ab", pwd := "c" } { name := "a", pwd := "bc" })).accts 6 =
      some ⟨1, 6, makeTransId ("a" ++ "bc" ++ "10.0.0.1") 1000⟩ := by decide +kernel
  intro h
  exact h 5 6 _ _ (by decide) hfirst hsecond rfl

end DreamHeroes.Login

/-
The banned addresses of a server (`tcp_server::is_ban_ip`, `add_ban_ip`, `remove_ban_ip`).

An entry of `m_banip` is the time at which a ban ends, and is erased by the first check after it. `add_ban_ip` compares
that time with the length of the new ban, and stores the length.

- `Server`, `isBanIp`, `addBanIp`, `removeBanIp`: the code. `step`: the calls, with time passing in between.
- `Owed`: a ban that was asked for, not removed since, and not over. It is kept beside the server, in `asked`.
- `BansKept`: from now on, `is_ban_ip` answers true exactly for what is owed.
- `AddOk`: what `add_ban_ip` must find. `bans_last_iff`: in a run the bans are kept all the way exactly when each call
  finds it.
- `banned_owed`: in every run, an address that is banned is owed a ban. `second_ban_ignored` is one that is owed a ban
  and is not banned.
-/
import Mathlib.Tactic
import DreamHeroes.Lib.Machine
import DreamHeroes.Lib.OrdMap
import DreamHeroes.Net.Framing

namespace DreamHeroes.Bans

open DreamHeroes.Lib DreamHeroes.Wire

/-! ## The code -/

structure Server where
  unixTime : ℕ := 0
  banip : Std.TreeMap ℕ (ℕ × BanReason) := {}

def isBanIp (s : Server) (addr : ℕ) : Bool × Server :=
  match s.banip[addr]? with
  | some ban => if ban.1 < s.unixTime then (false, { s with banip := s.banip.erase addr }) else (true, s)
  | none => (false, s)

/-- the time of a new entry is an `unsigned int` -/
def addBanIp (s : Server) (addr sec : ℕ) (br : BanReason) : Server :=
  match s.banip[addr]? with
  | some ban => if ban.1 < sec then { s with banip := s.banip.insert addr (sec, br) } else s
  | none => { s with banip := s.banip.insert addr ((s.unixTime + sec) % 2 ^ 32, br) }

def removeBanIp (s : Server) (addr : ℕ) : Server := { s with banip := s.banip.erase addr }

/-! ## Calls and time -/

/-- `asked` has the bans that were asked for and not removed since, each with its end -/
structure St where
  server : Server := {}
  asked : List (ℕ × ℕ) := []

inductive Op where
  | pass (d : ℕ)
  | addBanIp (addr sec : ℕ) (br : BanReason)
  | removeBanIp (addr : ℕ)
  | isBanIp (addr : ℕ)
deriving DecidableEq, Repr

def step (s : St) : Op → St
  | .pass d => { s with server := { s.server with unixTime := s.server.unixTime + d } }
  | .addBanIp addr sec br =>
    { server := addBanIp s.server addr sec br, asked := s.asked ++ [(addr, s.server.unixTime + sec)] }
  | .removeBanIp addr => { server := removeBanIp s.server addr, asked := s.asked.filter fun ban => ban.1 ≠ addr }
  | .isBanIp addr => { s with server := (isBanIp s.server addr).2 }

/-- a ban of the address that is not over at the time `t` -/
def Owed (s : St) (addr t : ℕ) : Prop := ∃ last, (addr, last) ∈ s.asked ∧ t ≤ last

def BansKept (s : St) : Prop :=
  ∀ addr t, s.server.unixTime ≤ t → ((isBanIp { s.server with unixTime := t } addr).1 = true ↔ Owed s addr t)

/-- no overflow of `m_unix_time + sec` -/
def Fits (s : St) : Op → Prop
  | .addBanIp _ sec _ => s.server.unixTime + sec < 2 ^ 32
  | _ => True

instance decidableFits (s : St) : (o : Op) → Decidable (Fits s o)
  | .addBanIp _ sec _ => inferInstanceAs (Decidable (s.server.unixTime + sec < 2 ^ 32))
  | .pass _ | .removeBanIp _ | .isBanIp _ => isTrue trivial

/-- an entry that is kept lasts as long as the new ban; one that is replaced is replaced at the time 0 -/
def AddOk (s : St) : Op → Prop
  | .addBanIp addr sec _ => ∀ ban, s.server.banip[addr]? = some ban →
    if ban.1 < sec then s.server.unixTime = 0 else s.server.unixTime + sec ≤ ban.1
  | _ => True

/-! ## One call -/

variable {s : St} {o : Op} {addr sec t : ℕ} {br : BanReason}

theorem isBanIp_eq_true_iff (s : Server) :
    (isBanIp { s with unixTime := t } addr).1 = true ↔ ∃ ban, s.banip[addr]? = some ban ∧ t ≤ ban.1 := by
  rw [isBanIp]
  cases s.banip[addr]? with
  | none => simp
  | some ban =>
    dsimp only
    split_ifs with hover
    · simp only [Option.some.injEq, exists_eq_left', false_iff, not_le]
      exact hover
    · simp only [Option.some.injEq, exists_eq_left', true_iff]
      exact not_lt.1 hover

/-- the entries, as the times at which they end -/
theorem bansKept_iff :
    BansKept s ↔ ∀ addr t, s.server.unixTime ≤ t →
      ((∃ ban, s.server.banip[addr]? = some ban ∧ t ≤ ban.1) ↔ Owed s addr t) :=
  forall₃_congr fun addr t _ => by rw [isBanIp_eq_true_iff]

theorem get_isBanIp (s : Server) (addr other : ℕ) :
    (isBanIp s addr).2.banip[other]? = s.banip[other]? ∨
      (isBanIp s addr).2.banip[other]? = none ∧ ∃ ban, s.banip[other]? = some ban ∧ ban.1 < s.unixTime := by
  rw [isBanIp]
  cases hban : s.banip[addr]? with
  | none => exact .inl rfl
  | some ban =>
    dsimp only
    split_ifs with hover
    · rcases eq_or_ne other addr with rfl | hne
      · refine .inr ⟨?_, ban, hban, hover⟩
        dsimp only
        rw [get_erase, if_pos rfl]
      · refine .inl ?_
        dsimp only
        rw [get_erase, if_neg hne]
    · exact .inl rfl

theorem isBanIp_unixTime (s : Server) : (isBanIp s addr).2.unixTime = s.unixTime := by
  rw [isBanIp]
  cases s.banip[addr]? with
  | none => rfl
  | some ban =>
    dsimp only
    split_ifs <;> rfl

theorem addBanIp_unixTime (s : Server) : (addBanIp s addr sec br).unixTime = s.unixTime := by
  rw [addBanIp]
  cases s.banip[addr]? with
  | none => rfl
  | some ban =>
    dsimp only
    split_ifs <;> rfl

theorem get_addBanIp_other (s : Server) {other : ℕ} (hne : other ≠ addr) :
    (addBanIp s addr sec br).banip[other]? = s.banip[other]? := by
  rw [addBanIp]
  cases s.banip[addr]? with
  | none =>
    dsimp only
    rw [get_insert, if_neg hne]
  | some ban =>
    dsimp only
    split_ifs
    · dsimp only
      rw [get_insert, if_neg hne]
    · rfl

/-- the end of the entry that `add_ban_ip` leaves -/
def endAfter (s : Server) (addr sec : ℕ) : ℕ :=
  match s.banip[addr]? with
  | some ban => if ban.1 < sec then sec else ban.1
  | none => (s.unixTime + sec) % 2 ^ 32

variable (addr sec br) in
theorem get_addBanIp_self (s : Server) :
    ∃ ban, (addBanIp s addr sec br).banip[addr]? = some ban ∧ ban.1 = endAfter s addr sec := by
  rw [addBanIp, endAfter]
  cases hban : s.banip[addr]? with
  | none =>
    dsimp only
    rw [get_insert, if_pos rfl]
    exact ⟨_, rfl, rfl⟩
  | some ban =>
    dsimp only
    split_ifs
    · dsimp only
      rw [get_insert, if_pos rfl]
      exact ⟨_, rfl, rfl⟩
    · exact ⟨ban, hban, rfl⟩

/-! ## Bans that are kept -/

theorem BansKept.pass (h : BansKept s) (d : ℕ) : BansKept (step s (.pass d)) :=
  fun addr t ht => h addr t ((Nat.le_add_right _ d).trans ht)

theorem BansKept.isBanIp (h : BansKept s) (addr : ℕ) : BansKept (step s (.isBanIp addr)) := by
  rw [bansKept_iff] at h ⊢
  intro other t ht
  rw [step, isBanIp_unixTime] at ht
  have hold := h other t ht
  rcases get_isBanIp s.server addr other with hsame | ⟨hnone, ban, hban, hover⟩
  · rw [← hsame] at hold
    exact hold
  · rw [step]
    dsimp only
    rw [hnone]
    -- the entry that is erased was over
    have hnot : ¬∃ ban, s.server.banip[other]? = some ban ∧ t ≤ ban.1 := by
      rintro ⟨ban', hban', hle⟩
      rw [hban] at hban'
      cases hban'
      omega
    have hnotOwed : ¬Owed s other t := fun howed => hnot (hold.2 howed)
    exact iff_of_false (by simp) hnotOwed

theorem BansKept.removeBanIp (h : BansKept s) (addr : ℕ) : BansKept (step s (.removeBanIp addr)) := by
  rw [bansKept_iff] at h ⊢
  intro other t ht
  have howed : Owed (step s (.removeBanIp addr)) other t ↔ other ≠ addr ∧ Owed s other t := by
    simp only [Owed, step, List.mem_filter, decide_eq_true_eq]
    constructor
    · rintro ⟨last, ⟨hmem, hne⟩, hle⟩
      exact ⟨hne, last, hmem, hle⟩
    · rintro ⟨hne, last, hmem, hle⟩
      exact ⟨last, ⟨hmem, hne⟩, hle⟩
  rw [howed, ← h other t ht]
  simp only [step, Bans.removeBanIp, get_erase]
  split_ifs with heq
  · simp [heq]
  · simp [heq]

theorem owed_addBanIp (other : ℕ) :
    Owed (step s (.addBanIp addr sec br)) other t ↔
      Owed s other t ∨ other = addr ∧ t ≤ s.server.unixTime + sec := by
  simp only [Owed, step, List.mem_append, List.mem_singleton, Prod.mk.injEq]
  constructor
  · rintro ⟨last, hmem | ⟨rfl, rfl⟩, hle⟩
    · exact .inl ⟨last, hmem, hle⟩
    · exact .inr ⟨rfl, hle⟩
  · rintro (⟨last, hmem, hle⟩ | ⟨rfl, hle⟩)
    · exact ⟨last, .inl hmem, hle⟩
    · exact ⟨_, .inr ⟨rfl, rfl⟩, hle⟩

/-- the bans are kept over a new one exactly when the entry it leaves ends as late as the old and the new ban -/
theorem BansKept.addBanIp_iff (h : BansKept s) :
    BansKept (step s (.addBanIp addr sec br)) ↔
      ∀ t, s.server.unixTime ≤ t → (t ≤ endAfter s.server addr sec ↔ Owed s addr t ∨ t ≤ s.server.unixTime + sec) := by
  obtain ⟨new, hnew, hend⟩ := get_addBanIp_self addr sec br s.server
  have hself (t : ℕ) : (∃ ban, (Bans.addBanIp s.server addr sec br).banip[addr]? = some ban ∧ t ≤ ban.1) ↔
      t ≤ endAfter s.server addr sec := by
    rw [hnew, ← hend]
    simp
  rw [bansKept_iff] at h ⊢
  simp only [owed_addBanIp]
  rw [step]
  dsimp only
  rw [addBanIp_unixTime]
  constructor
  · intro hall t ht
    rw [← hself, hall addr t ht]
    simp
  · intro hall other t ht
    rcases eq_or_ne other addr with rfl | hne
    · rw [hself, hall t ht]
      simp
    · rw [get_addBanIp_other s.server hne, h other t ht]
      simp [hne]

theorem BansKept.addOk_iff (h : BansKept s) (hfit : s.server.unixTime + sec < 2 ^ 32) :
    AddOk s (.addBanIp addr sec br) ↔ BansKept (step s (.addBanIp addr sec br)) := by
  rw [h.addBanIp_iff]
  have howed := bansKept_iff.1 h addr
  rw [AddOk, endAfter]
  cases hban : s.server.banip[addr]? with
  | none =>
    have hnot (t : ℕ) (ht : s.server.unixTime ≤ t) : ¬Owed s addr t := by
      rw [← howed t ht, hban]
      simp
    refine iff_of_true (by simp) ?_
    intro t ht
    dsimp only
    rw [Nat.mod_eq_of_lt hfit]
    simp [hnot t ht]
  | some ban =>
    have hentry (t : ℕ) (ht : s.server.unixTime ≤ t) : Owed s addr t ↔ t ≤ ban.1 := by
      rw [← howed t ht, hban]
      simp
    dsimp only
    constructor
    · intro hok t ht
      have hcase := hok ban rfl
      rw [hentry t ht]
      split_ifs at hcase ⊢ <;> omega
    · intro hall ban' hban'
      cases hban'
      -- the last moment of the new ban decides
      have hlast := hall (s.server.unixTime + sec) (Nat.le_add_right _ _)
      rw [hentry _ (Nat.le_add_right _ _)] at hlast
      split_ifs at hlast ⊢ <;> omega

theorem bansKept_step_iff (h : BansKept s) (hfit : Fits s o) : AddOk s o ↔ BansKept (step s o) := by
  cases o with
  | pass d => exact iff_of_true trivial (h.pass d)
  | addBanIp addr sec br => exact h.addOk_iff hfit
  | removeBanIp addr => exact iff_of_true trivial (h.removeBanIp addr)
  | isBanIp addr => exact iff_of_true trivial (h.isBanIp addr)

/-! ## Runs -/

theorem bansKept_empty (unixTime : ℕ) : BansKept { server := { unixTime := unixTime } } := by
  rw [bansKept_iff]
  intro addr t _
  exact iff_of_false (by simp) (by simp [Owed])

/-- **Bans last as long as asked.** From a server without bans on, in any sequence of calls at non-decreasing times,
`is_ban_ip` is right at every moment, and would stay right, exactly when each `add_ban_ip` finds no entry of the
address, or one that lasts long enough. -/
theorem bans_last_iff (unixTime : ℕ) (ops : List Op)
    (hfit : Along step Fits { server := { unixTime := unixTime } } ops) :
    Along step AddOk { server := { unixTime := unixTime } } ops ↔
      ∀ pre, pre <+: ops → BansKept (run step { server := { unixTime := unixTime } } pre) := by
  have hiff : BansKept { server := { unixTime := unixTime } } ∧
      Along step AddOk { server := { unixTime := unixTime } } ops ↔ _ :=
    along_iff_under (I := fun _ => True) (fun _ _ _ _ => trivial)
      (fun _ _ _ hg hs => bansKept_step_iff hs hg) trivial hfit
  rw [← hiff]
  simp [bansKept_empty]

/-- a ban of two minutes, the check after it, and another ban -/
theorem bans_last_renewed :
    let ops : List Op := [.addBanIp 7 120 .wrongCheckSum, .pass 121, .isBanIp 7, .addBanIp 7 5 .hackPacket]
    Along step AddOk { server := { unixTime := 1000 } } ops ↔
      ∀ pre, pre <+: ops → BansKept (run step { server := { unixTime := 1000 } } pre) := by
  intro ops
  exact bans_last_iff 1000 ops (by decide)

/-- the second ban of an address is lost: the first one is still active, and ends before it -/
theorem second_ban_ignored :
    ¬ ∀ (unixTime : ℕ) (ops : List Op), Along step Fits { server := { unixTime := unixTime } } ops →
      BansKept (run step { server := { unixTime := unixTime } } ops) := by
  intro hall
  have hkept := hall 1000 [.addBanIp 7 5 .hackPacket, .addBanIp 7 120 .wrongCheckSum] (by decide)
  have hbanned := (hkept 7 1100 (by decide)).2 ⟨1120, by decide, by decide⟩
  revert hbanned
  decide

/-- **No ban of its own.** In every run, an address that is banned was banned on request, and not removed since. -/
theorem banned_owed (unixTime : ℕ) (ops : List Op) (addr t : ℕ) :
    let s := run step { server := { unixTime := unixTime } } ops
    (isBanIp { s.server with unixTime := t } addr).1 = true → Owed s addr t := by
  intro s hbanned
  have hinv : ∀ addr ban, s.server.banip[addr]? = some ban → Owed s addr ban.1 := by
    refine inv_run_all (I := fun s => ∀ addr ban, s.server.banip[addr]? = some ban → Owed s addr ban.1) ?_ ops ?_
    · intro s o h other ban hban
      cases o with
      | pass d => exact h other ban hban
      | isBanIp addr =>
        rcases get_isBanIp s.server addr other with hsame | ⟨hnone, -⟩
        · exact h other ban (hsame.symm.trans hban)
        · exact absurd (hnone.symm.trans hban) (Option.some_ne_none ban).symm
      | removeBanIp addr =>
        rw [step, Bans.removeBanIp] at hban
        dsimp only at hban
        rw [get_erase] at hban
        split_ifs at hban with hne
        obtain ⟨last, hmem, hle⟩ := h other ban hban
        exact ⟨last, List.mem_filter.2 ⟨hmem, by simpa using hne⟩, hle⟩
      | addBanIp addr sec br =>
        rw [owed_addBanIp]
        rcases eq_or_ne other addr with rfl | hne
        · obtain ⟨new, hnew, hend⟩ := get_addBanIp_self other sec br s.server
          rw [step] at hban
          dsimp only at hban
          rw [hnew] at hban
          cases hban
          rw [hend, endAfter]
          cases hold : s.server.banip[other]? with
          | none => exact .inr ⟨rfl, Nat.mod_le _ _⟩
          | some old =>
            dsimp only
            split_ifs
            · exact .inr ⟨rfl, Nat.le_add_left _ _⟩
            · exact .inl (h other old hold)
        · rw [step] at hban
          dsimp only at hban
          rw [get_addBanIp_other s.server hne] at hban
          exact .inl (h other ban hban)
    · intro addr ban hban
      simp at hban
  obtain ⟨ban, hban, hle⟩ := (isBanIp_eq_true_iff s.server).1 hbanned
  obtain ⟨last, hmem, hlast⟩ := hinv addr ban hban
  exact ⟨last, hmem, hle.trans hlast⟩

end DreamHeroes.Bans

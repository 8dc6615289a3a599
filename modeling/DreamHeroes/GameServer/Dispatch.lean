/-
The dispatch of client messages and the hero pointer of a session. The pointer is null between the construction of the
session and the reply of the database, and again once `Destroy` has cleared it; a client can send anything then.

- `parsePBMessage_nullHero_iff`: which handler reads through a null pointer, and when.
- `unguarded_eq`: the handlers of `Commands` without a hero are those that `Unguarded` tells apart.
- `dispatch_safe_iff`: a run never reads through a null pointer exactly when each of the three messages arrives at a
  session with a hero.
- `clear_before_reply`: `MsgC2SCmdClearDailyRankList` between the login and the reply.
-/
import Mathlib.Tactic
import DreamHeroes.GameServer.World

namespace DreamHeroes.World

open DreamHeroes.Lib DreamHeroes.Config DreamHeroes.Rank DreamHeroes.Hero DreamHeroes.Hero.Requests DreamHeroes.SqlText
open DreamHeroes.Commands (CmdMsg)

variable {cfg : GameConfig} {out : Outside} {sameName : String → String → Bool}

/-! ## One message -/

/-- without a hero the handlers of the commands do nothing, or have no result -/
theorem unguarded_eq {env : Env} {s : Commands.St} {p : ℕ} (hp : (s.sess p).dreamHero = none) (m : CmdMsg) :
    Commands.parsePBMessage cfg env s p m = if Unguarded m then none else some s := by
  have hwith (f : ℕ → Option Commands.St) : Commands.withHero s p f = some s := by rw [Commands.withHero, hp]
  have hderef (f : ℕ → Option Commands.St) : Commands.derefHero s p f = none := by rw [Commands.derefHero, hp]
  cases m with
  | modifySpirit spirit => exact hderef _
  | resetDailyGame => exact hderef _
  | clearDailyRankList => exact hderef _
  | _ => exact hwith _

theorem whenHero_ok (w : St) (p : ℕ) : (whenHero w p fun _ => .ok w) = .ok w := by
  rw [whenHero]
  cases (w.link.sess p).dreamHero <;> rfl

variable (cfg out) in
/-- what a message is: nothing but an answer, a request, one about a deal, or a command -/
theorem parsePBMessage_cases (env : Env) (effect : Table → Table) (w : St) (p : ℕ) (m : PBMsg) :
    parsePBMessage cfg out env effect w p m = .ok w ∨
      (∃ req, parsePBMessage cfg out env effect w p m = request cfg env w p req) ∨
      m = .crearteDeal ∨ (∃ orderId receipt, m = .verifyDeal orderId receipt) ∨ ∃ c, m = .cmd c := by
  have request {m : PBMsg} (req : ClientRequest)
      (h : parsePBMessage cfg out env effect w p m = request cfg env w p req) :
      parsePBMessage cfg out env effect w p m = .ok w ∨
        (∃ req, parsePBMessage cfg out env effect w p m = request cfg env w p req) ∨
        m = .crearteDeal ∨ (∃ orderId receipt, m = .verifyDeal orderId receipt) ∨ ∃ c, m = .cmd c :=
    Or.inr (Or.inl ⟨req, h⟩)
  cases m with
  | gameGlobalConfig => exact Or.inl rfl
  | shopConfig => exact Or.inl rfl
  | dailyGameRankList => exact Or.inl rfl
  | activityAnnouncement => exact Or.inl rfl
  | goldShopConfigs => exact Or.inl (whenHero_ok w p)
  | enterDailyGame => exact Or.inl (whenHero_ok w p)
  | crearteDeal => exact Or.inr (Or.inr (Or.inl rfl))
  | verifyDeal orderId receipt => exact Or.inr (Or.inr (Or.inr (Or.inl ⟨orderId, receipt, rfl⟩)))
  | cmd c => exact Or.inr (Or.inr (Or.inr (Or.inr ⟨c, rfl⟩)))
  | enterGame chapterId sectionId => exact request (.request (.enterGame chapterId sectionId false)) rfl
  | exitGame msg => exact request (.exitGame msg) rfl
  | unlockChapter chapterId => exact request (.request (.unlockChapter chapterId)) rfl
  | advertisementApplyTask gold => exact request (.request (.advertisementApplyTask gold)) rfl
  | advertisementRefreshTask giveUpTaskId gold =>
    exact request (.request (.advertisementRefreshTask giveUpTaskId gold)) rfl
  | buyHero grid gold => exact request (.request (.buyHero grid gold)) rfl
  | modifyCurrentHero currentGrid => exact request (.request (.modifyCurrentHero currentGrid)) rfl
  | modifyNewTutorial flag => exact request (.modifyNewTutorial flag) rfl
  | relive => exact request (.request .relive) rfl
  | buySpirit index => exact request (.request (.buySpirit index)) rfl
  | concernWeiXin cdKey => exact request (.request (.concernWeiXin cdKey)) rfl
  | buyLotion lotionId => exact request (.request (.buyLotion lotionId)) rfl
  | dayLottery => exact request (.request .dayLottery) rfl
  | receiveDailyGamePrize => exact request (.request .receiveDailyGamePrize) rfl
  | updateDailyGameProgress msg => exact request (.updateDailyGameProgress msg) rfl
  | resetDailyGameProgress => exact request (.request .resetDailyGameProgress) rfl
  | modifyNotifyGridState gridNotifyState => exact request (.modifyNotifyGridState gridNotifyState) rfl

theorem whenHero_ne {w : St} {p : ℕ} {f : ℕ → Outcome} (hf : ∀ h, f h ≠ .nullHero) : whenHero w p f ≠ .nullHero := by
  rw [whenHero]
  cases (w.link.sess p).dreamHero with
  | none => exact Outcome.noConfusion
  | some h => exact hf h

theorem request_ne {env : Env} {w : St} {p : ℕ} (req : ClientRequest) : request cfg env w p req ≠ .nullHero := by
  refine whenHero_ne ?_
  intro h
  cases handleClient cfg { env with serverTime := w.now } w.ranks (w.data h) req with
  | none => exact Outcome.noConfusion
  | some r => exact Outcome.noConfusion

theorem parseReqVerifyDeal_ne {w : St} {p : ℕ} (orderId : ℤ) (receipt : Bytes) (effect : Table → Table) :
    parseReqVerifyDeal out w p orderId receipt effect ≠ .nullHero := by
  refine whenHero_ne ?_
  intro h
  cases (w.data h).dealsWaitToPay[orderId]? with
  | none => exact Outcome.noConfusion
  | some e => exact Outcome.noConfusion

theorem parseCmd_nullHero_iff {env : Env} {effect : Table → Table} {w : St} {p : ℕ} (c : CmdMsg) :
    parseCmd cfg env w p c effect = .nullHero ↔ (w.link.sess p).dreamHero = none ∧ Unguarded c = true := by
  rw [parseCmd]
  cases (w.link.sess p).dreamHero with
  | none =>
    cases Unguarded c with
    | true => exact ⟨fun _ => ⟨rfl, rfl⟩, fun _ => rfl⟩
    | false => exact ⟨fun h => Outcome.noConfusion h, fun h => Bool.noConfusion h.2⟩
  | some h =>
    dsimp only
    cases Commands.parsePBMessage cfg { env with serverTime := w.now } w.cmdState p c with
    | none => exact ⟨fun h => Outcome.noConfusion h, fun h => nomatch h.1⟩
    | some s => exact ⟨fun h => Outcome.noConfusion h, fun h => nomatch h.1⟩

/-- **The handlers that read through a null pointer** are the three without a test. -/
theorem parsePBMessage_nullHero_iff {env : Env} {effect : Table → Table} {w : St} {p : ℕ} (m : PBMsg) :
    parsePBMessage cfg out env effect w p m = .nullHero ↔
      (w.link.sess p).dreamHero = none ∧ ∃ c, m = .cmd c ∧ Unguarded c = true := by
  have hcmd (c : CmdMsg) : parsePBMessage cfg out env effect w p (.cmd c) = .nullHero ↔
      (w.link.sess p).dreamHero = none ∧ Unguarded c = true := parseCmd_nullHero_iff c
  constructor
  · intro h
    rcases parsePBMessage_cases cfg out env effect w p m with hok | ⟨req, hreq⟩ | rfl |
      ⟨orderId, receipt, rfl⟩ | ⟨c, rfl⟩
    · exact Outcome.noConfusion (hok.symm.trans h)
    · exact absurd (hreq.symm.trans h) (request_ne req)
    · exact absurd h (whenHero_ne fun _ => Outcome.noConfusion)
    · exact absurd h (parseReqVerifyDeal_ne orderId receipt effect)
    · exact ⟨((hcmd c).1 h).1, c, rfl, ((hcmd c).1 h).2⟩
  · rintro ⟨hp, c, rfl, hc⟩
    exact (hcmd c).2 ⟨hp, hc⟩

/-! ## Runs -/

theorem whenHero_flag {w w' : St} {p : ℕ} {f : ℕ → Outcome} (hf : ∀ h, f h = .ok w' → w'.nullHero = w.nullHero)
    (h : whenHero w p f = .ok w') : w'.nullHero = w.nullHero := by
  rw [whenHero] at h
  cases hp : (w.link.sess p).dreamHero with
  | none =>
    rw [hp] at h
    cases h
    rfl
  | some x =>
    rw [hp] at h
    exact hf x h

/-- a handler with a result leaves the flag alone -/
theorem parsePBMessage_flag {env : Env} {effect : Table → Table} {w w' : St} {p : ℕ} {m : PBMsg}
    (h : parsePBMessage cfg out env effect w p m = .ok w') : w'.nullHero = w.nullHero := by
  rcases parsePBMessage_cases cfg out env effect w p m with hok | ⟨req, hreq⟩ | rfl | ⟨orderId, receipt, rfl⟩ | ⟨c, rfl⟩
  · cases hok.symm.trans h
    rfl
  · refine whenHero_flag ?_ (hreq.symm.trans h)
    intro x hx
    split at hx <;> cases hx
    rfl
  · refine whenHero_flag ?_ h
    intro x hx
    cases hx
    rfl
  · refine whenHero_flag ?_ h
    intro x hx
    split at hx <;> cases hx <;> rfl
  · rw [parsePBMessage, parseCmd] at h
    split at h
    · split at h <;> cases h
      rfl
    · split at h <;> cases h
      rfl

theorem initHero_flag (env : Env) (w : St) (t : ℕ) : (initHero cfg env w t).nullHero = w.nullHero := by
  rw [initHero]
  split <;> rfl

theorem receive_flag (env : Env) (w : St) (t : ℕ) (r : Reply) : (receive cfg out env w t r).nullHero = w.nullHero := by
  cases r with
  | heroData info granted =>
    rw [receive, initHero_flag]
    dsimp only
    split
    · rw [createHeroFrom]
      split <;> rfl
    · rfl
  | needCreateHero =>
    rw [receive, initHero_flag]
    dsimp only
    split
    · rw [createHero]
      split <;> rfl
    · rfl

/-- the session a message arrives at has a hero, if the handler reads it without a test -/
def HeroSet (w : St) : Op → Prop
  | .clientMsg _ t (.cmd c) _ =>
    Unguarded c = true → ∀ p, w.link.onlines[t]? = some p → (w.link.sess p).dreamHero ≠ none
  | _ => True

theorem clientMsg_flag (env : Env) (effect : Table → Table) (w : St) (t : ℕ) (m : PBMsg) :
    (step cfg out sameName w (.clientMsg env t m effect)).nullHero = true ↔
      w.nullHero = true ∨ ¬HeroSet w (.clientMsg env t m effect) := by
  have hset : ¬HeroSet w (.clientMsg env t m effect) ↔
      ∃ p, w.link.onlines[t]? = some p ∧ parsePBMessage cfg out env effect w p m = .nullHero := by
    cases m with
    | cmd c =>
      simp only [HeroSet, parsePBMessage_nullHero_iff, not_forall, not_not]
      exact ⟨fun ⟨hc, p, hp, hnone⟩ => ⟨p, hp, hnone, c, rfl, hc⟩,
        fun ⟨p, hp, hnone, c', heq, hc⟩ => ⟨by cases heq; exact hc, p, hp, hnone⟩⟩
    | _ => simp [HeroSet, parsePBMessage_nullHero_iff]
  rw [hset, step, parseUserMsg]
  cases w.link.onlines[t]? with
  | none => simp
  | some p =>
    simp only [Option.some.injEq, exists_eq_left']
    cases hr : parsePBMessage cfg out env effect w p m with
    | ok w' => simp [parsePBMessage_flag hr]
    | nullHero => simp
    | undefined => simp

theorem step_flag (w : St) (o : Op) :
    (step cfg out sameName w o).nullHero = true ↔ w.nullHero = true ∨ ¬HeroSet w o := by
  have keeps {w' : St} (ho : HeroSet w o) (h : w'.nullHero = w.nullHero) :
      w'.nullHero = true ↔ w.nullHero = true ∨ ¬HeroSet w o := by simp [h, ho]
  cases o with
  | clientMsg env t m effect => exact clientMsg_flag env effect w t m
  | addUser env g t a channel =>
    refine keeps trivial ?_
    rw [step, addUser]
    split <;> rfl
  | saveHero a =>
    refine keeps trivial ?_
    rw [step]
    split <;> rfl
  | query i failed =>
    refine keeps trivial ?_
    rw [step]
    split <;> rfl
  | execute =>
    refine keeps trivial ?_
    rw [step]
    split <;> rfl
  | receive env i =>
    refine keeps trivial ?_
    rw [step]
    split
    · exact receive_flag env w _ _
    · rfl
  | _ => exact keeps trivial rfl

/-- **Dispatch is safe** on a run exactly when each of the three messages arrives at a session with a hero. -/
theorem dispatch_safe_iff (rows : ℕ → Option CharacterRow) (ranks : RankManager) (ops : List Op) :
    Along (step cfg out sameName) HeroSet (start rows ranks) ops ↔
      ∀ pre, pre <+: ops → (run (step cfg out sameName) (start rows ranks) pre).nullHero = false := by
  refine along_iff (I := fun w : St => w.nullHero = false) ?_ rfl
  intro w o _ hw
  rw [← Bool.not_eq_true, step_flag, hw]
  simp

/-- the rank list is to be cleared, but the hero is not there yet -/
theorem clear_before_reply :
    (run (step {} plainOutside fun a b => a == b)
      (start (fun _ => none) { dailyMaxRankSize := 100, minDailyScore := 0 })
      [.addUser {} 1 100 5 0, .clientMsg {} 100 (.cmd .clearDailyRankList) id]).nullHero = true := by
  decide +kernel

end DreamHeroes.World

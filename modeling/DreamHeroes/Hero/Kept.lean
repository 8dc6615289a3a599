/-
The records and the lotions of a hero: which requests write them, and that nothing else does.

- `WritesRecords`, `WritesLotions`: the requests whose handlers write them.
- `Kept`: both as they were. `handleClient_records`, `handleClient_lotions`: the frame of the other requests.
- `StaysInPlace`, `step_kept`: the frame of everything but a request, as long as the hero is not loaded again or made
  anew.
-/
import Mathlib.Tactic
import DreamHeroes.Hero.RequestFrame
import DreamHeroes.Hero.RequestEffects

namespace DreamHeroes.Hero.Requests

open DreamHeroes.Config DreamHeroes.Rank

def ClientRequest.WritesRecords : ClientRequest → Prop
  | .request (.unlockChapter _) | .exitGame _ => True
  | _ => False

def ClientRequest.WritesLotions : ClientRequest → Prop
  | .request .dayLottery | .request (.buyLotion _) | .exitGame _ => True
  | _ => False

structure Kept (h h' : DreamHero) : Prop where
  records : h'.info.records = h.info.records
  lotions : h'.info.lotions = h.info.lotions

variable {cfg : GameConfig} {env : Env} {h : DreamHero}

theorem Kept.trans {h' h'' : DreamHero} (h1 : Kept h h') (h2 : Kept h' h'') : Kept h h'' :=
  ⟨h2.records.trans h1.records, h2.lotions.trans h1.lotions⟩

/-! ## Requests -/

theorem Written.kept {req : Request} {s : Steady} (hw : Written h req s) :
    (¬ (ClientRequest.request req).WritesRecords → s.records = h.info.records) ∧
      (¬ (ClientRequest.request req).WritesLotions → s.lotions = h.info.lotions) := by
  cases hw with
  | record chapterId => exact ⟨fun hno => absurd trivial hno, fun _ => rfl⟩
  | lotion _ lotionId hreq =>
    refine ⟨fun _ => rfl, fun hno => ?_⟩
    rcases hreq with rfl | rfl
    · exact absurd trivial hno
    · exact absurd trivial hno
  | _ => exact ⟨fun _ => rfl, fun _ => rfl⟩

variable (h) in
theorem reqUpdateDailyGameProgress_kept (serverTime : ℕ) (ranks : RankManager)
    (msg : MsgC2SReqUpdateDailyGameProgress) :
    Kept h (reqUpdateDailyGameProgress serverTime ranks h msg).1 := by
  have hbegin : Kept h (beginDailyGame ranks h) := by
    rw [beginDailyGame]
    split_ifs <;> exact ⟨rfl, rfl⟩
  rw [reqUpdateDailyGameProgress]
  cases updateProgressError ranks (beginDailyGame ranks h) msg <;> exact ⟨hbegin.records, hbegin.lotions⟩

section

variable {ranks ranks' : RankManager} {req : ClientRequest} {h' : DreamHero} {answers : List Answer}

theorem handleClient_kept (hr : handleClient cfg env ranks h req = some (h', ranks', answers)) :
    (¬ req.WritesRecords → h'.info.records = h.info.records) ∧
      (¬ req.WritesLotions → h'.info.lotions = h.info.lotions) := by
  cases req with
  | request req =>
    obtain ⟨r, hreq, heq⟩ := Option.map_eq_some_iff.1 hr
    cases heq
    exact (handle_handled hreq).written.kept
  | exitGame msg => exact ⟨fun hno => absurd trivial hno, fun hno => absurd trivial hno⟩
  | updateDailyGameProgress msg =>
    cases hr
    have hk := reqUpdateDailyGameProgress_kept h env.serverTime ranks msg
    exact ⟨fun _ => hk.records, fun _ => hk.lotions⟩
  | _ =>
    cases hr
    exact ⟨fun _ => rfl, fun _ => rfl⟩

/-- **The frame of the records.** -/
theorem handleClient_records (hr : handleClient cfg env ranks h req = some (h', ranks', answers))
    (hreq : ¬ req.WritesRecords) : h'.info.records = h.info.records := (handleClient_kept hr).1 hreq

/-- **The frame of the lotions.** -/
theorem handleClient_lotions (hr : handleClient cfg env ranks h req = some (h', ranks', answers))
    (hreq : ¬ req.WritesLotions) : h'.info.lotions = h.info.lotions := (handleClient_kept hr).2 hreq

end

/-! ## The server and the game masters -/

theorem dayRefresh_kept : Kept h (dayRefresh cfg env h) := by
  have htasks : Kept h (refreshTasks cfg env h) := by
    simp only [refreshTasks]
    split_ifs <;> exact ⟨rfl, rfl⟩
  rw [dayRefresh]
  dsimp only
  split_ifs <;> first | exact ⟨htasks.records, htasks.lotions⟩ | exact ⟨rfl, rfl⟩

theorem replaceTasks_kept (taskCount : ℕ) : Kept h (replaceTasks cfg env h taskCount) := by
  obtain ⟨tasks, htasks⟩ := replaceTasks_tasks cfg env h taskCount
  rw [htasks]
  exact ⟨rfl, rfl⟩

/-- a command that does not make the hero anew -/
def Command.KeepsHero : Command → Prop
  | .resetGame _ => False
  | _ => True

theorem command_kept {cmd : Command} (hcmd : h.gmLevel > 0 → cmd.KeepsHero) : Kept h (command cfg env h cmd) := by
  rw [command]
  split
  case isTrue hlevel =>
    cases cmd with
    | resetGame name => exact (hcmd hlevel).elim
    | replaceTask taskCount => exact replaceTasks_kept _
    | _ => exact ⟨rfl, rfl⟩
  case isFalse => exact ⟨rfl, rfl⟩

theorem dailyGameUpdate_kept (serverRankTime : ℕ) (prize : Option ℤ) :
    Kept h (tryToGetGamePrize cfg serverRankTime
      (match prize with
        | some gold => dailyGamePrize h gold
        | none => h)) := by
  have hprize (h' : DreamHero) : Kept h' (tryToGetGamePrize cfg serverRankTime h') := by
    simp only [tryToGetGamePrize]
    split_ifs <;> exact ⟨rfl, rfl⟩
  cases prize with
  | none => exact hprize h
  | some gold =>
    have hgold : Kept h (dailyGamePrize h gold) := by
      rw [dailyGamePrize]
      split_ifs <;> exact ⟨rfl, rfl⟩
    exact hgold.trans (hprize _)

/-- nothing but a request: and the hero is neither loaded again nor made anew -/
def StaysInPlace (s : St) : Op → Prop
  | .client _ _ _ | .reload _ _ _ => False
  | .command _ cmd => s.hero.gmLevel > 0 → cmd.KeepsHero
  | _ => True

theorem step_kept {out : Outside} {s : St} {o : Op} (ho : StaysInPlace s o) : Kept s.hero (step cfg out s o).hero := by
  cases o with
  | client env ranks req => exact ho.elim
  | reload env name channel => exact ho.elim
  | command env cmd => exact command_kept ho
  | dayRefresh env => exact dayRefresh_kept
  | dailyGameUpdate prize => exact dailyGameUpdate_kept _ prize
  | _ => exact ⟨rfl, rfl⟩

end DreamHeroes.Hero.Requests

/-
Where a level above 0 comes from. The handlers test `getGMLevel() > 0`, but `LoadFromConfig` ends with `SetGMLevel(1)`:
every hero that is made from the configuration passes that test.

- `handleClient_gmLevel`, `runTimer_gmLevel`: no request and no timer changes a level.
- `cmd_lowered`, `modifyGMLevel_cases`: no command raises one, but `ReqModifyGMLevel` of a session with level 3.
- `Granted`, `granted_step`: what is in memory, in the table and on its way keeps its origin.
- `only_granted_iff`: in a run whose texts are plain, no level is above 0 by default exactly when no hero is made from
  the configuration.
- `default_gm`: an account without a row.
-/
import Mathlib.Tactic
import DreamHeroes.Hero.RequestFrame
import DreamHeroes.GameServer.Dispatch
import DreamHeroes.GameServer.SessionLink

namespace DreamHeroes.World

open DreamHeroes.Lib DreamHeroes.Config DreamHeroes.Rank DreamHeroes.Hero DreamHeroes.Hero.Requests DreamHeroes.SqlText
open DreamHeroes.Commands (CmdMsg HeroNames Record generateName getHeroByName)

variable {cfg : GameConfig} {out : Outside} {sameName : String → String → Bool}

/-! ## Heroes -/

section

variable {env : Env} {h : DreamHero}

theorem handle_gmLevel {req : Request} {r : DreamHero × List Ack} (hr : handle cfg env h req = some r) :
    r.1.gmLevel = h.gmLevel := (handle_handled hr).written.gmLevel

/-- **No request changes a level.** -/
theorem handleClient_gmLevel {ranks : RankManager} {req : ClientRequest}
    {r : DreamHero × RankManager × List Answer} (hr : handleClient cfg env ranks h req = some r) :
    r.1.gmLevel = h.gmLevel := by
  cases req with
  | request req =>
    obtain ⟨r', hreq, rfl⟩ := Option.map_eq_some_iff.1 hr
    exact handle_gmLevel hreq
  | exitGame msg =>
    cases hr
    simp only [reqExitGame, settle]
    split <;> rfl
  | updateDailyGameProgress msg =>
    cases hr
    have hbegin : (beginDailyGame ranks h).gmLevel = h.gmLevel := by
      rw [beginDailyGame]
      split_ifs <;> rfl
    rw [reqUpdateDailyGameProgress]
    cases updateProgressError ranks (beginDailyGame ranks h) msg <;> exact hbegin
  | _ =>
    cases hr
    rfl

theorem dayRefresh_gmLevel : (dayRefresh cfg env h).gmLevel = h.gmLevel := by
  have htasks : (refreshTasks cfg env h).gmLevel = h.gmLevel := by
    simp only [refreshTasks]
    split_ifs <;> rfl
  rw [dayRefresh]
  dsimp only
  split_ifs <;> first | exact htasks | rfl

theorem tryToGetGamePrize_gmLevel (serverRankTime : ℕ) (h : DreamHero) :
    (tryToGetGamePrize cfg serverRankTime h).gmLevel = h.gmLevel := by
  simp only [tryToGetGamePrize]
  split_ifs <;> rfl

theorem runTimer_gmLevel (w : St) (e : Timer) : (runTimer cfg w h e).gmLevel = h.gmLevel := by
  cases e with
  | recoverSpirit => rfl
  | dayRefresh env => exact dayRefresh_gmLevel
  | dailyGamePrize gold =>
    rw [runTimer, dailyGamePrize]
    split_ifs <;> rfl
  | tryToGetGamePrize => exact tryToGetGamePrize_gmLevel _ h

/-- a loaded hero has the level of its row -/
theorem setInfo_gmLevel (spiritRecovery : ℕ → ℕ → ℤ × ℕ) (serverTime beginTime : ℕ) (info : MsgHeroDataDB2GS)
    (channel : ℤ) : (setInfo cfg spiritRecovery serverTime beginTime info channel).gmLevel = info.gmLevel := by
  have hrecover (h : DreamHero) : (recoverOffline cfg spiritRecovery serverTime h).gmLevel = h.gmLevel := by
    simp only [recoverOffline]
    split_ifs <;> rfl
  have hnew (h : DreamHero) : (newDailyGame beginTime h).gmLevel = h.gmLevel := by
    simp only [newDailyGame]
    split_ifs <;> rfl
  simp only [setInfo]
  rw [tryToGetGamePrize_gmLevel]
  dsimp only
  rw [hnew, hrecover]

theorem replaceTasks_gmLevel (taskCount : ℕ) : (replaceTasks cfg env h taskCount).gmLevel = h.gmLevel := by
  obtain ⟨tasks, htasks⟩ := replaceTasks_tasks cfg env h taskCount
  rw [htasks]

/-- a command that passed the test of the level does not raise it; `ResetGame` sets it to 1 -/
theorem runCommand_gmLevel (hlevel : 0 < h.gmLevel) (cmd : Command) :
    (runCommand cfg env h cmd).gmLevel ≤ h.gmLevel := by
  cases cmd with
  | resetGame name => exact hlevel
  | replaceTask taskCount => exact (replaceTasks_gmLevel _).le
  | _ => exact le_rfl

end

/-! ## Commands -/

/-- no statement, and no level above the one before -/
structure Lowered (s s' : Commands.St) : Prop where
  toDB : s'.toDB = s.toDB
  level : ∀ x, (s'.hero x).data.gmLevel ≤ (s.hero x).data.gmLevel

section

variable {env : Env} {s s' : Commands.St} {p : ℕ}

theorem Lowered.trans {u : Commands.St} (h1 : Lowered s u) (h2 : Lowered u s') : Lowered s s' :=
  ⟨h2.toDB.trans h1.toDB, fun x => (h2.level x).trans (h1.level x)⟩

theorem Lowered.refl (s : Commands.St) : Lowered s s := ⟨rfl, fun _ => le_rfl⟩

theorem lowered_send (s : Commands.St) (p : ℕ) (r : Commands.Reply) : Lowered s (Commands.sendPBMessage s p r) :=
  ⟨rfl, fun _ => le_rfl⟩

theorem lowered_heroSend (s : Commands.St) (h : ℕ) (r : Commands.Reply) : Lowered s (Commands.heroSend s h r) := by
  rw [Commands.heroSend]
  cases (s.hero h).session with
  | none => exact Lowered.refl s
  | some p => exact lowered_send s p r

theorem cmd_modHero_hero (s : Commands.St) (h : ℕ) (f : DreamHero → DreamHero) : (s.modHero h f).hero =
    Function.update s.hero h { s.hero h with data := f (s.hero h).data } := rfl

theorem lowered_modHero {h : ℕ} {f : DreamHero → DreamHero}
    (hf : (f (s.hero h).data).gmLevel ≤ (s.hero h).data.gmLevel) :
    Lowered s (s.modHero h f) := by
  refine ⟨rfl, ?_⟩
  intro x
  rw [cmd_modHero_hero]
  by_cases hx : x = h
  · rw [hx, Function.update_self]
    exact hf
  · rw [Function.update_of_ne hx]

theorem lowered_apply {h : ℕ} (hlevel : 0 < Commands.level s h) (cmd : Command) :
    Lowered s (Commands.apply cfg env s h cmd) := lowered_modHero (runCommand_gmLevel hlevel cmd)

theorem lowered_withHero {f : ℕ → Option Commands.St} (hf : ∀ h u, f h = some u → Lowered s u)
    (h : Commands.withHero s p f = some s') : Lowered s s' := by
  rw [Commands.withHero] at h
  cases hp : (s.sess p).dreamHero with
  | none =>
    rw [hp] at h
    cases h
    exact Lowered.refl s
  | some x =>
    rw [hp] at h
    exact hf x s' h

theorem lowered_derefHero {f : ℕ → Option Commands.St} (hf : ∀ h u, f h = some u → Lowered s u)
    (h : Commands.derefHero s p f = some s') : Lowered s s' := by
  rw [Commands.derefHero] at h
  cases hp : (s.sess p).dreamHero with
  | none =>
    rw [hp] at h
    cases h
  | some x =>
    rw [hp] at h
    exact hf x s' h

theorem lowered_answered {h : ℕ} {allowed : Bool} {effect : Option Commands.St}
    {ack : DreamHero → Commands.CmdError → Commands.Reply}
    (heffect : allowed = true → ∀ u, effect = some u → Lowered s u)
    (hr : Commands.answered s p h allowed effect ack = some s') : Lowered s s' := by
  rw [Commands.answered] at hr
  split_ifs at hr with hallowed
  · obtain ⟨u, hu, rfl⟩ := Option.map_eq_some_iff.1 hr
    exact (heffect hallowed u hu).trans (lowered_send _ _ _)
  · cases hr
    exact lowered_send _ _ _

theorem lowered_notified {allowed : Bool} {effect : Option Commands.St}
    (heffect : allowed = true → ∀ u, effect = some u → Lowered s u)
    (hr : Commands.notified s p allowed effect = some s') : Lowered s s' := by
  rw [Commands.notified] at hr
  split_ifs at hr with hallowed
  · exact heffect hallowed s' hr
  · cases hr
    exact lowered_send _ _ _

theorem lowered_adminEnterGame (h : ℕ) (chapterId sectionId : ℤ) :
    Lowered s (Commands.adminEnterGame cfg s h chapterId sectionId) := by
  have hsends (l : List Ack) (u : Commands.St) :
      Lowered u (l.foldl (fun s ack => Commands.heroSend s h (.enterGame ack)) u) := by
    induction l generalizing u with
    | nil => exact Lowered.refl u
    | cons ack l ih => exact (lowered_heroSend u h _).trans (ih _)
  have hreq : handle cfg {} (s.hero h).data (.enterGame chapterId sectionId true) =
      some (enterGame cfg (s.hero h).data chapterId sectionId true) := rfl
  have hmod : Lowered s (s.modHero h fun _ => (enterGame cfg (s.hero h).data chapterId sectionId true).1) :=
    lowered_modHero (handle_gmLevel hreq).le
  have hrecord (u : Commands.St) (l : List Record) : Lowered u { u with records := l } := ⟨rfl, fun _ => le_rfl⟩
  exact (hmod.trans (hrecord _ _)).trans (hsends _ _)

theorem lowered_resetGame {h : ℕ} (hlevel : 0 < Commands.level s h) : Lowered s (Commands.resetGame cfg env s h) := by
  have hnames (n : HeroNames) (l : List Record) : Lowered s { s with names := n, records := l } :=
    ⟨rfl, fun _ => le_rfl⟩
  rw [Commands.resetGame]
  rcases generateName 101 (s.names, s.records) with ⟨name, names, records⟩
  have hlevel' : 0 < Commands.level { s with names := names, records := records } h := hlevel
  exact ((hnames names records).trans (lowered_apply hlevel' _)).trans (lowered_heroSend _ _ _)

/-- the commands that test the level above 0 -/
theorem cmd_lowered {m : CmdMsg} (hm : ∀ name level, m ≠ .modifyGMLevel name level)
    (hr : Commands.parsePBMessage cfg env s p m = some s') : Lowered s s' := by
  have pos {h : ℕ} (hallowed : decide (Commands.level s h > 0) = true) : 0 < Commands.level s h :=
    of_decide_eq_true hallowed
  have applied {h : ℕ} (cmd : Command) (hallowed : decide (Commands.level s h > 0) = true) (u : Commands.St)
      (hu : some (Commands.apply cfg env s h cmd) = some u) : Lowered s u := by
    cases hu
    exact lowered_apply (pos hallowed) cmd
  have sent {h : ℕ} (cmd : Command) (r : Commands.Reply) (hallowed : decide (Commands.level s h > 0) = true) :
      Lowered s (Commands.heroSend (Commands.apply cfg env s h cmd) h r) :=
    (lowered_apply (pos hallowed) cmd).trans (lowered_heroSend _ _ _)
  cases m with
  | modifyGMLevel name level => exact absurd rfl (hm name level)
  | modifyJewel jewel => exact lowered_withHero (fun h u => lowered_answered (applied _)) hr
  | modifySpirit spirit => exact lowered_derefHero (fun h u => lowered_answered (applied _)) hr
  | resetDailyLottery => exact lowered_withHero (fun h u => lowered_answered (applied _)) hr
  | resetConcernWeiXin => exact lowered_withHero (fun h u => lowered_answered (applied _)) hr
  | clearDailyRankList =>
    refine lowered_derefHero (fun h u => lowered_answered ?_) hr
    intro _ u hu
    cases hu
    exact ⟨rfl, fun _ => le_rfl⟩
  | resetDailyGame =>
    refine lowered_derefHero (fun h u => lowered_answered ?_) hr
    intro hallowed u hu
    obtain ⟨ranks, -, rfl⟩ := Option.map_eq_some_iff.1 hu
    have happly : Lowered s (Commands.apply cfg env s h .resetDailyGame) := lowered_apply (pos hallowed) _
    exact ⟨happly.toDB, happly.level⟩
  | enterGame chapterId sectionId =>
    refine lowered_withHero (fun h u => lowered_notified ?_) hr
    intro _ u hu
    cases hu
    exact lowered_adminEnterGame h chapterId sectionId
  | resetGame =>
    refine lowered_withHero (fun h u => lowered_notified ?_) hr
    intro hallowed u hu
    cases hu
    exact lowered_resetGame (pos hallowed)
  | resetMap chapterId sectionId =>
    refine lowered_withHero (fun h u => lowered_notified ?_) hr
    intro hallowed u hu
    cases hu
    exact sent _ _ hallowed
  | modifyGold gold =>
    refine lowered_withHero (fun h u => lowered_notified ?_) hr
    intro hallowed u hu
    cases hu
    exact sent _ _ hallowed
  | replaceTask taskCount =>
    refine lowered_withHero (fun h u => lowered_notified ?_) hr
    intro hallowed u hu
    cases hu
    exact sent _ _ hallowed
  | modifyTaskCompleteCount count =>
    refine lowered_withHero (fun h u => lowered_notified ?_) hr
    intro hallowed u hu
    cases hu
    exact sent _ _ hallowed
  | removeSpecialCreatureListHis =>
    refine lowered_withHero (fun h u => lowered_notified ?_) hr
    intro hallowed u hu
    cases hu
    exact sent _ _ hallowed
  | setSpecialCreatureHis creatureId status =>
    refine lowered_withHero (fun h u => lowered_notified ?_) hr
    intro hallowed u hu
    cases hu
    exact sent _ _ hallowed

/-- `ReqModifyGMLevel` tests the level 3 -/
theorem modifyGMLevel_cases {name : String} {newLevel : ℤ}
    (hr : Commands.parsePBMessage cfg env s p (.modifyGMLevel name newLevel) = some s') :
    Lowered s s' ∧ (∀ h, (s.sess p).dreamHero = some h → (s.hero h).data.gmLevel < 3) ∨
      (∃ h, (s.sess p).dreamHero = some h ∧ 3 ≤ (s.hero h).data.gmLevel) ∧
      s'.hero = (Commands.setGMLevel s p (cStr name) newLevel).hero ∧
      s'.toDB = (Commands.setGMLevel s p (cStr name) newLevel).toDB := by
  rw [Commands.parsePBMessage, Commands.parseCmdReqMdodifyGMLevel, Commands.withHero] at hr
  cases hp : (s.sess p).dreamHero with
  | none =>
    rw [hp] at hr
    cases hr
    exact Or.inl ⟨Lowered.refl s, fun _ hh => absurd hh.symm (Option.some_ne_none _)⟩
  | some h =>
    rw [hp] at hr
    dsimp only at hr
    rw [Commands.answered] at hr
    split_ifs at hr with hallowed
    · cases hr
      have hlevel := of_decide_eq_true hallowed
      rw [Commands.level, not_lt] at hlevel
      exact Or.inr ⟨⟨h, rfl, hlevel⟩, rfl, rfl⟩
    · cases hr
      refine Or.inl ⟨lowered_send _ _ _, ?_⟩
      intro h' hh
      cases hh
      rw [decide_eq_true_eq, not_not] at hallowed
      exact hallowed

end

/-! ## Runs -/

def GoodStmt : Stmt → Prop
  | .replaceCharacter row => 0 < row.row.gmLevel → row.granted = true
  | .updateGMLevel _ _ byGM => byGM = true
  | .text _ => False
  | _ => True

def GoodReply : Reply → Prop
  | .heroData info granted => 0 < info.gmLevel → granted = true
  | .needCreateHero => True

def GoodTable (table : Table) : Prop := ∀ a r, table a = some r → 0 < r.row.gmLevel → r.granted = true

/-- every level above 0 has its origin -/
structure Granted (w : St) : Prop where
  heroes : ∀ x, 0 < (w.data x).gmLevel → w.granted x = true
  table : GoodTable w.character
  toDB : ∀ stmt ∈ w.toDB, GoodStmt stmt
  fromDB : ∀ e ∈ w.fromDB, GoodReply e.2

/-- the text that a message puts into a statement is plain -/
def PlainText (out : Outside) (w : St) (t : ℕ) : PBMsg → Prop
  | .verifyDeal orderId receipt => ∀ p h, w.link.onlines[t]? = some p → (w.link.sess p).dreamHero = some h →
    Plain receipt ∧ VerifyFits (w.data h).account (utf8 (w.data h).info.name) (utf8 (out.time w.now)) orderId receipt
  | .cmd (.modifyGMLevel name level) => Plain (utf8 (cStr name)) ∧ ModifyFits level (utf8 (cStr name))
  | _ => True

variable (cfg out) in
/-- a message has a defined result, and plain texts -/
def Orderly (w : St) : Op → Prop
  | .clientMsg env t m effect =>
    (∃ w', parseUserMsg cfg out env effect w t m = .ok w') ∧ PlainText out w t m
  | _ => True

/-- no hero is made from the configuration -/
def LoadsFromRow (w : St) : Op → Prop
  | .receive _ i => ∀ t p, w.fromDB[i]? = some (t, .needCreateHero) → w.link.onlines[t]? = some p →
    w.link.heroes[(w.link.sess p).account]? ≠ none
  | _ => True

/-- a `ReqModifyGMLevel` of a session whose hero has the level 3 -/
def Grants (w : St) : Op → Prop
  | .clientMsg _ t (.cmd (.modifyGMLevel _ _)) _ => ∃ p, w.link.onlines[t]? = some p ∧ w.isGM p = true
  | _ => False

variable (cfg out sameName) in
/-- after the step every level above 0 comes from a row or from a grant, and no level is raised but by a grant; the
object of the number `nextHero` is not made yet -/
structure OnlyGranted (w : St) (o : Op) : Prop where
  memory : ∀ a x : ℕ, (step cfg out sameName w o).link.heroes[a]? = some x →
    0 < ((step cfg out sameName w o).data x).gmLevel → (step cfg out sameName w o).granted x = true
  table : GoodTable (step cfg out sameName w o).character
  raised : ∀ x, x ≠ w.link.nextHero → (w.data x).gmLevel < ((step cfg out sameName w o).data x).gmLevel → Grants w o

/-- nothing is loaded, sent or executed, and no level is raised -/
structure Calm (w w' : St) : Prop where
  level : ∀ x, (w'.data x).gmLevel ≤ (w.data x).gmLevel
  granted : w'.granted = w.granted
  character : w'.character = w.character
  toDB : w'.toDB = w.toDB
  fromDB : w'.fromDB = w.fromDB

theorem Calm.refl (w : St) : Calm w w := ⟨fun _ => le_rfl, rfl, rfl, rfl, rfl⟩

theorem Calm.trans {w u w' : St} (h1 : Calm w u) (h2 : Calm u w') : Calm w w' :=
  ⟨fun x => (h2.level x).trans (h1.level x), h2.granted.trans h1.granted, h2.character.trans h1.character,
    h2.toDB.trans h1.toDB, h2.fromDB.trans h1.fromDB⟩

theorem Calm.good {w w' : St} (h : Calm w w') (hw : Granted w) : Granted w' := by
  refine ⟨?_, by rw [h.character]; exact hw.table, by rw [h.toDB]; exact hw.toDB, by rw [h.fromDB]; exact hw.fromDB⟩
  intro x hx
  rw [h.granted]
  exact hw.heroes x (hx.trans_le (h.level x))

theorem calm_modData (w : St) (x : ℕ) {f : DreamHero → DreamHero} (hf : (f (w.data x)).gmLevel ≤ (w.data x).gmLevel) :
    Calm w (w.modData x f) := by
  refine ⟨?_, rfl, rfl, rfl, rfl⟩
  intro y
  rw [modData_data]
  by_cases hy : y = x
  · rw [hy, Function.update_self]
    exact hf
  · rw [Function.update_of_ne hy]

theorem calm_link (w : St) (link : GameServer.St) : Calm w { w with link := link } :=
  ⟨fun _ => le_rfl, rfl, rfl, rfl, rfl⟩

variable (cfg) in
theorem calm_sendClientInit (env : Env) (w : St) (x : ℕ) : Calm w (sendClientInit cfg env w x) :=
  calm_modData w x dayRefresh_gmLevel.le

theorem initHero_gmLevel (env : Env) (w : St) (t x : ℕ) :
    ((initHero cfg env w t).data x).gmLevel = (w.data x).gmLevel := by
  rw [initHero]
  split
  · rename_i h _
    rw [sendClientInit, modData_data]
    by_cases hx : x = h
    · rw [hx, Function.update_self]
      exact dayRefresh_gmLevel
    · rw [Function.update_of_ne hx]
  · rfl

theorem initHero_link (env : Env) (w : St) (t : ℕ) : (initHero cfg env w t).link = w.link := by
  rw [initHero]
  split <;> rfl

theorem initHero_granted (env : Env) (w : St) (t : ℕ) : (initHero cfg env w t).granted = w.granted := by
  rw [initHero]
  split <;> rfl

variable (cfg) in
theorem calm_initHero (env : Env) (w : St) (t : ℕ) : Calm w (initHero cfg env w t) := by
  rw [initHero]
  split
  · exact calm_sendClientInit cfg env w _
  · exact Calm.refl w

variable (cfg) in
theorem calm_addUser (env : Env) (w : St) (g t a : ℕ) (channel : ℤ) : Calm w (addUser cfg env w g t a channel) := by
  rw [addUser]
  split
  · exact (calm_link w _).trans (calm_sendClientInit cfg env _ _)
  · exact calm_link w _

/-! ### Messages -/

theorem whenHero_cases {w w' : St} {p : ℕ} {f : ℕ → Outcome} (h : whenHero w p f = .ok w') :
    w' = w ∨ ∃ x, (w.link.sess p).dreamHero = some x ∧ f x = .ok w' := by
  rw [whenHero] at h
  cases hp : (w.link.sess p).dreamHero with
  | none =>
    rw [hp] at h
    cases h
    exact Or.inl rfl
  | some x =>
    rw [hp] at h
    exact Or.inr ⟨x, rfl, h⟩

theorem calm_request {env : Env} {w w' : St} {p : ℕ} {req : ClientRequest} (h : request cfg env w p req = .ok w') :
    Calm w w' := by
  rcases whenHero_cases h with rfl | ⟨x, -, hx⟩
  · exact Calm.refl _
  · split at hx
    · rename_i d ranks answers hr
      cases hx
      have hmod := calm_modData w x (f := fun _ => d) (handleClient_gmLevel hr).le
      exact ⟨hmod.level, rfl, rfl, rfl, rfl⟩
    · cases hx

theorem calm_crearteDeal {w w' : St} {p : ℕ} (h : parseReqCrearteDeal w p = .ok w') : Calm w w' := by
  rcases whenHero_cases h with rfl | ⟨x, -, hx⟩
  · exact Calm.refl _
  · cases hx
    exact calm_modData w x le_rfl

theorem granted_send {w : St} (h : Granted w) {stmts : List Stmt} (hstmts : ∀ stmt ∈ stmts, GoodStmt stmt) :
    Granted { w with toDB := w.toDB ++ stmts } :=
  ⟨h.heroes, h.table, fun stmt hmem => (List.mem_append.1 hmem).elim (h.toDB stmt) (hstmts stmt), h.fromDB⟩

theorem granted_verifyDeal {w w' : St} {t p : ℕ} (ht : w.link.onlines[t]? = some p) {orderId : ℤ} {receipt : Bytes}
    {effect : Table → Table} (hw : Granted w) (hplain : PlainText out w t (.verifyDeal orderId receipt))
    (h : parseReqVerifyDeal out w p orderId receipt effect = .ok w') :
    Granted w' ∧ ∀ x, (w'.data x).gmLevel ≤ (w.data x).gmLevel := by
  rcases whenHero_cases h with rfl | ⟨x, hp, hx⟩
  · exact ⟨hw, fun _ => le_rfl⟩
  · split at hx
    · cases hx
      refine ⟨granted_send hw ?_, fun _ => le_rfl⟩
      intro stmt hmem
      rw [List.mem_singleton.1 hmem, verifyStmt, if_pos (hplain p x ht hp)]
      trivial
    · cases hx
      exact ⟨hw, fun _ => le_rfl⟩

theorem isGM_iff (w : St) (p : ℕ) :
    w.isGM p = true ↔ ∃ h, (w.link.sess p).dreamHero = some h ∧ 3 ≤ (w.data h).gmLevel := by
  rw [St.isGM]
  cases (w.link.sess p).dreamHero with
  | none => simp
  | some h => simp

/-- a command that lowers levels at most -/
theorem granted_lowered {w : St} {p : ℕ} {c : CmdMsg} {s : Commands.St} (hw : Granted w)
    (hs : Lowered w.cmdState s) (hgrants : w.grants p c = w.granted) (effect : Table → Table) :
    Granted (w.afterCmd p c effect s) ∧ ∀ x, ((w.afterCmd p c effect s).data x).gmLevel ≤ (w.data x).gmLevel := by
  have hcalm : Calm w (w.afterCmd p c effect s) := by
    refine ⟨hs.level, hgrants, rfl, ?_, rfl⟩
    rw [St.afterCmd, hs.toDB]
    exact List.append_nil _
  exact ⟨hcalm.good hw, hcalm.level⟩

/-- the command of a game master gives a hero in memory its level, or sends a statement -/
theorem granted_setGMLevel {w : St} {p : ℕ} {name : String} {level : ℤ} {effect : Table → Table} {s : Commands.St}
    (hw : Granted w) (hgm : w.isGM p = true) (hplain : Plain (utf8 (cStr name)) ∧ ModifyFits level (utf8 (cStr name)))
    (hhero : s.hero = (Commands.setGMLevel w.cmdState p (cStr name) level).hero)
    (htoDB : s.toDB = (Commands.setGMLevel w.cmdState p (cStr name) level).toDB) :
    Granted (w.afterCmd p (.modifyGMLevel name level) effect s) := by
  rw [Commands.setGMLevel] at hhero htoDB
  cases hfound : getHeroByName w.cmdState (cStr name) with
  | some x =>
    rw [hfound] at hhero htoDB
    dsimp only at hhero htoDB
    refine ⟨?_, hw.table, ?_, hw.fromDB⟩
    · intro y hy
      have hgrants : (w.afterCmd p (.modifyGMLevel name level) effect s).granted =
          Function.update w.granted x (decide (0 < level)) := by
        simp [St.afterCmd, St.grants, hfound, hgm]
      have hdata : (w.afterCmd p (.modifyGMLevel name level) effect s).data y = (s.hero y).data := rfl
      rw [hdata, hhero, cmd_modHero_hero] at hy
      rw [hgrants]
      by_cases hyx : y = x
      · rw [hyx, Function.update_self] at hy ⊢
        exact decide_eq_true hy
      · simp only [Function.update_of_ne hyx] at hy ⊢
        exact hw.heroes y hy
    · have hnone : s.toDB = [] := by rw [htoDB]; rfl
      rw [St.afterCmd, hnone, List.map_nil, List.append_nil]
      exact hw.toDB
  | none =>
    rw [hfound] at hhero htoDB
    dsimp only at hhero htoDB
    have hone : s.toDB = [((w.cmdState.sess p).tranid, .updateGMLevel level (cStr name))] := by rw [htoDB]; rfl
    have hstmt : modifyStmt (w.isGM p) effect (.updateGMLevel level (cStr name)) =
        .updateGMLevel level (cStr name) true := by rw [modifyStmt, if_pos hplain, hgm]
    refine ⟨?_, hw.table, ?_, hw.fromDB⟩
    · intro y hy
      have hgrants : (w.afterCmd p (.modifyGMLevel name level) effect s).granted = w.granted := by
        simp [St.afterCmd, St.grants, hfound]
      have hdata : (w.afterCmd p (.modifyGMLevel name level) effect s).data y = w.data y := by
        simp [St.afterCmd, hhero, St.cmdState]
      rw [hdata] at hy
      rw [hgrants]
      exact hw.heroes y hy
    · rw [St.afterCmd, hone, List.map_singleton, hstmt]
      intro stmt hmem
      rcases List.mem_append.1 hmem with hmem | hmem
      · exact hw.toDB stmt hmem
      · rw [List.mem_singleton.1 hmem]
        rfl

theorem granted_cmd {env : Env} {w w' : St} {t p : ℕ} {c : CmdMsg} {effect : Table → Table} (hw : Granted w)
    (hplain : PlainText out w t (.cmd c)) (h : parseCmd cfg env w p c effect = .ok w') :
    Granted w' ∧ ((∀ x, (w'.data x).gmLevel ≤ (w.data x).gmLevel) ∨
      (∃ name level, c = .modifyGMLevel name level) ∧ w.isGM p = true) := by
  rw [parseCmd] at h
  cases hp : (w.link.sess p).dreamHero with
  | none =>
    rw [hp] at h
    dsimp only at h
    split_ifs at h
    cases h
    exact ⟨hw, Or.inl fun _ => le_rfl⟩
  | some x =>
    rw [hp] at h
    dsimp only at h
    cases hs : Commands.parsePBMessage cfg { env with serverTime := w.now } w.cmdState p c with
    | none =>
      rw [hs] at h
      cases h
    | some s =>
      rw [hs] at h
      cases h
      by_cases hc : ∃ name level, c = .modifyGMLevel name level
      · obtain ⟨name, level, rfl⟩ := hc
        rcases modifyGMLevel_cases hs with ⟨hlow, hrefused⟩ | ⟨⟨y, hy, hlevel⟩, hhero, htoDB⟩
        · have hgm : w.isGM p = false := by
            rw [Bool.eq_false_iff, Ne, isGM_iff]
            rintro ⟨y, hy, hlevel⟩
            exact absurd (hrefused y hy) (not_lt.2 hlevel)
          have hgrants : w.grants p (.modifyGMLevel name level) = w.granted := by
            rw [St.grants]
            split <;> simp [hgm]
          have hgood := granted_lowered hw hlow hgrants effect
          exact ⟨hgood.1, Or.inl hgood.2⟩
        · have hgm : w.isGM p = true := (isGM_iff w p).2 ⟨y, hy, hlevel⟩
          exact ⟨granted_setGMLevel hw hgm hplain hhero htoDB, Or.inr ⟨⟨name, level, rfl⟩, hgm⟩⟩
      · have hne : ∀ name level, c ≠ .modifyGMLevel name level := fun name level heq => hc ⟨name, level, heq⟩
        have hgrants : w.grants p c = w.granted := by
          cases c with
          | modifyGMLevel name level => exact absurd rfl (hne name level)
          | _ => rfl
        have hgood := granted_lowered hw (cmd_lowered hne hs) hgrants effect
        exact ⟨hgood.1, Or.inl hgood.2⟩

theorem granted_clientMsg {env : Env} {w : St} {t : ℕ} {m : PBMsg} {effect : Table → Table} (hw : Granted w)
    (ho : Orderly cfg out w (.clientMsg env t m effect)) :
    Granted (step cfg out sameName w (.clientMsg env t m effect)) ∧
      ((∀ x, ((step cfg out sameName w (.clientMsg env t m effect)).data x).gmLevel ≤ (w.data x).gmLevel) ∨
        Grants w (.clientMsg env t m effect)) := by
  obtain ⟨⟨w', hw'⟩, hplain⟩ := ho
  have hstep : step cfg out sameName w (.clientMsg env t m effect) = w' := by rw [step, hw']
  rw [hstep]
  rw [parseUserMsg] at hw'
  cases ht : w.link.onlines[t]? with
  | none =>
    rw [ht] at hw'
    cases hw'
    exact ⟨hw, Or.inl fun _ => le_rfl⟩
  | some p =>
    rw [ht] at hw'
    dsimp only at hw'
    have calm (h : Calm w w') : Granted w' ∧ ((∀ x, (w'.data x).gmLevel ≤ (w.data x).gmLevel) ∨
        Grants w (.clientMsg env t m effect)) := ⟨h.good hw, Or.inl h.level⟩
    rcases parsePBMessage_cases cfg out env effect w p m with hok | ⟨req, hreq⟩ | rfl |
      ⟨orderId, receipt, rfl⟩ | ⟨c, rfl⟩
    · cases hok.symm.trans hw'
      exact calm (Calm.refl w)
    · exact calm (calm_request (hreq.symm.trans hw'))
    · exact calm (calm_crearteDeal hw')
    · have hgood := granted_verifyDeal ht hw hplain hw'
      exact ⟨hgood.1, Or.inl hgood.2⟩
    · obtain ⟨hgood, hlevel⟩ := granted_cmd hw hplain hw'
      refine ⟨hgood, hlevel.imp id ?_⟩
      rintro ⟨⟨name, level, rfl⟩, hgm⟩
      exact ⟨p, ht, hgm⟩

/-! ### The database -/

/-- a hero object is made for the number `nextHero`, or the one in memory is kept -/
theorem granted_createHeroFrom {w : St} (hw : Granted w) (p : ℕ) {info : MsgHeroDataDB2GS} {granted : Bool}
    (hgood : GoodReply (.heroData info granted)) :
    Granted (createHeroFrom cfg out w p info granted) ∧
      ∀ x, x ≠ w.link.nextHero → ((createHeroFrom cfg out w p info granted).data x).gmLevel ≤ (w.data x).gmLevel := by
  rw [createHeroFrom]
  split
  · rename_i h _
    have hcalm := calm_modData w h (f := fun d => { d with account := (w.link.sess p).account }) le_rfl
    exact ⟨hcalm.good hw, fun x _ => hcalm.level x⟩
  · refine ⟨⟨?_, hw.table, hw.toDB, hw.fromDB⟩, ?_⟩
    · intro x hx
      dsimp only at hx ⊢
      by_cases hnew : x = w.link.nextHero
      · rw [hnew, Function.update_self] at hx ⊢
        dsimp only at hx
        rw [setInfo_gmLevel] at hx
        exact hgood hx
      · rw [Function.update_of_ne hnew] at hx ⊢
        exact hw.heroes x hx
    · intro x hnew
      dsimp only
      rw [Function.update_of_ne hnew]

theorem granted_createHero {w : St} (hw : Granted w) {p : ℕ} (hmem : w.link.heroes[(w.link.sess p).account]? ≠ none) :
    Granted (createHero cfg w p) ∧ ∀ x, ((createHero cfg w p).data x).gmLevel ≤ (w.data x).gmLevel := by
  obtain ⟨h, hh⟩ := Option.ne_none_iff_exists'.1 hmem
  have heq : createHero cfg w p = w.modData h fun d => { d with account := (w.link.sess p).account } := by
    rw [createHero, hh]
  rw [heq]
  have hcalm := calm_modData w h (f := fun d => { d with account := (w.link.sess p).account }) le_rfl
  exact ⟨hcalm.good hw, hcalm.level⟩

/-- the session that a reply reaches, and the hero object that is made for it -/
theorem granted_receive {env : Env} {w : St} (hw : Granted w) {t : ℕ} {r : Reply} (hgood : GoodReply r)
    (hmem : r = .needCreateHero → ∀ p, w.link.onlines[t]? = some p → w.link.heroes[(w.link.sess p).account]? ≠ none) :
    Granted (receive cfg out env w t r) ∧
      ∀ x, x ≠ w.link.nextHero → ((receive cfg out env w t r).data x).gmLevel ≤ (w.data x).gmLevel := by
  -- what follows the making of the object raises nothing
  have after {made : St} (link : GameServer.St) (h : Granted made ∧
      ∀ x, x ≠ w.link.nextHero → (made.data x).gmLevel ≤ (w.data x).gmLevel) :
      Granted (initHero cfg env { made with link := link } t) ∧ ∀ x, x ≠ w.link.nextHero →
        ((initHero cfg env { made with link := link } t).data x).gmLevel ≤ (w.data x).gmLevel := by
    have hcalm := (calm_link made link).trans (calm_initHero cfg env { made with link := link } t)
    exact ⟨hcalm.good h.1, fun x hx => (hcalm.level x).trans (h.2 x hx)⟩
  have hkeep : Granted w ∧ ∀ x, x ≠ w.link.nextHero → (w.data x).gmLevel ≤ (w.data x).gmLevel :=
    ⟨hw, fun _ _ => le_rfl⟩
  cases r with
  | heroData info granted =>
    rw [receive]
    refine after _ ?_
    split
    · exact granted_createHeroFrom hw _ hgood
    · exact hkeep
  | needCreateHero =>
    rw [receive]
    refine after _ ?_
    split
    · rename_i p hp
      have hmade : Granted (createHero cfg w p) ∧ ∀ x, ((createHero cfg w p).data x).gmLevel ≤ (w.data x).gmLevel :=
        granted_createHero hw (hmem rfl p hp)
      exact ⟨hmade.1, fun x _ => hmade.2 x⟩
    · exact hkeep

theorem good_execute {table : Table} (h : GoodTable table) {stmt : Stmt} (hstmt : GoodStmt stmt) :
    GoodTable (execute sameName table stmt) := by
  intro a r hr hlevel
  cases stmt with
  | replaceCharacter row =>
    rw [execute] at hr
    by_cases ha : a = row.row.accountId
    · rw [ha, Function.update_self] at hr
      cases hr
      exact hstmt hlevel
    · rw [Function.update_of_ne ha] at hr
      exact h a r hr hlevel
  | updateGMLevel level name byGM =>
    rw [execute] at hr
    obtain ⟨r', hr', rfl⟩ := Option.map_eq_some_iff.1 hr
    split_ifs at hlevel ⊢
    · have hby : byGM = true := hstmt
      simpa [hby] using hlevel
    · exact h a r' hr' hlevel
  | offlinePrize account gold time =>
    rw [execute] at hr
    by_cases ha : a = account
    · rw [ha, Function.update_self] at hr
      obtain ⟨r', hr', rfl⟩ := Option.map_eq_some_iff.1 hr
      exact h account r' hr' hlevel
    · rw [Function.update_of_ne ha] at hr
      exact h a r hr hlevel
  | verify orderId receipt => exact h a r hr hlevel
  | text f => exact hstmt.elim

theorem good_answer {table : Table} (h : GoodTable table) (a : ℕ) (failed : Bool) :
    GoodReply (answer out table a failed) := by
  rw [answer]
  split
  · rename_i r hr
    split_ifs
    · trivial
    · exact h a r hr
  · trivial

/-! ### All steps -/

/-- **What each step keeps.** -/
theorem granted_step {w : St} {o : Op} (hw : Granted w) (ho : Orderly cfg out w o) (hload : LoadsFromRow w o) :
    Granted (step cfg out sameName w o) ∧ ∀ x, x ≠ w.link.nextHero →
      (w.data x).gmLevel < ((step cfg out sameName w o).data x).gmLevel → Grants w o := by
  have lower {w' : St} (h : Granted w' ∧ ∀ x, x ≠ w.link.nextHero → (w'.data x).gmLevel ≤ (w.data x).gmLevel) :
      Granted w' ∧ ∀ x, x ≠ w.link.nextHero → (w.data x).gmLevel < (w'.data x).gmLevel → Grants w o :=
    ⟨h.1, fun x hx hlt => absurd hlt (not_lt.2 (h.2 x hx))⟩
  have calm {w' : St} (h : Calm w w') :
      Granted w' ∧ ∀ x, x ≠ w.link.nextHero → (w.data x).gmLevel < (w'.data x).gmLevel → Grants w o :=
    lower ⟨h.good hw, fun x _ => h.level x⟩
  cases o with
  | addUser env g t a channel => exact calm (calm_addUser cfg env w g t a channel)
  | removeUser t => exact calm (calm_link w _)
  | offlineUser t => exact calm (calm_link w _)
  | removeUserByGate g => exact calm (calm_link w _)
  | fireDestroy h => exact calm (calm_link w _)
  | clientMsg env t m effect =>
    have hmsg : Granted (step cfg out sameName w (.clientMsg env t m effect)) ∧ _ := granted_clientMsg hw ho
    exact ⟨hmsg.1, fun x _ hlt => hmsg.2.resolve_left fun hle => absurd hlt (not_lt.2 (hle x))⟩
  | timer h e => exact calm (calm_modData w h (f := fun d => runTimer cfg w d e) (runTimer_gmLevel w e).le)
  | deals h gold jewel dealsWaitToPay =>
    refine calm ?_
    rw [step]
    exact calm_modData w h le_rfl
  | rankList ranks => exact calm ⟨fun _ => le_rfl, rfl, rfl, rfl, rfl⟩
  | pass d => exact calm ⟨fun _ => le_rfl, rfl, rfl, rfl, rfl⟩
  | saveHero a =>
    rw [step]
    split
    · rename_i h _
      refine lower ⟨granted_send hw ?_, fun _ _ => le_rfl⟩
      intro stmt hmem
      rw [List.mem_singleton.1 hmem]
      exact hw.heroes h
    · exact lower ⟨hw, fun _ _ => le_rfl⟩
  | offlinePrize account gold time =>
    refine lower ⟨granted_send hw ?_, fun _ _ => le_rfl⟩
    intro stmt hmem
    rw [List.mem_singleton.1 hmem]
    trivial
  | query i failed =>
    rw [step]
    split
    · refine lower ⟨⟨hw.heroes, hw.table, hw.toDB, ?_⟩, fun _ _ => le_rfl⟩
      intro e hmem
      rcases List.mem_append.1 hmem with hmem | hmem
      · exact hw.fromDB e hmem
      · rw [List.mem_singleton.1 hmem]
        exact good_answer hw.table _ failed
    · exact lower ⟨hw, fun _ _ => le_rfl⟩
  | execute =>
    rw [step]
    split
    · rename_i stmt rest hstmts
      have hall := hw.toDB
      rw [hstmts] at hall
      refine lower ⟨⟨hw.heroes, good_execute hw.table (hall stmt List.mem_cons_self), ?_, hw.fromDB⟩, fun _ _ => le_rfl⟩
      exact fun stmt' hmem => hall stmt' (List.mem_cons_of_mem stmt hmem)
    · exact lower ⟨hw, fun _ _ => le_rfl⟩
  | receive env i =>
    rw [step]
    split
    · rename_i t r hget
      have hgood : GoodReply r := hw.fromDB (t, r) (List.mem_of_getElem? hget)
      have hmem : r = .needCreateHero → ∀ p, w.link.onlines[t]? = some p →
          w.link.heroes[(w.link.sess p).account]? ≠ none := by
        rintro rfl p hp
        exact hload t p hget hp
      obtain ⟨hrecv, hlevel⟩ : Granted (receive cfg out env w t r) ∧ _ := granted_receive hw hgood hmem
      refine lower ⟨⟨hrecv.heroes, hrecv.table, hrecv.toDB, ?_⟩, hlevel⟩
      exact fun e he => hw.fromDB e (List.mem_of_mem_eraseIdx he)
    · exact lower ⟨hw, fun _ _ => le_rfl⟩

theorem needCreateHero_heroes {s : GameServer.St} {t p : ℕ} (ht : s.onlines[t]? = some p)
    (hnone : s.heroes[(s.sess p).account]? = none) :
    (GameServer.step s (.needCreateHero t)).heroes[(s.sess p).account]? = some s.nextHero := by
  simp only [GameServer.step, GameServer.parseNeedCreateHero, ht, GameServer.sendClientInit_heroes,
    GameServer.createHero, hnone, GameServer.St.modSess, GameServer.stopDestroyClock, GameServer.St.modHero]
  rw [get_insertIfNew, if_pos ⟨rfl, hnone⟩]

/-- a hero that is made from the configuration is a game master -/
theorem loads_of_onlyGranted {w : St} {o : Op} (h : OnlyGranted cfg out sameName w o) : LoadsFromRow w o := by
  cases o with
  | receive env i =>
    intro t p hget ht hnone
    have hstep : step cfg out sameName w (.receive env i) =
        { receive cfg out env w t .needCreateHero with fromDB := w.fromDB.eraseIdx i } := by rw [step, hget]
    have hmemory := h.memory (w.link.sess p).account w.link.nextHero
    rw [hstep] at hmemory
    simp only [receive, ht, createHero, hnone, initHero_link, initHero_gmLevel, initHero_granted,
      needCreateHero_heroes ht hnone, Function.update_self] at hmemory
    exact absurd (hmemory trivial Int.one_pos) Bool.false_ne_true
  | _ => trivial

theorem granted_start (rows : ℕ → Option CharacterRow) (ranks : RankManager) : Granted (start rows ranks) := by
  refine ⟨fun x hx => absurd hx (lt_irrefl 0), ?_, fun stmt hmem => absurd hmem List.not_mem_nil,
    fun e hmem => absurd hmem List.not_mem_nil⟩
  intro a r hr hlevel
  obtain ⟨row, -, rfl⟩ := Option.map_eq_some_iff.1 hr
  exact decide_eq_true hlevel

/-- **Levels are only granted** on a run of well-formed messages exactly when no hero is made from the configuration. -/
theorem only_granted_iff (rows : ℕ → Option CharacterRow) (ranks : RankManager) (ops : List Op)
    (hops : Along (step cfg out sameName) (Orderly cfg out) (start rows ranks) ops) :
    Along (step cfg out sameName) LoadsFromRow (start rows ranks) ops ↔
      Along (step cfg out sameName) (OnlyGranted cfg out sameName) (start rows ranks) ops := by
  refine along_iff_steps (I := Granted) (fun w o hw ho hload => (granted_step hw ho hload).1) ?_
    (granted_start rows ranks) hops
  intro w o hw ho
  refine ⟨fun hload => ?_, loads_of_onlyGranted⟩
  have hstep : Granted (step cfg out sameName w o) ∧ _ := granted_step hw ho hload
  exact ⟨fun _ x _ hlevel => hstep.1.heroes x hlevel, hstep.1.table, hstep.2⟩

/-- a game master logs in -/
theorem only_granted_login :
    Along (step {} plainOutside fun a b => a == b) (OnlyGranted {} plainOutside fun a b => a == b)
      (start (fun _ => some (characterRow plainOutside.time { account := 5, gmLevel := 3 }))
        { dailyMaxRankSize := 100, minDailyScore := 0 })
      [.addUser {} 1 100 5 0, .clientMsg {} 100 .goldShopConfigs id, .query 0 false, .receive {} 0] := by
  refine (only_granted_iff _ _ _ ?_).1 ?_
  · exact ⟨trivial, ⟨⟨_, rfl⟩, trivial⟩, trivial, trivial, trivial⟩
  · refine ⟨trivial, trivial, trivial, ?_, trivial⟩
    intro t p hget
    exact nomatch hget

/-- an account without a row logs in: its hero has the level 1, and nothing granted it -/
theorem default_gm : ∃ w x, w = run (step {} plainOutside fun a b => a == b)
      (start (fun _ => none) { dailyMaxRankSize := 100, minDailyScore := 0 })
      [.addUser {} 1 100 5 0, .query 0 false, .receive {} 0] ∧
    w.link.heroes[5]? = some x ∧ (w.data x).gmLevel = 1 ∧ w.granted x = false := by
  exact ⟨_, 1, rfl, by decide +kernel, by decide +kernel, by decide +kernel⟩

end DreamHeroes.World

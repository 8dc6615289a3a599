/-
What one player can do to another. The store of an account is its hero in memory and the row it will have once every
statement that has been sent is executed.

- `Owns`: sessions, heroes, rows, and what is on its way to and from the table are under their own accounts.
- `Concerns`: the events that may touch the store of an account: a login, a message or an answer under an id of the
  account, the timers and the save of its hero, its prize, and `ReqModifyGMLevel` of a game master with
  the name of its hero (`Named`).
- `isolation`: along a run whose ids stand for one account each, and whose texts are plain, every other event leaves the
  store alone, and a session plays the hero of its own account.
- `id_of_two_accounts`: an id that is given to another account while a question is under way.
-/
import Mathlib.Tactic
import DreamHeroes.GameServer.GMLevel
import DreamHeroes.GameServer.Owners

namespace DreamHeroes.World

open DreamHeroes.Lib DreamHeroes.Config DreamHeroes.Rank DreamHeroes.Hero DreamHeroes.Hero.Requests DreamHeroes.SqlText
open DreamHeroes.Commands (CmdMsg HeroNames Record generateName getHeroByName)

variable {cfg : GameConfig} {out : Outside} {sameName : String → String → Bool}

/-! ## The account of a hero -/

section

variable {env : Env} {h : DreamHero}

theorem handle_account {req : Request} {r : DreamHero × List Ack} (hr : handle cfg env h req = some r) :
    r.1.account = h.account := by
  have of_written {s : Steady} (hw : Written h req s) : s.account = h.account := by
    cases hw <;> rfl
  exact of_written (handle_handled hr).written

/-- **No request changes the account.** -/
theorem handleClient_account {ranks : RankManager} {req : ClientRequest}
    {r : DreamHero × RankManager × List Answer} (hr : handleClient cfg env ranks h req = some r) :
    r.1.account = h.account := by
  cases req with
  | request req =>
    obtain ⟨r', hreq, rfl⟩ := Option.map_eq_some_iff.1 hr
    exact handle_account hreq
  | exitGame msg =>
    cases hr
    simp only [reqExitGame, settle]
    split <;> rfl
  | updateDailyGameProgress msg =>
    cases hr
    have hbegin : (beginDailyGame ranks h).account = h.account := by
      rw [beginDailyGame]
      split_ifs <;> rfl
    rw [reqUpdateDailyGameProgress]
    cases updateProgressError ranks (beginDailyGame ranks h) msg <;> exact hbegin
  | _ =>
    cases hr
    rfl

theorem dayRefresh_account : (dayRefresh cfg env h).account = h.account := by
  have htasks : (refreshTasks cfg env h).account = h.account := by
    simp only [refreshTasks]
    split_ifs <;> rfl
  rw [dayRefresh]
  dsimp only
  split_ifs <;> first | exact htasks | rfl

theorem runTimer_account (w : St) (e : Timer) : (runTimer cfg w h e).account = h.account := by
  cases e with
  | recoverSpirit => rfl
  | dayRefresh env => exact dayRefresh_account
  | dailyGamePrize gold =>
    rw [runTimer, dailyGamePrize]
    split_ifs <;> rfl
  | tryToGetGamePrize =>
    simp only [runTimer, tryToGetGamePrize]
    split_ifs <;> rfl

theorem runCommand_account (cmd : Command) : (runCommand cfg env h cmd).account = h.account := by
  cases cmd with
  | replaceTask taskCount =>
    obtain ⟨tasks, htasks⟩ := replaceTasks_tasks cfg env h (toSizeT (min taskCount cfg.globalConfig.heroMaxTasksCount))
    rw [runCommand, reqReplaceTask, htasks]
  | _ => rfl

end

/-! ## Commands -/

/-- no statement, and no hero but `h`, which keeps its account -/
structure Within (h : ℕ) (s s' : Commands.St) : Prop where
  toDB : s'.toDB = s.toDB
  others : ∀ x, x ≠ h → (s'.hero x).data = (s.hero x).data
  account : (s'.hero h).data.account = (s.hero h).data.account

section

variable {env : Env} {s s' u : Commands.St} {p h : ℕ}

theorem Within.refl (h : ℕ) (s : Commands.St) : Within h s s := ⟨rfl, fun _ _ => rfl, rfl⟩

theorem Within.account_eq (h1 : Within h s s') (x : ℕ) : (s'.hero x).data.account = (s.hero x).data.account := by
  by_cases hx : x = h
  · exact hx ▸ h1.account
  · exact congrArg _ (h1.others x hx)

theorem Within.trans (h1 : Within h s u) (h2 : Within h u s') : Within h s s' :=
  ⟨h2.toDB.trans h1.toDB, fun x hx => (h2.others x hx).trans (h1.others x hx), h2.account.trans h1.account⟩

theorem within_send (h : ℕ) (s : Commands.St) (p : ℕ) (r : Commands.Reply) :
    Within h s (Commands.sendPBMessage s p r) :=
  ⟨rfl, fun _ _ => rfl, rfl⟩

theorem within_heroSend (h : ℕ) (s : Commands.St) (x : ℕ) (r : Commands.Reply) :
    Within h s (Commands.heroSend s x r) := by
  rw [Commands.heroSend]
  cases (s.hero x).session with
  | none => exact .refl h s
  | some p => exact within_send h s p r

theorem within_modHero {f : DreamHero → DreamHero} (hf : (f (s.hero h).data).account = (s.hero h).data.account) :
    Within h s (s.modHero h f) := by
  refine ⟨rfl, fun x hx => ?_, ?_⟩
  · rw [cmd_modHero_hero, Function.update_of_ne hx]
  · rw [cmd_modHero_hero, Function.update_self]
    exact hf

theorem within_apply (s : Commands.St) (h : ℕ) (cmd : Command) : Within h s (Commands.apply cfg env s h cmd) :=
  within_modHero (runCommand_account cmd)

theorem within_applied (cmd : Command) (hu : some (Commands.apply cfg env s h cmd) = some u) : Within h s u :=
  Option.some.inj hu ▸ within_apply s h cmd

theorem within_sent (cmd : Command) (r : Commands.Reply)
    (hu : some (Commands.heroSend (Commands.apply cfg env s h cmd) h r) = some u) : Within h s u :=
  Option.some.inj hu ▸ (within_apply s h cmd).trans (within_heroSend h _ h r)

theorem within_answered {allowed : Bool} {effect : Option Commands.St}
    {ack : DreamHero → Commands.CmdError → Commands.Reply}
    (heffect : ∀ u, effect = some u → Within h s u) (hr : Commands.answered s p h allowed effect ack = some s') :
    Within h s s' := by
  rw [Commands.answered] at hr
  split_ifs at hr
  · obtain ⟨u, hu, rfl⟩ := Option.map_eq_some_iff.1 hr
    exact (heffect u hu).trans (within_send h _ _ _)
  · cases hr
    exact within_send h _ _ _

theorem within_notified {allowed : Bool} {effect : Option Commands.St}
    (heffect : ∀ u, effect = some u → Within h s u) (hr : Commands.notified s p allowed effect = some s') :
    Within h s s' := by
  rw [Commands.notified] at hr
  split_ifs at hr
  · exact heffect s' hr
  · cases hr
    exact within_send h _ _ _

theorem within_adminEnterGame (s : Commands.St) (h : ℕ) (chapterId sectionId : ℤ) :
    Within h s (Commands.adminEnterGame cfg s h chapterId sectionId) := by
  have hsends (l : List Ack) (u : Commands.St) :
      Within h u (l.foldl (fun s ack => Commands.heroSend s h (.enterGame ack)) u) := by
    induction l generalizing u with
    | nil => exact .refl h u
    | cons ack l ih => exact (within_heroSend h u h _).trans (ih _)
  have hreq : handle cfg {} (s.hero h).data (.enterGame chapterId sectionId true) =
      some (enterGame cfg (s.hero h).data chapterId sectionId true) := rfl
  have hmod : Within h s (s.modHero h fun _ => (enterGame cfg (s.hero h).data chapterId sectionId true).1) :=
    within_modHero (handle_account hreq)
  have hrecord (u : Commands.St) (l : List Record) : Within h u { u with records := l } := ⟨rfl, fun _ _ => rfl, rfl⟩
  exact (hmod.trans (hrecord _ _)).trans (hsends _ _)

theorem within_resetGame (s : Commands.St) (h : ℕ) : Within h s (Commands.resetGame cfg env s h) := by
  have hnames (n : HeroNames) (l : List Record) : Within h s { s with names := n, records := l } :=
    ⟨rfl, fun _ _ => rfl, rfl⟩
  rw [Commands.resetGame]
  rcases generateName 101 (s.names, s.records) with ⟨name, names, records⟩
  exact ((hnames names records).trans (within_apply _ h _)).trans (within_heroSend h _ h _)

/-- **A command is about the hero of its session**, unless it names one. -/
theorem cmd_within {m : CmdMsg} (hm : ∀ name level, m ≠ .modifyGMLevel name level) (hp : (s.sess p).dreamHero = some h)
    (hr : Commands.parsePBMessage cfg env s p m = some s') : Within h s s' := by
  have hwith {f : ℕ → Option Commands.St} (hf : Commands.withHero s p f = some s') : f h = some s' :=
    (Commands.withHero_some hp f) ▸ hf
  have hderef {f : ℕ → Option Commands.St} (hf : Commands.derefHero s p f = some s') : f h = some s' :=
    (Commands.derefHero_some hp f) ▸ hf
  cases m with
  | modifyGMLevel name level => exact absurd rfl (hm name level)
  | modifyJewel jewel => exact within_answered (fun u => within_applied _) (hwith hr)
  | modifySpirit spirit => exact within_answered (fun u => within_applied _) (hderef hr)
  | resetDailyLottery => exact within_answered (fun u => within_applied _) (hwith hr)
  | resetConcernWeiXin => exact within_answered (fun u => within_applied _) (hwith hr)
  | clearDailyRankList =>
    refine within_answered (fun u hu => ?_) (hderef hr)
    cases hu
    exact ⟨rfl, fun _ _ => rfl, rfl⟩
  | resetDailyGame =>
    refine within_answered (fun u hu => ?_) (hderef hr)
    obtain ⟨ranks, -, rfl⟩ := Option.map_eq_some_iff.1 hu
    have happly : Within h s (Commands.apply cfg env s h .resetDailyGame) := within_apply s h _
    exact ⟨happly.toDB, happly.others, happly.account⟩
  | enterGame chapterId sectionId =>
    exact within_notified (fun u hu => Option.some.inj hu ▸ within_adminEnterGame s h chapterId sectionId) (hwith hr)
  | resetGame => exact within_notified (fun u hu => Option.some.inj hu ▸ within_resetGame s h) (hwith hr)
  | resetMap chapterId sectionId => exact within_notified (fun u => within_sent _ _) (hwith hr)
  | modifyGold gold => exact within_notified (fun u => within_sent _ _) (hwith hr)
  | replaceTask taskCount => exact within_notified (fun u => within_sent _ _) (hwith hr)
  | modifyTaskCompleteCount count => exact within_notified (fun u => within_sent _ _) (hwith hr)
  | removeSpecialCreatureListHis => exact within_notified (fun u => within_sent _ _) (hwith hr)
  | setSpecialCreatureHis creatureId status => exact within_notified (fun u => within_sent _ _) (hwith hr)

theorem getHeroByName_name {name : String} {y : ℕ} (h : getHeroByName s name = some y) :
    cStr (s.hero y).data.info.name = name := by
  have hfound := List.find?_some h
  simpa using hfound

theorem setGMLevel_cases (s : Commands.St) (p : ℕ) (name : String) (level : ℤ) :
    (∃ y, getHeroByName s name = some y ∧ Within y s (Commands.setGMLevel s p name level)) ∨
      (Commands.setGMLevel s p name level).hero = s.hero ∧
        ∃ t, (Commands.setGMLevel s p name level).toDB = s.toDB ++ [(t, .updateGMLevel level name)] := by
  rw [Commands.setGMLevel]
  cases hfound : getHeroByName s name with
  | some y => exact Or.inl ⟨y, rfl, within_modHero rfl⟩
  | none => exact Or.inr ⟨rfl, _, rfl⟩

/-- the command that names a hero does nothing, or the session has the level, and it is about a hero in memory with the
name, or sends a statement -/
theorem modifyGMLevel_effect {name : String} {level : ℤ}
    (hr : Commands.parsePBMessage cfg env s p (.modifyGMLevel name level) = some s') :
    (s'.hero = s.hero ∧ s'.toDB = s.toDB) ∨ (∃ h, (s.sess p).dreamHero = some h ∧ 3 ≤ (s.hero h).data.gmLevel) ∧
      ((∃ y, getHeroByName s (cStr name) = some y ∧ Within y s s') ∨
        s'.hero = s.hero ∧ ∃ t, s'.toDB = s.toDB ++ [(t, .updateGMLevel level (cStr name))]) := by
  rw [Commands.parsePBMessage, Commands.parseCmdReqMdodifyGMLevel, Commands.withHero] at hr
  cases hp : (s.sess p).dreamHero with
  | none =>
    rw [hp] at hr
    cases hr
    exact Or.inl ⟨rfl, rfl⟩
  | some h =>
    rw [hp] at hr
    dsimp only at hr
    rw [Commands.answered] at hr
    split_ifs at hr with hallowed
    · cases hr
      have hlevel := of_decide_eq_true hallowed
      rw [Commands.level, not_lt] at hlevel
      refine Or.inr ⟨⟨h, rfl, hlevel⟩, ?_⟩
      rcases setGMLevel_cases s p (cStr name) level with ⟨y, hy, hwithin⟩ | hsent
      · exact Or.inl ⟨y, hy, hwithin.trans (within_send y _ p _)⟩
      · exact Or.inr hsent
    · cases hr
      exact Or.inl ⟨rfl, rfl⟩

end

/-! ## Stores -/

def Keyed : Stmt → Prop
  | .text _ => False
  | _ => True

/-- the statement may change the row of the account -/
def Touches (a : ℕ) : Stmt → Prop
  | .replaceCharacter row => row.row.accountId = a
  | .offlinePrize account _ _ => account = a
  | .verify _ _ => False
  | _ => True

/-- the hero of the account in memory -/
def memory (w : St) (a : ℕ) : Option DreamHero := (w.link.heroes[a]?).map w.data

variable (sameName) in
/-- the row of the account once all that is sent is executed -/
def settled (w : St) (a : ℕ) : Option Row := w.toDB.foldl (execute sameName) w.character a

variable (sameName) in
structure SameStore (a : ℕ) (w w' : St) : Prop where
  memory : memory w' a = memory w a
  settled : settled sameName w' a = settled sameName w a

variable (owner : ℕ → ℕ)

structure Owns (w : St) : Prop where
  link : GameServer.Owned owner w.link
  data : ∀ h, h < w.link.nextHero → (w.data h).account = (w.link.hero h).account
  table : ∀ a r, w.character a = some r → r.row.accountId = a
  toDB : ∀ stmt ∈ w.toDB, Keyed stmt
  fromDB : ∀ t info granted, (t, .heroData info granted) ∈ w.fromDB → info.account = owner t

variable (out) in
/-- an id is added for its account, and a text that a message puts into a statement is plain -/
def Proper (w : St) : Op → Prop
  | .addUser _ _ t a _ => a = owner t
  | .clientMsg _ t m _ => PlainText out w t m
  | _ => True

variable (sameName) in
/-- the hero of the account has the name, in memory or in the row it will have -/
def Named (w : St) (a : ℕ) (name : String) : Prop :=
  (∃ h, w.link.heroes[a]? = some h ∧ cStr (w.data h).info.name = name) ∨
    ∃ r, settled sameName w a = some r ∧ sameName name r.row.name

variable (sameName) in
/-- the event may touch the store of the account -/
def Concerns (w : St) (a : ℕ) : Op → Prop
  | .addUser _ _ _ a' _ => a' = a
  | .fireDestroy h => w.link.heroes[a]? = some h
  | .clientMsg _ t m _ => owner t = a ∨ ∃ name level, m = .cmd (.modifyGMLevel name level) ∧
    Named sameName w a (cStr name) ∧ ∃ p, w.link.onlines[t]? = some p ∧ w.isGM p
  | .timer h _ => w.link.heroes[a]? = some h
  | .deals h _ _ _ => w.link.heroes[a]? = some h
  | .saveHero a' => a' = a
  | .offlinePrize account _ _ => account = a
  | .receive _ i => ∃ t r, w.fromDB[i]? = some (t, r) ∧ owner t = a
  | _ => False

variable {owner} {w w' w'' : St} {a : ℕ}

theorem SameStore.refl (a : ℕ) (w : St) : SameStore sameName a w w := ⟨rfl, rfl⟩

theorem SameStore.trans (h : SameStore sameName a w w') (h' : SameStore sameName a w' w'') :
    SameStore sameName a w w'' :=
  ⟨h'.memory.trans h.memory, h'.settled.trans h.settled⟩

theorem execute_other (table : Table) {stmt : Stmt} (h : ¬Touches a stmt) :
    execute sameName table stmt a = table a := by
  cases stmt with
  | replaceCharacter row => exact Function.update_of_ne (Ne.symm h) _ _
  | updateGMLevel level name byGM => exact absurd trivial h
  | offlinePrize account gold time => exact Function.update_of_ne (Ne.symm h) _ _
  | verify orderId receipt => rfl
  | text f => exact absurd trivial h

/-- what is sent about others -/
theorem same_send (w : St) {stmt : Stmt} (h : ¬Touches a stmt) :
    SameStore sameName a w { w with toDB := w.toDB ++ [stmt] } := by
  refine ⟨rfl, ?_⟩
  simp only [settled, List.foldl_append, List.foldl_cons, List.foldl_nil]
  exact execute_other _ h

theorem owns_send (hw : Owns owner w) {stmt : Stmt} (h : Keyed stmt) :
    Owns owner { w with toDB := w.toDB ++ [stmt] } := by
  refine ⟨hw.link, hw.data, hw.table, fun stmt' hm => ?_, hw.fromDB⟩
  rcases List.mem_append.1 hm with hm | hm
  · exact hw.toDB stmt' hm
  · rwa [List.mem_singleton.1 hm]

/-- the row of an account keeps its key -/
theorem keyed_execute {table : Table} (htable : ∀ a r, table a = some r → r.row.accountId = a) {stmt : Stmt}
    (h : Keyed stmt) (a : ℕ) (r : Row) (hr : execute sameName table stmt a = some r) : r.row.accountId = a := by
  cases stmt with
  | replaceCharacter row =>
    rw [execute, Function.update_apply] at hr
    split_ifs at hr with ha
    · rw [← Option.some.inj hr, ha]
    · exact htable a r hr
  | updateGMLevel level name byGM =>
    obtain ⟨r', hr', rfl⟩ := Option.map_eq_some_iff.1 hr
    split_ifs <;> exact htable a r' hr'
  | offlinePrize account gold time =>
    rw [execute, Function.update_apply] at hr
    split_ifs at hr with ha
    · obtain ⟨r', hr', rfl⟩ := Option.map_eq_some_iff.1 hr
      rw [ha]
      exact htable account r' hr'
    · exact htable a r hr
  | verify orderId receipt => exact htable a r hr
  | text f => exact absurd h not_false

/-! ### Heroes -/

theorem same_modData {h : ℕ} (hne : w.link.heroes[a]? ≠ some h) (f : DreamHero → DreamHero) :
    SameStore sameName a w (w.modData h f) := by
  refine ⟨?_, rfl⟩
  rw [memory, memory, modData_data]
  refine Option.map_congr fun x hx => Function.update_of_ne (fun heq => hne ?_) _ _
  rw [← heq]
  exact hx

theorem owns_modData (hw : Owns owner w) (h : ℕ) {f : DreamHero → DreamHero}
    (hf : (f (w.data h)).account = (w.data h).account) : Owns owner (w.modData h f) := by
  refine ⟨hw.link, fun x hx => ?_, hw.table, hw.toDB, hw.fromDB⟩
  rw [modData_data]
  by_cases hxh : x = h
  · rw [hxh, Function.update_self, hf]
    exact hw.data h (hxh ▸ hx)
  · rw [Function.update_of_ne hxh]
    exact hw.data x hx

/-- the hero of a session is filed under no account but that of the id -/
theorem Owns.filed (hw : Owns owner w) {t p h : ℕ} (ht : w.link.onlines[t]? = some p)
    (hp : (w.link.sess p).dreamHero = some h) (ha : owner t ≠ a) : w.link.heroes[a]? ≠ some h :=
  fun hh => ha ((hw.link.hero t p h ht hp).1.symm.trans (hw.link.heroes a h hh).1)

/-- the sessions take a step, and the data of a hero that is made has the account of its session -/
theorem owns_linked (hw : Owns owner w) {o : GameServer.Op} (ho : GameServer.Proper owner o)
    (hlink : w'.link = GameServer.step w.link o)
    (hdata : ∀ h, h < w.link.nextHero → (w'.data h).account = (w.data h).account)
    (hnew : ∀ t p, w.link.onlines[t]? = some p → w.link.heroes[owner t]? = none →
      (o = .queryHeroInfo t (owner t) ∧ (w.link.sess p).dreamHero = none) ∨ o = .needCreateHero t →
      (w'.data w.link.nextHero).account = owner t)
    (hcharacter : w'.character = w.character) (htoDB : w'.toDB = w.toDB) (hfromDB : w'.fromDB = w.fromDB) :
    Owns owner w' := by
  refine ⟨hlink ▸ GameServer.owned_step hw.link o ho, fun h hh => ?_, hcharacter ▸ hw.table, htoDB ▸ hw.toDB,
    hfromDB ▸ hw.fromDB⟩
  rw [hlink] at hh ⊢
  rcases GameServer.account_step hw.link o ho hh with ⟨hlt, haccount⟩ | ⟨t, p, rfl, ht, hnone, haccount, hmade⟩
  · rw [hdata h hlt, haccount]
    exact hw.data h hlt
  · rw [haccount]
    exact hnew t p ht hnone hmade

theorem same_linked (hw : Owns owner w) {o : GameServer.Op} (ho : GameServer.Proper owner o)
    (hlink : w'.link = GameServer.step w.link o) (ha : ¬GameServer.Files owner w.link a o)
    (hdata : ∀ h, w.link.heroes[a]? = some h → w'.data h = w.data h)
    (hcharacter : w'.character = w.character) (htoDB : w'.toDB = w.toDB) : SameStore sameName a w w' := by
  refine ⟨?_, by rw [settled, settled, hcharacter, htoDB]⟩
  rw [memory, memory, hlink, GameServer.heroes_step hw.link o ho ha]
  exact Option.map_congr hdata

/-! ### Events -/

variable (owner) in
/-- the event keeps everything under its own account, and the store of each account that it does not concern -/
structure Isolates (sameName : String → String → Bool) (w : St) (o : Op) (w' : St) : Prop where
  owns : Owns owner w'
  same : ∀ a, ¬Concerns sameName owner w a o → SameStore sameName a w w'

theorem Isolates.of_link (hw : Owns owner w) {o : Op} {lo : GameServer.Op} (ho : GameServer.Proper owner lo)
    (hmade : ∀ t, lo ≠ .queryHeroInfo t (owner t) ∧ lo ≠ .needCreateHero t)
    (ha : ∀ a, ¬Concerns sameName owner w a o → ¬GameServer.Files owner w.link a lo) :
    Isolates owner sameName w o { w with link := GameServer.step w.link lo } := by
  refine ⟨owns_linked hw ho rfl (fun _ _ => rfl) (fun t _ _ _ h => ?_) rfl rfl rfl,
    fun a hc => same_linked hw ho rfl (ha a hc) (fun _ _ => rfl) rfl rfl⟩
  exact (h.elim (fun h => (hmade t).1 h.1) (hmade t).2).elim

/-- a hero that the event does not file under another account is changed, and keeps its account -/
theorem Isolates.of_modData (hw : Owns owner w) {o : Op} {h : ℕ} {f : DreamHero → DreamHero}
    (hf : (f (w.data h)).account = (w.data h).account)
    (ha : ∀ a, ¬Concerns sameName owner w a o → w.link.heroes[a]? ≠ some h) :
    Isolates owner sameName w o (w.modData h f) :=
  ⟨owns_modData hw h hf, fun a hc => same_modData (ha a hc) f⟩

theorem Isolates.refl (hw : Owns owner w) (o : Op) : Isolates owner sameName w o w := ⟨hw, fun a _ => .refl a w⟩

theorem Isolates.of_send (hw : Owns owner w) {o : Op} {stmt : Stmt} (hstmt : Keyed stmt)
    (ha : ∀ a, ¬Concerns sameName owner w a o → ¬Touches a stmt) :
    Isolates owner sameName w o { w with toDB := w.toDB ++ [stmt] } :=
  ⟨owns_send hw hstmt, fun a hc => same_send w (ha a hc)⟩

theorem isolates_addUser (hw : Owns owner w) (env : Env) (g t : ℕ) (channel : ℤ) :
    Isolates owner sameName w (.addUser env g t (owner t) channel) (addUser cfg env w g t (owner t) channel) := by
  have hlink : Isolates owner sameName w (.addUser env g t (owner t) channel)
      { w with link := GameServer.step w.link (.addUser g t (owner t) channel) } :=
    .of_link hw rfl (fun t => by simp) fun _ _ => id
  rw [addUser]
  split
  · rename_i h _ hh
    refine ⟨owns_modData hlink.owns h dayRefresh_account, fun a hc => (hlink.same a hc).trans (same_modData ?_ _)⟩
    dsimp only
    rw [GameServer.heroes_step hw.link (.addUser g t (owner t) channel) rfl id]
    exact fun heq => hc ((hw.link.heroes _ h hh).1.symm.trans (hw.link.heroes a h heq).1)
  · exact hlink

/-! ### Messages -/

theorem isolates_request {env : Env} {o : Op} {t p : ℕ} (hw : Owns owner w) (ht : w.link.onlines[t]? = some p)
    (ho : ∀ a, ¬Concerns sameName owner w a o → owner t ≠ a) {req : ClientRequest}
    (h : request cfg env w p req = .ok w') :
    Isolates owner sameName w o w' := by
  rcases whenHero_cases h with rfl | ⟨x, hp, hx⟩
  · exact .refl hw o
  · split at hx
    · rename_i d ranks answers hr
      cases hx
      have hmod : Isolates owner sameName w o (w.modData x fun _ => d) :=
        .of_modData hw (handleClient_account hr) fun a hc => hw.filed ht hp (ho a hc)
      exact ⟨⟨hmod.owns.link, hmod.owns.data, hmod.owns.table, hmod.owns.toDB, hmod.owns.fromDB⟩,
        fun a hc => ⟨(hmod.same a hc).memory, (hmod.same a hc).settled⟩⟩
    · cases hx

theorem isolates_crearteDeal {o : Op} {t p : ℕ} (hw : Owns owner w) (ht : w.link.onlines[t]? = some p)
    (ho : ∀ a, ¬Concerns sameName owner w a o → owner t ≠ a) (h : parseReqCrearteDeal w p = .ok w') :
    Isolates owner sameName w o w' := by
  rcases whenHero_cases h with rfl | ⟨x, hp, hx⟩
  · exact .refl hw o
  · cases hx
    exact .of_modData hw rfl fun a hc => hw.filed ht hp (ho a hc)

theorem isolates_verifyDeal {o : Op} {t p : ℕ} (hw : Owns owner w) (ht : w.link.onlines[t]? = some p) {orderId : ℤ}
    {receipt : Bytes} {effect : Table → Table} (hplain : PlainText out w t (.verifyDeal orderId receipt))
    (h : parseReqVerifyDeal out w p orderId receipt effect = .ok w') : Isolates owner sameName w o w' := by
  rcases whenHero_cases h with rfl | ⟨x, hp, hx⟩
  · exact .refl hw o
  · split at hx
    · cases hx
      rw [verifyStmt, if_pos (hplain p x ht hp)]
      exact .of_send hw trivial fun _ _ => id
    · cases hx
      exact .refl hw o

/-- a text with another name leaves the row alone -/
theorem same_updateGMLevel {level : ℤ} {name : String} {byGM : Bool} (h : ¬Named sameName w a name) :
    SameStore sameName a w { w with toDB := w.toDB ++ [.updateGMLevel level name byGM] } := by
  refine ⟨rfl, ?_⟩
  have hlast : settled sameName { w with toDB := w.toDB ++ [.updateGMLevel level name byGM] } a =
      execute sameName (w.toDB.foldl (execute sameName) w.character) (.updateGMLevel level name byGM) a := by
    rw [settled, List.foldl_append, List.foldl_cons, List.foldl_nil]
  rw [hlast, execute]
  cases hrow : settled sameName w a with
  | none => exact Option.map_eq_none_iff.2 hrow
  | some r =>
    have hname : ¬sameName name r.row.name := fun hname => h (Or.inr ⟨r, hrow, hname⟩)
    exact Option.map_eq_some_iff.2 ⟨r, hrow, if_neg hname⟩

/-- a command that sends nothing, and changes no hero that is filed under an account it does not concern -/
theorem isolates_silent {o : Op} {p : ℕ} {c : CmdMsg} {effect : Table → Table} {s : Commands.St} (hw : Owns owner w)
    (htoDB : s.toDB = []) (haccount : ∀ x, (s.hero x).data.account = (w.data x).account)
    (hothers : ∀ a x, ¬Concerns sameName owner w a o → w.link.heroes[a]? = some x → (s.hero x).data = w.data x) :
    Isolates owner sameName w o (w.afterCmd p c effect s) := by
  have hafter : (w.afterCmd p c effect s).toDB = w.toDB := by
    rw [St.afterCmd, htoDB]
    exact List.append_nil _
  refine ⟨⟨hw.link, fun x hx => (haccount x).trans (hw.data x hx), hw.table, hafter ▸ hw.toDB, hw.fromDB⟩,
    fun a ha => ⟨Option.map_congr fun x hx => hothers a x ha hx, ?_⟩⟩
  rw [settled, hafter]
  rfl

/-- the command that names a hero -/
theorem isolates_modifyGMLevel {env env' : Env} {t p : ℕ} {name : String} {level : ℤ} {effect : Table → Table}
    {s : Commands.St} (hw : Owns owner w) (ht : w.link.onlines[t]? = some p)
    (hplain : PlainText out w t (.cmd (.modifyGMLevel name level)))
    (hs : Commands.parsePBMessage cfg env w.cmdState p (.modifyGMLevel name level) = some s) :
    Isolates owner sameName w (.clientMsg env' t (.cmd (.modifyGMLevel name level)) effect)
      (w.afterCmd p (.modifyGMLevel name level) effect s) := by
  rcases modifyGMLevel_effect hs with ⟨hhero, htoDB⟩ | ⟨⟨h, hp, hlevel⟩, hdone⟩
  · have hdata (x : ℕ) : (s.hero x).data = w.data x := by rw [hhero]; rfl
    exact isolates_silent hw htoDB (fun x => congrArg _ (hdata x)) fun _ x _ _ => hdata x
  · have hgm : w.isGM p := (isGM_iff w p).2 ⟨h, hp, hlevel⟩
    have hunnamed (a : ℕ)
        (ha : ¬Concerns sameName owner w a (.clientMsg env' t (.cmd (.modifyGMLevel name level)) effect)) :
        ¬Named sameName w a (cStr name) := fun hnamed => ha (Or.inr ⟨name, level, rfl, hnamed, p, ht, hgm⟩)
    rcases hdone with ⟨y, hy, hwithin⟩ | ⟨hhero, t', htoDB⟩
    · have hname : cStr (w.data y).info.name = cStr name := getHeroByName_name hy
      refine isolates_silent hw hwithin.toDB hwithin.account_eq fun a x ha hx => hwithin.others x ?_
      exact fun heq => hunnamed a ha (Or.inl ⟨x, hx, heq ▸ hname⟩)
    · have hafter : w.afterCmd p (.modifyGMLevel name level) effect s =
          { w.afterCmd p (.modifyGMLevel name level) effect s with
            toDB := w.toDB ++ [.updateGMLevel level (cStr name) (w.isGM p)] } := by
        have hfits : Plain (utf8 (cStr name)) ∧ ModifyFits level (utf8 (cStr name)) := hplain
        have hsent : s.toDB = [(t', .updateGMLevel level (cStr name))] := htoDB
        rw [St.afterCmd, hsent, List.map_singleton, modifyStmt, if_pos hfits]
      have howns : Owns owner { w with toDB := w.toDB ++ [.updateGMLevel level (cStr name) (w.isGM p)] } :=
        owns_send hw trivial
      have hdata : (w.afterCmd p (.modifyGMLevel name level) effect s).data = w.data := by
        rw [St.afterCmd, hhero]
        rfl
      rw [hafter]
      refine ⟨⟨hw.link, hdata ▸ hw.data, hw.table, howns.toDB, hw.fromDB⟩, fun a ha => ?_⟩
      have hsame : SameStore sameName a w { w with toDB := w.toDB ++ [.updateGMLevel level (cStr name) (w.isGM p)] } :=
        same_updateGMLevel (hunnamed a ha)
      refine ⟨?_, hsame.settled⟩
      rw [memory, memory, hdata]
      rfl

theorem isolates_cmd {env env' : Env} {t p : ℕ} {c : CmdMsg} {effect : Table → Table} (hw : Owns owner w)
    (ht : w.link.onlines[t]? = some p) (hplain : PlainText out w t (.cmd c))
    (h : parseCmd cfg env w p c effect = .ok w') :
    Isolates owner sameName w (.clientMsg env' t (.cmd c) effect) w' := by
  rw [parseCmd] at h
  cases hp : (w.link.sess p).dreamHero with
  | none =>
    rw [hp] at h
    dsimp only at h
    split_ifs at h
    cases h
    exact .refl hw _
  | some x =>
    rw [hp] at h
    dsimp only at h
    cases hs : Commands.parsePBMessage cfg { env with serverTime := w.now } w.cmdState p c with
    | none =>
      rw [hs] at h
      cases h
    | some s =>
      rw [hs] at h
      cases h
      by_cases hc : ∃ name level, c = .modifyGMLevel name level
      · obtain ⟨name, level, rfl⟩ := hc
        exact isolates_modifyGMLevel hw ht hplain hs
      · have hwithin : Within x w.cmdState s := cmd_within (fun name level heq => hc ⟨name, level, heq⟩) hp hs
        refine isolates_silent hw hwithin.toDB hwithin.account_eq fun a y ha hy => hwithin.others y ?_
        rintro rfl
        exact hw.filed ht hp (fun heq => ha (Or.inl heq)) hy

theorem isolates_clientMsg (hw : Owns owner w) {env : Env} {t : ℕ} {m : PBMsg} {effect : Table → Table}
    (hplain : PlainText out w t m) : Isolates owner sameName w (.clientMsg env t m effect)
      (step cfg out sameName w (.clientMsg env t m effect)) := by
  rw [step]
  have hother (a : ℕ) (ha : ¬Concerns sameName owner w a (.clientMsg env t m effect)) : owner t ≠ a :=
    fun heq => ha (Or.inl heq)
  cases hmsg : parseUserMsg cfg out env effect w t m with
  | undefined => exact .refl hw _
  | nullHero =>
    exact ⟨⟨hw.link, hw.data, hw.table, hw.toDB, hw.fromDB⟩, fun a _ => ⟨rfl, rfl⟩⟩
  | ok w' =>
    dsimp only
    rw [parseUserMsg] at hmsg
    cases ht : w.link.onlines[t]? with
    | none =>
      rw [ht] at hmsg
      cases hmsg
      exact .refl hw _
    | some p =>
      rw [ht] at hmsg
      dsimp only at hmsg
      rcases parsePBMessage_cases cfg out env effect w p m with hok | ⟨req, hreq⟩ | rfl |
        ⟨orderId, receipt, rfl⟩ | ⟨c, rfl⟩
      · cases hok.symm.trans hmsg
        exact .refl hw _
      · exact isolates_request hw ht hother (hreq.symm.trans hmsg)
      · exact isolates_crearteDeal hw ht hother hmsg
      · exact isolates_verifyDeal hw ht hplain hmsg
      · exact isolates_cmd hw ht hplain hmsg

/-! ### Answers of the database -/

variable (owner) in
/-- the hero of the account of `t` is made, or given its account again; the new one is not filed yet -/
structure Makes (t : ℕ) (w made : St) : Prop where
  link : made.link = w.link
  account : ∀ h, h < w.link.nextHero → (made.data h).account = (w.data h).account
  others : ∀ a h, owner t ≠ a → w.link.heroes[a]? = some h → made.data h = w.data h
  character : made.character = w.character
  toDB : made.toDB = w.toDB
  fromDB : made.fromDB = w.fromDB

theorem Makes.refl (t : ℕ) (w : St) : Makes owner t w w := ⟨rfl, fun _ _ => rfl, fun _ _ _ _ => rfl, rfl, rfl, rfl⟩

/-- the hero is in memory -/
theorem makes_known (hw : Owns owner w) {t h : ℕ} (hh : w.link.heroes[owner t]? = some h) :
    Makes owner t w (w.modData h fun d => { d with account := owner t }) := by
  obtain ⟨haccount, hlt⟩ := hw.link.heroes _ h hh
  refine ⟨rfl, fun x _ => ?_, fun a x ha hx => ?_, rfl, rfl, rfl⟩
  · rw [modData_data]
    by_cases hxh : x = h
    · rw [hxh, Function.update_self, hw.data h hlt, haccount]
    · rw [Function.update_of_ne hxh]
  · rw [modData_data]
    refine Function.update_of_ne (fun heq => ha ?_) _ _
    rw [← haccount, ← heq]
    exact (hw.link.heroes a x hx).1

/-- the hero is new -/
theorem makes_new (hw : Owns owner w) {t : ℕ} {made : St} {d : DreamHero} (hlink : made.link = w.link)
    (hdata : made.data = Function.update w.data w.link.nextHero d) (hcharacter : made.character = w.character)
    (htoDB : made.toDB = w.toDB) (hfromDB : made.fromDB = w.fromDB) : Makes owner t w made := by
  refine ⟨hlink, fun x hx => ?_, fun a x _ hx => ?_, hcharacter, htoDB, hfromDB⟩
  · rw [hdata, Function.update_of_ne hx.ne]
  · rw [hdata, Function.update_of_ne (hw.link.heroes a x hx).2.ne]

theorem makes_createHeroFrom (hw : Owns owner w) {t p : ℕ} (ht : w.link.onlines[t]? = some p) (info : MsgHeroDataDB2GS)
    (granted : Bool) : Makes owner t w (createHeroFrom cfg out w p info granted) ∧
      (w.link.heroes[owner t]? = none →
        ((createHeroFrom cfg out w p info granted).data w.link.nextHero).account = owner t) := by
  rw [createHeroFrom, (hw.link.sess t p ht).1]
  split
  · rename_i h hh
    exact ⟨makes_known hw hh, fun hnone => absurd (hh.symm.trans hnone) (Option.some_ne_none h)⟩
  · refine ⟨makes_new hw rfl rfl rfl rfl rfl, fun _ => ?_⟩
    dsimp only
    rw [Function.update_self]

theorem makes_createHero (hw : Owns owner w) {t p : ℕ} (ht : w.link.onlines[t]? = some p) :
    Makes owner t w (createHero cfg w p) ∧
      (w.link.heroes[owner t]? = none → ((createHero cfg w p).data w.link.nextHero).account = owner t) := by
  rw [createHero, (hw.link.sess t p ht).1]
  split
  · rename_i h hh
    exact ⟨makes_known hw hh, fun hnone => absurd (hh.symm.trans hnone) (Option.some_ne_none h)⟩
  · refine ⟨makes_new hw rfl rfl rfl rfl rfl, fun _ => ?_⟩
    dsimp only
    rw [Function.update_self]

variable (owner) in
/-- what an answer for the id `t` may do -/
structure Answered (sameName : String → String → Bool) (t : ℕ) (w w' : St) : Prop where
  owns : Owns owner w'
  same : ∀ a, owner t ≠ a → SameStore sameName a w w'
  fromDB : w'.fromDB = w.fromDB

theorem answered_initHero (env : Env) {t : ℕ} (h : Answered owner sameName t w w') :
    Answered owner sameName t w (initHero cfg env w' t) := by
  rw [initHero]
  split
  · rename_i x hx
    obtain ⟨p, ht, hp⟩ := Option.bind_eq_some_iff.1 hx
    exact ⟨owns_modData h.owns x dayRefresh_account,
      fun a ha => (h.same a ha).trans (same_modData (h.owns.filed ht hp ha) _), h.fromDB⟩
  · exact h

/-- the object is made, and the session takes it over -/
theorem answered_linked (hw : Owns owner w) {t : ℕ} {made : St} (hmade : Makes owner t w made) {o : GameServer.Op}
    (ho : o = .queryHeroInfo t (owner t) ∨ o = .needCreateHero t)
    (hnew : ∀ p, w.link.onlines[t]? = some p → w.link.heroes[owner t]? = none →
      (o = .queryHeroInfo t (owner t) → (w.link.sess p).dreamHero = none) →
      (made.data w.link.nextHero).account = owner t) :
    Answered owner sameName t w { made with link := GameServer.step w.link o } := by
  have hproper : GameServer.Proper owner o := by
    rcases ho with rfl | rfl
    · exact rfl
    · exact trivial
  refine ⟨owns_linked hw hproper rfl hmade.account (fun t' p ht hnone h => ?_) hmade.character hmade.toDB hmade.fromDB,
    fun a ha => same_linked hw hproper rfl ?_ (fun h => hmade.others a h ha) hmade.character hmade.toDB, hmade.fromDB⟩
  · have htt : t' = t := by
      rcases ho with rfl | rfl <;> rcases h with ⟨h, -⟩ | h <;> cases h <;> rfl
    subst htt
    refine hnew p ht hnone fun hquery => ?_
    rcases h with h | h
    · exact h.2
    · cases hquery.symm.trans h
  · rcases ho with rfl | rfl <;> exact ha

theorem answered_receive (hw : Owns owner w) (env : Env) {t : ℕ} {r : Reply}
    (hr : ∀ info granted, r = .heroData info granted → info.account = owner t) :
    Answered owner sameName t w (receive cfg out env w t r) := by
  cases r with
  | heroData info granted =>
    rw [receive, hr info granted rfl]
    refine answered_initHero env ?_
    cases hfilter : (w.link.onlines[t]?).filter fun p => (w.link.sess p).dreamHero.isNone with
    | some p =>
      obtain ⟨ht, -⟩ := Option.filter_eq_some_iff.1 hfilter
      obtain ⟨hmakes, hnew⟩ : Makes owner t w (createHeroFrom cfg out w p info granted) ∧ _ :=
        makes_createHeroFrom hw ht info granted
      exact answered_linked hw hmakes (Or.inl rfl) fun _ _ hnone _ => hnew hnone
    | none =>
      refine answered_linked hw (.refl t w) (Or.inl rfl) fun p ht _ hp => ?_
      rw [ht, Option.filter_some, if_pos (by rw [hp rfl]; rfl)] at hfilter
      cases hfilter
  | needCreateHero =>
    rw [receive]
    refine answered_initHero env ?_
    cases ht : w.link.onlines[t]? with
    | some p =>
      obtain ⟨hmakes, hnew⟩ : Makes owner t w (createHero cfg w p) ∧ _ := makes_createHero hw ht
      exact answered_linked hw hmakes (Or.inr rfl) fun _ _ hnone _ => hnew hnone
    | none =>
      refine answered_linked hw (.refl t w) (Or.inr rfl) fun p hp _ _ => ?_
      cases ht.symm.trans hp

theorem isolates_receive (hw : Owns owner w) (env : Env) (i : ℕ) : Isolates owner sameName w (.receive env i)
    (step cfg out sameName w (.receive env i)) := by
  rw [step]
  split
  · rename_i t r hget
    have hr (info : MsgHeroDataDB2GS) (granted : Bool) (h : r = .heroData info granted) : info.account = owner t :=
      hw.fromDB t info granted (h ▸ List.mem_of_getElem? hget)
    have hrecv : Answered owner sameName t w (receive cfg out env w t r) := answered_receive hw env hr
    refine ⟨⟨hrecv.owns.link, hrecv.owns.data, hrecv.owns.table, hrecv.owns.toDB, fun t' info granted hm => ?_⟩,
      fun a ha => ?_⟩
    · exact hw.fromDB t' info granted (List.mem_of_mem_eraseIdx hm)
    · have hsame := hrecv.same a fun heq => ha ⟨t, r, hget, heq⟩
      exact ⟨hsame.memory, hsame.settled⟩
  · exact .refl hw _

/-! ### The table -/

theorem isolates_query (hw : Owns owner w) (i : ℕ) (failed : Bool) : Isolates owner sameName w (.query i failed)
    (step cfg out sameName w (.query i failed)) := by
  rw [step]
  split
  · rename_i a t hget
    refine ⟨⟨hw.link, hw.data, hw.table, hw.toDB, fun t' info granted hm => ?_⟩, fun _ _ => ⟨rfl, rfl⟩⟩
    rcases List.mem_append.1 hm with hm | hm
    · exact hw.fromDB t' info granted hm
    · obtain ⟨rfl, hanswer⟩ := Prod.ext_iff.1 (List.mem_singleton.1 hm)
      dsimp only at hanswer
      have ha := hw.link.toDB a t' (List.mem_of_getElem? hget)
      rw [answer] at hanswer
      split at hanswer
      · rename_i r hr
        split_ifs at hanswer
        cases hanswer
        exact (hw.table a r hr).trans ha
      · cases hanswer
  · exact .refl hw _

theorem isolates_execute (hw : Owns owner w) :
    Isolates owner sameName w .execute (step cfg out sameName w .execute) := by
  rw [step]
  split
  · rename_i stmt rest hstmts
    have hkeyed := hw.toDB
    rw [hstmts] at hkeyed
    refine ⟨⟨hw.link, hw.data, keyed_execute hw.table (hkeyed stmt List.mem_cons_self),
      fun stmt' hm => hkeyed stmt' (List.mem_cons_of_mem stmt hm), hw.fromDB⟩, fun a _ => ⟨rfl, ?_⟩⟩
    simp only [settled, hstmts, List.foldl_cons]
  · exact .refl hw _

/-! ### Runs -/

/-- **What each event leaves alone.** -/
theorem isolates_step (hw : Owns owner w) (o : Op) (ho : Proper out owner w o) :
    Isolates owner sameName w o (step cfg out sameName w o) := by
  cases o with
  | addUser env g t a channel =>
    obtain rfl : a = owner t := ho
    exact isolates_addUser hw env g t channel
  | removeUser t => exact .of_link hw trivial (fun t => by simp) fun _ _ => id
  | offlineUser t => exact .of_link hw trivial (fun t => by simp) fun _ _ => id
  | removeUserByGate g => exact .of_link hw trivial (fun t => by simp) fun _ _ => id
  | fireDestroy h => exact .of_link hw trivial (fun t => by simp) fun _ hc => hc
  | clientMsg env t m effect => exact isolates_clientMsg hw ho
  | timer h e => exact .of_modData hw (f := fun d => runTimer cfg w d e) (runTimer_account w e) fun _ hc => hc
  | deals h gold jewel dealsWaitToPay =>
    rw [step]
    exact .of_modData hw rfl fun _ hc => hc
  | rankList ranks => exact ⟨⟨hw.link, hw.data, hw.table, hw.toDB, hw.fromDB⟩, fun _ _ => ⟨rfl, rfl⟩⟩
  | pass d => exact ⟨⟨hw.link, hw.data, hw.table, hw.toDB, hw.fromDB⟩, fun _ _ => ⟨rfl, rfl⟩⟩
  | saveHero a =>
    rw [step]
    split
    · rename_i h hh
      obtain ⟨haccount, hlt⟩ := hw.link.heroes a h hh
      refine .of_send hw trivial fun b hb => ?_
      have hrow : (characterRow out.time (w.data h)).accountId = a := (hw.data h hlt).trans haccount
      rw [Touches, hrow]
      exact hb
    · exact .refl hw _
  | offlinePrize account gold time => exact .of_send hw trivial fun _ hc => hc
  | query i failed => exact isolates_query hw i failed
  | execute => exact isolates_execute hw
  | receive env i => exact isolates_receive hw env i

theorem owns_start {rows : ℕ → Option CharacterRow} (hrows : ∀ a row, rows a = some row → row.accountId = a)
    (ranks : RankManager) : Owns owner (start rows ranks) := by
  refine ⟨GameServer.owned_init, fun h hh => ?_, fun a r hr => ?_, fun _ h => absurd h List.not_mem_nil,
    fun _ _ _ h => absurd h List.not_mem_nil⟩
  · rfl
  · obtain ⟨row, hrow, rfl⟩ := Option.map_eq_some_iff.1 hr
    exact hrows a row hrow

/-- **Isolation.** If the ids of a run stand for one account each, and its texts are plain, every event keeps what is in
memory, in the table and on its way under its own account, and leaves the store of each account it does not concern. -/
theorem isolation (owner : ℕ → ℕ) (rows : ℕ → Option CharacterRow) (ranks : RankManager)
    (hrows : ∀ a row, rows a = some row → row.accountId = a) (ops : List Op)
    (hops : Along (step cfg out sameName) (Proper out owner) (start rows ranks) ops) :
    Along (step cfg out sameName) (fun w o => Isolates owner sameName w o (step cfg out sameName w o))
      (start rows ranks) ops :=
  hops.imp (I := Owns owner) (fun _ o hw ho => (isolates_step hw o ho).owns) (fun _ o hw ho => isolates_step hw o ho)
    (owns_start hrows ranks)

/-- two players log in, and one of them plays and sends a command with the name of a third -/
theorem isolation_two : Along (step {} plainOutside fun a b => a == b)
    (fun w o => Isolates (fun t => t - 95) (fun a b => a == b) w o (step {} plainOutside (fun a b => a == b) w o))
    (start (fun a => some (characterRow plainOutside.time { account := a }))
      { dailyMaxRankSize := 100, minDailyScore := 0 })
    [.addUser {} 1 100 5 0, .addUser {} 1 101 6 0, .query 0 false, .receive {} 0, .clientMsg {} 100 .dayLottery id,
      .clientMsg {} 100 (.cmd (.modifyGMLevel "third" 3)) id] := by
  refine isolation _ _ _ (fun a row h => ?_) _ ⟨rfl, rfl, trivial, trivial, trivial,
    ⟨by decide +kernel, by decide +kernel⟩, trivial⟩
  cases h
  rfl

/-- the id is given to the account 6 while the question for the account 5 is under way: the session of 6 plays the hero
of 5 -/
theorem id_of_two_accounts : ∃ w p x, w = run (step {} plainOutside fun a b => a == b)
      (start (fun a => some (characterRow plainOutside.time { account := a, info := { gold := 100 * a } }))
        { dailyMaxRankSize := 100, minDailyScore := 0 })
      [.addUser {} 1 100 5 0, .query 0 false, .removeUser 100, .addUser {} 1 100 6 0, .receive {} 0] ∧
    w.link.onlines[100]? = some p ∧ (w.link.sess p).account = 6 ∧ (w.link.sess p).dreamHero = some x ∧
    (w.data x).account = 6 ∧ (w.data x).info.gold = 500 :=
  ⟨_, 2, 1, rfl, by decide +kernel, by decide +kernel, by decide +kernel, by decide +kernel, by decide +kernel⟩

end DreamHeroes.World

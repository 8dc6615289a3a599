/-
How the game servers and the database server stop (`ServerFrame::signalStop`, `GameServer::setStop` and `checkStop`,
`DreamHeroManager::SaveDreamHeroes`, `DBQuestManager::saveToClose`). A game server that is to stop saves its heroes,
tells the database server so with `MsgSaveAllHeroesGS2DB`, and goes on until that has answered.

- Any number of game servers, each with the send queue of its `tcp_client` and with a session at the database server for
  each connection it has had. The handlers of the client run beside the main thread, so a connection can come or go
  while `SaveDreamHeroes` is sending; what is in the queue then is written on the next connection, what is on the wire
  is lost from some point on.
- `one_closer`: at most one game server is ever answered, and stops.
- `never_stops`: when the one message has been lost, or has come too late, the game server does not stop any more.

`kept`, `pushed`, `seen`, `answered` and `accepted` are bookkeeping: what `setStop` saves, what a client has been given
to send, what a session has handled, whom the database server has answered, and the statements that became tasks.
-/
import Mathlib.Tactic
import DreamHeroes.Lib.Machine
import DreamHeroes.Hero.DreamHero

namespace DreamHeroes.Closing

open DreamHeroes.Lib DreamHeroes.Hero

variable {Q : Type*}

/-! ## The servers -/

/-- a statement about a hero, or another one -/
inductive Sql (Q : Type*) where
  | hero (stmt : Stmt)
  | other (q : Q)
deriving DecidableEq, Repr

/-- `MsgServerRegister`, `MsgSaveDataGS2DB` and `MsgSaveAllHeroesGS2DB` -/
inductive ToDB (Q : Type*) where
  | register
  | saveData (sql : Sql Q)
  | saveAll
deriving DecidableEq, Repr

/-- where the main thread is; in `SaveDreamHeroes`, what it is still to send -/
inductive Phase (Q : Type*) where
  | loop
  | setStop (rest : List (ToDB Q))
  | checkStop (rest : List (ToDB Q))

def Phase.inLoop : Phase Q → Bool
  | .loop => true
  | _ => false

structure Game (Q : Type*) where
  heroes : Std.TreeMap ℕ DreamHero
  /-- `g_wait_stop` -/
  signalled : Bool := false
  waitStop : Bool := false
  saveAllHeroesOk : Bool := false
  stop : Bool := false
  phase : Phase Q := .loop
  isconnected : Bool := false
  /-- the number of the connection -/
  session : ℕ := 0
  /-- `on_connect` is still to be called -/
  callbacks : ℕ := 0
  queue : List (ToDB Q) := []
  kept : List (Sql Q) := []
  pushed : List (ToDB Q) := []

/-- a session at the database server -/
structure Session (Q : Type*) where
  wire : List (ToDB Q) := []
  seen : List (ToDB Q) := []
  gameId : ℕ := 0
  closed : Bool := false
  /-- `MsgSaveAllHeroesDB2GS` under way to the game server -/
  acks : ℕ := 0

structure DBServer (Q : Type*) where
  /-- `m_Games` -/
  games : ℕ → Option (ℕ × ℕ) := fun _ => none
  receiveCoseMsg : Bool := false
  closeGsId : ℕ := 0
  /-- `EVENT_SAVE_TO_CLOSE`, and how long it has been running -/
  event : Option ℕ := none
  /-- the object states are `_run_obj_` -/
  running : Bool := true
  answered : Option ℕ := none
  accepted : List (ℕ × Sql Q) := []

structure St (Q : Type*) where
  games : ℕ → Game Q
  /-- by game server and connection -/
  sess : ℕ × ℕ → Session Q := fun _ => {}
  db : DBServer Q := {}

def saveToCloseTime : ℕ := 15000

def maxGateId : ℕ := 255

def setGame (s : St Q) (g : ℕ) (f : Game Q → Game Q) : St Q :=
  { s with games := Function.update s.games g (f (s.games g)) }

def setSess (s : St Q) (k : ℕ × ℕ) (f : Session Q → Session Q) : St Q :=
  { s with sess := Function.update s.sess k (f (s.sess k)) }

/-! ## A game server -/

variable (time : ℕ → String)

/-- the statements of `SaveDreamHeroes`: the ranks, the state of the server, the heroes -/
def statements (heroes : Std.TreeMap ℕ DreamHero) (ranks : List Q) (status : Q) (now : ℕ) : List (Sql Q) :=
  ranks.map .other ++ .other status :: heroes.toList.flatMap fun e => (saveHero time e.2 now).map .hero

def saveDreamHeroes (sqls : List (Sql Q)) : List (ToDB Q) := sqls.map .saveData ++ [.saveAll]

/-- `sendPBMessage`: nothing is queued without a connection -/
def Game.send (G : Game Q) (m : ToDB Q) : Game Q :=
  if G.isconnected then { G with queue := G.queue ++ [m], pushed := G.pushed ++ [m] } else G

/-- the main thread is in `runOnce` -/
def Game.Runs (G : Game Q) : Prop := G.phase.inLoop = true ∧ G.stop = false

instance decidableRuns (G : Game Q) : Decidable G.Runs := inferInstanceAs (Decidable (_ ∧ _))

/-- `checkStop` when `_wait_stop` is set, and `signalStop` -/
def Game.turn (G : Game Q) (ranks : List Q) (status : Q) (now : ℕ) : Game Q :=
  if G.Runs then
    let sqls := statements time G.heroes ranks status now
    if G.waitStop then
      if G.saveAllHeroesOk then { G with phase := .checkStop (saveDreamHeroes sqls) } else G
    else if G.signalled then { G with phase := .setStop (saveDreamHeroes sqls), kept := sqls }
    else G
  else G

/-- the main thread goes on with `SaveDreamHeroes`, and with what follows it -/
def Game.saves (G : Game Q) : Game Q :=
  match G.phase with
  | .loop => G
  | .setStop (m :: rest) => { G.send m with phase := .setStop rest }
  | .setStop [] => { G with phase := .loop, waitStop := true }
  | .checkStop (m :: rest) => { G.send m with phase := .checkStop rest }
  | .checkStop [] => { G with phase := .loop, stop := true }

/-- a connection, and the callback it owes -/
def Game.connect (G : Game Q) : Game Q :=
  if G.isconnected then G else
    { G with isconnected := true, session := G.session + 1, callbacks := G.callbacks + 1 }

def Game.onConnect (G : Game Q) : Game Q :=
  if G.Runs ∧ 0 < G.callbacks then { G.send .register with callbacks := G.callbacks - 1 } else G

/-! ## The database server -/

variable (ids : ℕ → ℕ)

def valid (gs : ℕ) : Prop := 0 < gs ∧ gs < maxGateId

instance decidableValid (gs : ℕ) : Decidable (valid gs) := inferInstanceAs (Decidable (_ ∧ _))

def addGame (d : DBServer Q) (gs : ℕ) (k : ℕ × ℕ) : DBServer Q :=
  if valid gs then { d with games := Function.update d.games gs (some k) } else d

def removeGame (d : DBServer Q) (gs : ℕ) (k : ℕ × ℕ) : DBServer Q :=
  if valid gs ∧ d.games gs = some k then { d with games := Function.update d.games gs none } else d

/-- the session that `GameManager::sendMessage` finds -/
def recipient (d : DBServer Q) (gs : ℕ) : Option (ℕ × ℕ) := if valid gs then d.games gs else none

/-- `EVENT_SAVE_TO_CLOSE` is added here only, so there is none yet -/
def saveToClose (s : St Q) (gsid : ℕ) : St Q :=
  if s.db.receiveCoseMsg then s else
    let s := { s with db := { s.db with receiveCoseMsg := true, closeGsId := gsid, event := some 0 } }
    match recipient s.db gsid with
    | some k => setSess { s with db := { s.db with answered := some k.1 } } k fun x => { x with acks := x.acks + 1 }
    | none => s

/-- one message of the session `k` -/
def handle (s : St Q) (k : ℕ × ℕ) : St Q :=
  if (s.sess k).closed then s else
    match (s.sess k).wire with
    | [] => s
    | m :: rest =>
      let s := setSess s k fun x => { x with wire := rest, seen := x.seen ++ [m] }
      match m with
      | .register =>
        let s := setSess s k fun x => { x with gameId := ids k.1 }
        { s with db := addGame s.db (ids k.1) k }
      | .saveData sql =>
        if s.db.running then { s with db := { s.db with accepted := s.db.accepted ++ [(k.1, sql)] } } else s
      | .saveAll => saveToClose s (s.sess k).gameId

def onClose (s : St Q) (k : ℕ × ℕ) : St Q :=
  let s := setSess s k fun x => { x with closed := true }
  { s with db := removeGame s.db (s.sess k).gameId k }

/-- the timer; `onSaveToClose` -/
def update (d : DBServer Q) (diff : ℕ) : DBServer Q :=
  match d.event with
  | some t => if saveToCloseTime ≤ t + diff then { d with event := none, running := false }
      else { d with event := some (t + diff) }
  | none => d

/-! ## Steps -/

inductive Op (Q : Type*) where
  | signal (g : ℕ)
  /-- what `runOnce` does to the heroes, and what it saves -/
  | play (g : ℕ) (heroes : Std.TreeMap ℕ DreamHero)
  | save (g : ℕ) (sql : Sql Q)
  | turn (g : ℕ) (ranks : List Q) (status : Q) (now : ℕ)
  | saves (g : ℕ)
  | onConnect (g : ℕ)
  | connect (g : ℕ)
  | write (g n : ℕ)
  /-- the connection breaks, and `n` messages are not lost with it -/
  | lose (g n : ℕ)
  | handle (k : ℕ × ℕ)
  | onClose (k : ℕ × ℕ)
  | update (diff : ℕ)
  /-- the answer arrives; or does not -/
  | saveAllHeroesOk (k : ℕ × ℕ)
  | dropAck (k : ℕ × ℕ)

def step (s : St Q) : Op Q → St Q
  | .signal g => setGame s g fun G => { G with signalled := true }
  | .play g heroes => setGame s g fun G => if G.Runs then { G with heroes := heroes } else G
  | .save g sql => setGame s g fun G => if G.Runs then G.send (.saveData sql) else G
  | .turn g ranks status now => setGame s g fun G => G.turn time ranks status now
  | .saves g => setGame s g Game.saves
  | .onConnect g => setGame s g Game.onConnect
  | .connect g => setGame s g Game.connect
  | .write g n =>
    let G := s.games g
    if G.isconnected then
      setSess (setGame s g fun G => { G with queue := G.queue.drop n }) (g, G.session) fun x =>
        { x with wire := x.wire ++ G.queue.take n }
    else s
  | .lose g n =>
    let G := s.games g
    if G.isconnected then
      setSess (setGame s g fun G => { G with isconnected := false }) (g, G.session) fun x =>
        { x with wire := x.wire.take n }
    else s
  | .handle k => handle ids s k
  | .onClose k => onClose s k
  | .update diff => { s with db := update s.db diff }
  | .saveAllHeroesOk k =>
    if (s.games k.1).Runs ∧ 0 < (s.sess k).acks then
      setGame (setSess s k fun x => { x with acks := x.acks - 1 }) k.1 fun G => { G with saveAllHeroesOk := true }
    else s
  | .dropAck k => setSess s k fun x => { x with acks := x.acks - 1 }

def start (heroes : ℕ → Std.TreeMap ℕ DreamHero) : St Q where
  games g := { heroes := heroes g }

/-! ## Updates -/

section

variable (s : St Q) (g : ℕ) (k : ℕ × ℕ) (f : Game Q → Game Q) (h : Session Q → Session Q)

@[simp] theorem setGame_self : (setGame s g f).games g = f (s.games g) := Function.update_self ..

theorem setGame_of_ne {a : ℕ} (ha : a ≠ g) : (setGame s g f).games a = s.games a := Function.update_of_ne ha ..

theorem setGame_eq_self (hf : f (s.games g) = s.games g) : setGame s g f = s := by
  rw [setGame, hf, Function.update_eq_self]

@[simp] theorem setGame_sess : (setGame s g f).sess = s.sess := rfl

@[simp] theorem setGame_db : (setGame s g f).db = s.db := rfl

@[simp] theorem setSess_self : (setSess s k h).sess k = h (s.sess k) := Function.update_self ..

theorem setSess_of_ne {a : ℕ × ℕ} (ha : a ≠ k) : (setSess s k h).sess a = s.sess a := Function.update_of_ne ha ..

@[simp] theorem setSess_games : (setSess s k h).games = s.games := rfl

@[simp] theorem setSess_db : (setSess s k h).db = s.db := rfl

end

section

variable (G : Game Q) (m : ToDB Q)

@[simp] theorem send_ok : (G.send m).saveAllHeroesOk = G.saveAllHeroesOk := by rw [Game.send]; split_ifs <;> rfl

@[simp] theorem send_stop : (G.send m).stop = G.stop := by rw [Game.send]; split_ifs <;> rfl

@[simp] theorem send_phase : (G.send m).phase = G.phase := by rw [Game.send]; split_ifs <;> rfl

@[simp] theorem send_waitStop : (G.send m).waitStop = G.waitStop := by rw [Game.send]; split_ifs <;> rfl

@[simp] theorem send_kept : (G.send m).kept = G.kept := by rw [Game.send]; split_ifs <;> rfl

end

/-- what closing is about -/
structure Same (d d' : DBServer Q) : Prop where
  answered : d'.answered = d.answered
  receiveCoseMsg : d'.receiveCoseMsg = d.receiveCoseMsg
  accepted : d'.accepted = d.accepted

section

variable (d : DBServer Q) (gs diff : ℕ) (k : ℕ × ℕ)

theorem same_addGame : Same d (addGame d gs k) := by
  rw [addGame]
  split_ifs <;> exact ⟨rfl, rfl, rfl⟩

theorem same_removeGame : Same d (removeGame d gs k) := by
  rw [removeGame]
  split_ifs <;> exact ⟨rfl, rfl, rfl⟩

theorem same_update : Same d (update d diff) := by
  rw [update]
  split
  · split_ifs <;> exact ⟨rfl, rfl, rfl⟩
  · exact ⟨rfl, rfl, rfl⟩

variable {d gs diff k} {j : ℕ} {a : ℕ × ℕ}

theorem addGame_games (h : (addGame d gs k).games j = some a) : (j = gs ∧ a = k) ∨ d.games j = some a := by
  rw [addGame] at h
  split_ifs at h
  · dsimp only at h
    rcases eq_or_ne j gs with rfl | hne
    · rw [Function.update_self] at h
      exact Or.inl ⟨rfl, (Option.some.inj h).symm⟩
    · rw [Function.update_of_ne hne] at h
      exact Or.inr h
  · exact Or.inr h

theorem removeGame_games (h : (removeGame d gs k).games j = some a) : d.games j = some a := by
  rw [removeGame] at h
  split_ifs at h
  · exact of_update_none h
  · exact h

theorem update_games : (update d diff).games = d.games := by
  rw [update]
  split
  · split_ifs <;> rfl
  · rfl

end

/-! ## One game server stops -/

/-- it stops, or is about to -/
def Game.Stops (G : Game Q) : Prop := G.stop = true ∨ ∃ rest, G.phase = .checkStop rest

/-- a step of the main thread waits for the answer before it stops, and does not answer itself -/
structure Waits (G G' : Game Q) : Prop where
  ok : G'.saveAllHeroesOk = G.saveAllHeroesOk
  stops : G'.Stops → G.Stops ∨ G.saveAllHeroesOk = true

theorem Waits.refl (G : Game Q) : Waits G G := ⟨rfl, Or.inl⟩

theorem waits_send (G : Game Q) (m : ToDB Q) : Waits G (G.send m) := by
  refine ⟨send_ok G m, fun h => Or.inl ?_⟩
  rwa [Game.Stops, send_stop, send_phase] at h

theorem waits_turn (G : Game Q) (ranks : List Q) (status : Q) (now : ℕ) : Waits G (G.turn time ranks status now) := by
  rw [Game.turn]
  dsimp only
  split_ifs with _ _ hok _
  · exact ⟨rfl, fun _ => Or.inr hok⟩
  · exact .refl G
  · refine ⟨rfl, fun h => Or.inl ?_⟩
    rcases h with h | ⟨rest, h⟩
    · exact Or.inl h
    · cases h
  · exact .refl G
  · exact .refl G

theorem waits_saves (G : Game Q) : Waits G G.saves := by
  rw [Game.saves]
  split
  · exact .refl G
  · refine ⟨send_ok G _, fun h => Or.inl ?_⟩
    rcases h with h | ⟨rest, h⟩
    · exact Or.inl ((send_stop G _).symm.trans h)
    · cases h
  · refine ⟨rfl, fun h => Or.inl ?_⟩
    rcases h with h | ⟨rest, h⟩
    · exact Or.inl h
    · cases h
  · rename_i hphase
    exact ⟨send_ok G _, fun _ => Or.inl (Or.inr ⟨_, hphase⟩)⟩
  · rename_i hphase
    exact ⟨rfl, fun _ => Or.inl (Or.inr ⟨_, hphase⟩)⟩

theorem waits_onConnect (G : Game Q) : Waits G G.onConnect := by
  rw [Game.onConnect]
  split_ifs
  · obtain ⟨hok, hstops⟩ := waits_send G .register
    exact ⟨hok, hstops⟩
  · exact .refl G

theorem waits_connect (G : Game Q) : Waits G G.connect := by
  rw [Game.connect]
  split_ifs
  · exact .refl G
  · exact ⟨rfl, Or.inl⟩

/-- only the database server answers, and only once -/
structure Once (s : St Q) : Prop where
  answered : s.db.answered ≠ none → s.db.receiveCoseMsg = true
  acks : ∀ k, 0 < (s.sess k).acks → s.db.answered = some k.1
  ok : ∀ g, (s.games g).saveAllHeroesOk = true → s.db.answered = some g
  stops : ∀ g, (s.games g).Stops → (s.games g).saveAllHeroesOk = true

variable {s : St Q}

theorem once_setGame (hs : Once s) (g : ℕ) {f : Game Q → Game Q} (hf : Waits (s.games g) (f (s.games g))) :
    Once (setGame s g f) := by
  refine ⟨hs.answered, hs.acks, fun a => ?_, fun a => ?_⟩
  · rcases eq_or_ne a g with rfl | ha
    · rw [setGame_self, hf.ok]
      exact hs.ok a
    · rw [setGame_of_ne s g f ha]
      exact hs.ok a
  · rcases eq_or_ne a g with rfl | ha
    · rw [setGame_self, hf.ok]
      exact fun h => (hf.stops h).elim (hs.stops a) id
    · rw [setGame_of_ne s g f ha]
      exact hs.stops a

theorem once_setSess (hs : Once s) (k : ℕ × ℕ) {h : Session Q → Session Q}
    (hacks : (h (s.sess k)).acks ≤ (s.sess k).acks) :
    Once (setSess s k h) := by
  refine ⟨hs.answered, fun a ha => ?_, hs.ok, hs.stops⟩
  rcases eq_or_ne a k with rfl | hne
  · rw [setSess_self] at ha
    exact hs.acks a (ha.trans_le hacks)
  · rw [setSess_of_ne s k h hne] at ha
    exact hs.acks a ha

/-- the rest of the database server -/
theorem once_db (hs : Once s) {d : DBServer Q} (hanswered : d.answered = s.db.answered)
    (hreceive : d.receiveCoseMsg = s.db.receiveCoseMsg) : Once { s with db := d } :=
  ⟨fun h => hreceive.trans (hs.answered (hanswered ▸ h)), fun k hk => hanswered.trans (hs.acks k hk),
    fun g hg => hanswered.trans (hs.ok g hg), hs.stops⟩

theorem once_same (hs : Once s) {d : DBServer Q} (hd : Same s.db d) : Once { s with db := d } :=
  once_db hs hd.answered hd.receiveCoseMsg

theorem once_saveToClose (hs : Once s) (gsid : ℕ) : Once (saveToClose s gsid) := by
  rw [saveToClose]
  split_ifs with hreceive
  · exact hs
  · have hnone : s.db.answered = none := by
      by_contra h
      exact hreceive (hs.answered h)
    have hacks (k : ℕ × ℕ) : (s.sess k).acks = 0 := by
      by_contra h
      exact absurd (hnone.symm.trans (hs.acks k (Nat.pos_of_ne_zero h))) (Option.some_ne_none _).symm
    have hok (g : ℕ) : ¬(s.games g).saveAllHeroesOk = true := fun h =>
      absurd (hnone.symm.trans (hs.ok g h)) (Option.some_ne_none _).symm
    dsimp only
    split
    · rename_i k _
      refine ⟨fun _ => rfl, fun a ha => ?_, fun g hg => absurd hg (hok g), hs.stops⟩
      rcases eq_or_ne a k with rfl | hne
      · rfl
      · rw [setSess_of_ne _ k _ hne] at ha
        exact absurd (hacks a) ha.ne'
    · exact ⟨fun _ => rfl, hs.acks, hs.ok, hs.stops⟩

theorem once_handle (hs : Once s) (k : ℕ × ℕ) : Once (handle ids s k) := by
  rw [handle]
  split_ifs
  · exact hs
  · split
    · exact hs
    · rename_i m rest hwire
      have hseen := once_setSess hs k (h := fun x => { x with wire := rest, seen := x.seen ++ [m] }) le_rfl
      dsimp only
      split
      · have hid := once_setSess hseen k (h := fun x => { x with gameId := ids k.1 }) le_rfl
        exact once_same hid (same_addGame _ _ k)
      · split_ifs
        · exact once_db hseen rfl rfl
        · exact hseen
      · exact once_saveToClose hseen _

theorem once_step (s : St Q) (op : Op Q) (hs : Once s) : Once (step time ids s op) := by
  cases op with
  | signal g =>
    rw [step]
    exact once_setGame hs g ⟨rfl, Or.inl⟩
  | play g heroes =>
    refine once_setGame hs g ?_
    split_ifs
    · exact ⟨rfl, Or.inl⟩
    · exact .refl _
  | save g sql =>
    refine once_setGame hs g ?_
    split_ifs
    · exact waits_send _ _
    · exact .refl _
  | turn g ranks status now => exact once_setGame hs g (waits_turn time _ ranks status now)
  | saves g => exact once_setGame hs g (waits_saves _)
  | onConnect g => exact once_setGame hs g (waits_onConnect _)
  | connect g => exact once_setGame hs g (waits_connect _)
  | write g n =>
    rw [step]
    split_ifs
    · exact once_setSess (once_setGame hs g ⟨rfl, Or.inl⟩) _ le_rfl
    · exact hs
  | lose g n =>
    rw [step]
    split_ifs
    · exact once_setSess (once_setGame hs g ⟨rfl, Or.inl⟩) _ le_rfl
    · exact hs
  | handle k => exact once_handle ids hs k
  | onClose k =>
    have hclosed := once_setSess hs k (h := fun x => { x with closed := true }) le_rfl
    exact once_same hclosed (same_removeGame _ _ k)
  | update diff => exact once_same hs (same_update _ diff)
  | saveAllHeroesOk k =>
    rw [step]
    split_ifs with hacks
    · have hanswered := hs.acks k hacks.2
      have hless := once_setSess hs k (h := fun x => { x with acks := x.acks - 1 }) (Nat.sub_le _ _)
      refine ⟨hless.answered, hless.acks, fun a ha => ?_, fun a ha => ?_⟩
      · rcases eq_or_ne a k.1 with rfl | hne
        · exact hanswered
        · rw [setGame_of_ne _ _ _ hne] at ha
          exact hs.ok a ha
      · rcases eq_or_ne a k.1 with rfl | hne
        · rw [setGame_self]
        · rw [setGame_of_ne _ _ _ hne] at ha ⊢
          exact hs.stops a ha
    · exact hs
  | dropAck k =>
    rw [step]
    exact once_setSess hs k (Nat.sub_le _ _)

theorem once_start (heroes : ℕ → Std.TreeMap ℕ DreamHero) : Once (start heroes : St Q) where
  answered h := absurd rfl h
  acks k h := absurd h (lt_irrefl 0)
  ok g h := absurd h Bool.false_ne_true
  stops g h := by
    rcases h with h | ⟨rest, h⟩
    · exact absurd h Bool.false_ne_true
    · cases h

/-- **One closer.** Whatever the interleaving, at most one game server stops. -/
theorem one_closer (heroes : ℕ → Std.TreeMap ℕ DreamHero) (ops : List (Op Q)) :
    {g | ((run (step time ids) (start heroes) ops).games g).stop = true}.Subsingleton := by
  have hinv := inv_run_all (once_step time ids) ops (once_start heroes)
  have hanswered (g : ℕ) (hg : ((run (step time ids) (start heroes) ops).games g).stop = true) :
      (run (step time ids) (start heroes) ops).db.answered = some g :=
    hinv.ok g (hinv.stops g (Or.inl hg))
  exact fun a ha b hb => Option.some.inj ((hanswered a ha).symm.trans (hanswered b hb))

/-! ## One that does not -/

/-- the database server knows the sessions by the ids of their game servers -/
structure Known (s : St Q) : Prop where
  games : ∀ gs k, s.db.games gs = some k → ids k.1 = gs
  gameId : ∀ k, (s.sess k).gameId = 0 ∨ (s.sess k).gameId = ids k.1

variable {ids}

theorem known_setSess (hs : Known ids s) (k : ℕ × ℕ) {h : Session Q → Session Q}
    (hid : (h (s.sess k)).gameId = (s.sess k).gameId ∨ (h (s.sess k)).gameId = ids k.1) :
    Known ids (setSess s k h) := by
  refine ⟨hs.games, fun a => ?_⟩
  rcases eq_or_ne a k with rfl | hne
  · rw [setSess_self]
    rcases hid with hid | hid
    · rw [hid]
      exact hs.gameId a
    · exact Or.inr hid
  · rw [setSess_of_ne s k h hne]
    exact hs.gameId a

theorem known_saveToClose (hs : Known ids s) (gsid : ℕ) : Known ids (saveToClose s gsid) := by
  rw [saveToClose]
  split_ifs
  · exact hs
  · dsimp only
    split
    · have hdb : Known ids { s with db := { s.db with
          receiveCoseMsg := true, closeGsId := gsid, event := some 0 } } := ⟨hs.games, hs.gameId⟩
      rename_i k _
      have hsend := known_setSess hdb k (h := fun x => { x with acks := x.acks + 1 }) (Or.inl rfl)
      exact ⟨hsend.games, hsend.gameId⟩
    · exact ⟨hs.games, hs.gameId⟩

theorem known_handle (hs : Known ids s) (k : ℕ × ℕ) : Known ids (handle ids s k) := by
  rw [handle]
  split_ifs
  · exact hs
  · split
    · exact hs
    · rename_i m rest hwire
      have hseen := known_setSess hs k (h := fun x => { x with wire := rest, seen := x.seen ++ [m] }) (Or.inl rfl)
      dsimp only
      split
      · have hid := known_setSess hseen k (h := fun x => { x with gameId := ids k.1 }) (Or.inr rfl)
        refine ⟨fun gs a ha => ?_, hid.gameId⟩
        rcases addGame_games ha with ⟨rfl, rfl⟩ | ha
        · rfl
        · exact hs.games gs a ha
      · split_ifs
        · exact ⟨hseen.games, hseen.gameId⟩
        · exact hseen
      · exact known_saveToClose hseen _

theorem known_step (s : St Q) (op : Op Q) (hs : Known ids s) : Known ids (step time ids s op) := by
  cases op with
  | handle k => exact known_handle hs k
  | onClose k =>
    have hclosed := known_setSess hs k (h := fun x => { x with closed := true }) (Or.inl rfl)
    exact ⟨fun gs a ha => hs.games gs a (removeGame_games ha), hclosed.gameId⟩
  | update diff => exact ⟨fun gs a ha => hs.games gs a (update_games (d := s.db) ▸ ha), hs.gameId⟩
  | write g n =>
    rw [step]
    split_ifs
    · have hgame : Known ids (setGame s g fun G => { G with queue := (s.games g).queue.drop n }) :=
        ⟨hs.games, hs.gameId⟩
      exact known_setSess hgame (g, (s.games g).session)
        (h := fun x => { x with wire := x.wire ++ (s.games g).queue.take n }) (Or.inl rfl)
    · exact hs
  | lose g n =>
    rw [step]
    split_ifs
    · have hgame : Known ids (setGame s g fun G => { G with isconnected := false }) := ⟨hs.games, hs.gameId⟩
      exact known_setSess hgame (g, (s.games g).session) (h := fun x => { x with wire := x.wire.take n }) (Or.inl rfl)
    · exact hs
  | saveAllHeroesOk k =>
    rw [step]
    split_ifs
    · have hless := known_setSess hs k (h := fun x => { x with acks := x.acks - 1 }) (Or.inl rfl)
      exact ⟨hless.games, hless.gameId⟩
    · exact hs
  | dropAck k => exact known_setSess hs k (h := fun x => { x with acks := x.acks - 1 }) (Or.inl rfl)
  | _ => exact ⟨hs.games, hs.gameId⟩

theorem known_start (heroes : ℕ → Std.TreeMap ℕ DreamHero) : Known ids (start heroes : St Q) where
  games _ _ h := absurd h.symm (Option.some_ne_none _)
  gameId _ := Or.inl rfl

/-- `setStop` is over, and its message is not in the queue -/
structure Quiet (G : Game Q) : Prop where
  waitStop : G.waitStop = true
  phase : G.phase = .loop
  queue : ToDB.saveAll ∉ G.queue

theorem quiet_send {G : Game Q} (hG : Quiet G) {m : ToDB Q} (hm : m ≠ .saveAll) : Quiet (G.send m) := by
  refine ⟨(send_waitStop G m).trans hG.waitStop, (send_phase G m).trans hG.phase, ?_⟩
  rw [Game.send]
  split_ifs
  · intro h
    rcases List.mem_append.1 h with h | h
    · exact hG.queue h
    · exact hm (List.mem_singleton.1 h).symm
  · exact hG.queue

theorem quiet_turn {G : Game Q} (hG : Quiet G) (hok : G.saveAllHeroesOk = false) (ranks : List Q)
    (status : Q) (now : ℕ) :
    Quiet (G.turn time ranks status now) := by
  rw [Game.turn]
  dsimp only
  rw [if_pos hG.waitStop, if_neg (Bool.eq_false_iff.1 hok), ite_self]
  exact hG

theorem quiet_onConnect {G : Game Q} (hG : Quiet G) : Quiet G.onConnect := by
  rw [Game.onConnect]
  split_ifs
  · have hsend := quiet_send (m := .register) hG (by rintro ⟨⟩)
    exact ⟨hsend.waitStop, hsend.phase, hsend.queue⟩
  · exact hG

/-- the game server has not been answered, and will not be: another one has been, or its message is lost -/
structure Unheard (s : St Q) (g : ℕ) : Prop where
  ok : (s.games g).saveAllHeroesOk = false
  acks : ∀ n, (s.sess (g, n)).acks = 0
  late : s.db.receiveCoseMsg = true ∨ (Quiet (s.games g) ∧ ∀ n, ToDB.saveAll ∉ (s.sess (g, n)).wire)

variable {g : ℕ}

theorem unheard_setGame (hs : Unheard s g) {a : ℕ} {f : Game Q → Game Q}
    (hok : (f (s.games a)).saveAllHeroesOk = (s.games a).saveAllHeroesOk)
    (hquiet : (s.games a).saveAllHeroesOk = false → Quiet (s.games a) → Quiet (f (s.games a))) :
    Unheard (setGame s a f) g := by
  rcases eq_or_ne g a with rfl | hne
  · refine ⟨?_, hs.acks, hs.late.imp id fun h => ⟨?_, h.2⟩⟩
    · rw [setGame_self, hok]
      exact hs.ok
    · rw [setGame_self]
      exact hquiet hs.ok h.1
  · refine ⟨?_, hs.acks, hs.late.imp id fun h => ⟨?_, h.2⟩⟩ <;> rw [setGame_of_ne s a f hne]
    · exact hs.ok
    · exact h.1

theorem unheard_setSess (hs : Unheard s g) (k : ℕ × ℕ) {h : Session Q → Session Q}
    (hacks : (h (s.sess k)).acks ≤ (s.sess k).acks)
    (hwire : k.1 = g → ToDB.saveAll ∈ (h (s.sess k)).wire → s.db.receiveCoseMsg = false →
      ToDB.saveAll ∈ (s.sess k).wire) : Unheard (setSess s k h) g := by
  have hsess (n : ℕ) (hk : (g, n) = k) : (s.sess k).acks = 0 := hk ▸ hs.acks n
  refine ⟨hs.ok, fun n => ?_, ?_⟩
  · by_cases hk : (g, n) = k
    · have hzero := hsess n hk
      rw [hk, setSess_self]
      omega
    · rw [setSess_of_ne s k h hk]
      exact hs.acks n
  · cases hreceive : s.db.receiveCoseMsg with
    | true => exact Or.inl hreceive
    | false =>
      obtain ⟨hquiet, hlost⟩ := hs.late.resolve_left (Bool.eq_false_iff.1 hreceive)
      refine Or.inr ⟨hquiet, fun n hn => ?_⟩
      by_cases hk : (g, n) = k
      · rw [hk, setSess_self] at hn
        exact hlost n (hk ▸ hwire (hk ▸ rfl) hn hreceive)
      · rw [setSess_of_ne s k h hk] at hn
        exact hlost n hn

/-- the message of another game server is answered to that one -/
theorem unheard_saveToClose (hids : Function.Injective ids) (hknown : Known ids s) (hs : Unheard s g) {k : ℕ × ℕ}
    (hk : s.db.receiveCoseMsg = false → k.1 ≠ g) : Unheard (saveToClose s (s.sess k).gameId) g := by
  rw [saveToClose]
  split_ifs with hreceive
  · exact hs
  · dsimp only
    split
    · rename_i k' hto
      refine ⟨hs.ok, fun n => ?_, Or.inl rfl⟩
      rw [recipient] at hto
      split_ifs at hto with hvalid
      -- the recipient has the id of the sender
      have hid : ids k'.1 = (s.sess k).gameId := hknown.games _ _ hto
      have hsame : k'.1 = k.1 := by
        rcases hknown.gameId k with hzero | heq
        · rw [hzero] at hvalid
          exact absurd hvalid.1 (lt_irrefl 0)
        · exact hids (hid.trans heq)
      have hne : (g, n) ≠ k' := fun h => hk (Bool.eq_false_iff.2 hreceive) (hsame ▸ h ▸ rfl)
      rw [setSess_of_ne _ k' _ hne]
      exact hs.acks n
    · exact ⟨hs.ok, hs.acks, Or.inl rfl⟩

theorem unheard_handle (hids : Function.Injective ids) (hknown : Known ids s) (hs : Unheard s g) (k : ℕ × ℕ) :
    Unheard (handle ids s k) g := by
  rw [handle]
  split_ifs
  · exact hs
  · split
    · exact hs
    · rename_i m rest hwire
      have hmem {m' : ToDB Q} (h : m' ∈ rest) : m' ∈ (s.sess k).wire := hwire ▸ List.mem_cons_of_mem m h
      have hseen := unheard_setSess hs k (h := fun x => { x with wire := rest, seen := x.seen ++ [m] }) le_rfl
        fun _ h _ => hmem h
      dsimp only
      split
      · have hid := unheard_setSess hseen k (h := fun x => { x with gameId := ids k.1 }) le_rfl fun _ h _ => h
        have hsame := (same_addGame s.db (ids k.1) k).receiveCoseMsg
        exact ⟨hid.ok, hid.acks, hid.late.imp hsame.trans fun h => h⟩
      · split_ifs
        · exact ⟨hseen.ok, hseen.acks, hseen.late⟩
        · exact hseen
      · refine unheard_saveToClose hids (known_setSess hknown k (Or.inl rfl)) hseen fun hreceive heq => ?_
        -- it would have been on the wire
        refine (hs.late.resolve_left (Bool.eq_false_iff.1 hreceive)).2 k.2 ?_
        have hpair : (g, k.2) = k := by rw [← heq]
        rw [hpair, hwire]
        exact List.mem_cons_self

theorem unheard_step (hids : Function.Injective ids) {s : St Q} (op : Op Q) (hknown : Known ids s) (hs : Unheard s g) :
    Unheard (step time ids s op) g := by
  cases op with
  | signal a =>
    rw [step]
    exact unheard_setGame hs rfl fun _ h => ⟨h.waitStop, h.phase, h.queue⟩
  | play a heroes =>
    rw [step]
    refine unheard_setGame hs ?_ fun _ h => ?_ <;> split_ifs
    · rfl
    · rfl
    · exact ⟨h.waitStop, h.phase, h.queue⟩
    · exact h
  | save a sql =>
    rw [step]
    refine unheard_setGame hs ?_ fun _ h => ?_ <;> split_ifs
    · exact send_ok _ _
    · rfl
    · exact quiet_send h (by rintro ⟨⟩)
    · exact h
  | turn a ranks status now =>
    exact unheard_setGame hs (waits_turn time _ ranks status now).ok fun hok h => quiet_turn time h hok ranks status now
  | saves a =>
    refine unheard_setGame hs (waits_saves _).ok fun _ h => ?_
    rw [Game.saves, h.phase]
    exact h
  | onConnect a => exact unheard_setGame hs (waits_onConnect _).ok fun _ h => quiet_onConnect h
  | connect a =>
    refine unheard_setGame hs (waits_connect _).ok fun _ h => ?_
    rw [Game.connect]
    split_ifs
    · exact h
    · exact ⟨h.waitStop, h.phase, h.queue⟩
  | write a n =>
    rw [step]
    split_ifs
    · have hdrop : Unheard (setGame s a fun G => { G with queue := (s.games a).queue.drop n }) g :=
        unheard_setGame hs rfl fun _ h => ⟨h.waitStop, h.phase, fun hmem => h.queue (List.mem_of_mem_drop hmem)⟩
      refine unheard_setSess hdrop _ le_rfl fun hag hmem hreceive => ?_
      rcases List.mem_append.1 hmem with hmem | hmem
      · exact hmem
      · obtain ⟨hquiet, -⟩ := hs.late.resolve_left (Bool.eq_false_iff.1 hreceive)
        have hsame : a = g := hag
        exact absurd (List.mem_of_mem_take hmem) (hsame ▸ hquiet.queue)
    · exact hs
  | lose a n =>
    rw [step]
    split_ifs
    · have hgame : Unheard (setGame s a fun G => { G with isconnected := false }) g :=
        unheard_setGame hs rfl fun _ h => ⟨h.waitStop, h.phase, h.queue⟩
      exact unheard_setSess hgame _ le_rfl fun _ hmem _ => List.mem_of_mem_take hmem
    · exact hs
  | handle k => exact unheard_handle hids hknown hs k
  | onClose k =>
    have hclosed := unheard_setSess hs k (h := fun x => { x with closed := true }) le_rfl fun _ h _ => h
    exact ⟨hclosed.ok, hclosed.acks, hclosed.late.imp (same_removeGame _ _ k).receiveCoseMsg.trans fun h => h⟩
  | update diff => exact ⟨hs.ok, hs.acks, hs.late.imp (same_update _ diff).receiveCoseMsg.trans fun h => h⟩
  | saveAllHeroesOk k =>
    rw [step]
    split_ifs with hacks
    · have hne : k.1 ≠ g := by
        rintro rfl
        exact absurd (hs.acks k.2) hacks.2.ne'
      have hless := unheard_setSess hs k (h := fun x => { x with acks := x.acks - 1 }) (Nat.sub_le _ _) fun _ h _ => h
      refine ⟨?_, hless.acks, ?_⟩
      · rw [setGame_of_ne _ _ _ hne.symm]
        exact hless.ok
      · rw [setGame_of_ne _ _ _ hne.symm]
        exact hless.late
    · exact hs
  | dropAck k =>
    rw [step]
    exact unheard_setSess hs k (Nat.sub_le _ _) fun _ h _ => h

/-- **Never.** A game server that is not heard never stops: its message was lost, or another one has been answered. -/
theorem never_stops (hids : Function.Injective ids) (heroes : ℕ → Std.TreeMap ℕ DreamHero) (ops : List (Op Q))
    (hunheard : Unheard (run (step time ids) (start heroes) ops) g) (more : List (Op Q)) :
    ((run (step time ids) (start heroes) (ops ++ more)).games g).stop = false := by
  have hstep (s : St Q) (op : Op Q) (hs : Once s ∧ Known ids s ∧ Unheard s g) :
      Once (step time ids s op) ∧ Known ids (step time ids s op) ∧ Unheard (step time ids s op) g :=
    ⟨once_step time ids s op hs.1, known_step time s op hs.2.1, unheard_step time hids op hs.2.1 hs.2.2⟩
  have honce := inv_run_all (once_step time ids) ops (once_start heroes)
  have hstart : Known ids (start heroes : St Q) := known_start heroes
  have hknown := inv_run_all (known_step time) ops hstart
  obtain ⟨honce, -, hend⟩ := inv_run_all hstep more ⟨honce, hknown, hunheard⟩
  rw [run_append]
  by_contra hstop
  have hok := honce.stops g (Or.inl (Bool.not_eq_false _ ▸ hstop))
  exact Bool.false_ne_true (hend.ok.symm.trans hok)

/-- the message is sent while there is no connection, and then there is one -/
theorem never_stops_alone : ((run (step (fun _ => "") id) (start fun _ => ∅)
    ([.signal 1, .turn 1 [] () 0, .saves 1, .saves 1, .saves 1] ++
      ([.onConnect 1, .connect 1, .turn 1 [] () 1, .write 1 9, .handle (1, 1), .update 9000] : List (Op Unit)))).games
      1).stop = false :=
  never_stops _ Function.injective_id _ _
    ⟨rfl, fun _ => rfl, Or.inr ⟨⟨rfl, rfl, List.not_mem_nil⟩, fun _ => List.not_mem_nil⟩⟩ _

end DreamHeroes.Closing

/-
What the database server has accepted when a game server stops (`DreamHeroManager::SaveDreamHeroes`,
`DBQuestManager::saveSqlData` and `saveToClose`): all that `setStop` has saved, as long as the connection of this game
server held meanwhile. Nothing is asked of the others.

- `Told`: a game server sends the message once until it is answered, right behind what it saves.
- `Links`: what a session handles is a piece of what its game server has been given to send. The pieces of the
  connections follow each other, and end where the connection broke.
- `Saved`: up to the message, what a session has handled has been accepted. A session that is answered has been
  registered, so its piece begins before what was saved (`kept_seen`).
- `kept_accepted`: along the runs that are `Steady` for the game server.
-/
import Mathlib.Tactic
import DreamHeroes.Link.Closing

namespace DreamHeroes.Closing

open DreamHeroes.Lib DreamHeroes.Hero

variable {Q : Type*} (time : ℕ → String) {ids : ℕ → ℕ} {s : St Q} {g : ℕ}

/-! ## What was saved -/

def sqls (l : List (ToDB Q)) : List (Sql Q) := l.filterMap fun
  | .saveData sql => some sql
  | _ => none

theorem sqls_append (a b : List (ToDB Q)) : sqls (a ++ b) = sqls a ++ sqls b := List.filterMap_append

theorem sqls_saveData (l : List (Sql Q)) : sqls (l.map .saveData) = l := by
  induction l with
  | nil => rfl
  | cons sql l ih => exact congrArg (sql :: ·) ih

theorem saveAll_not_mem (l : List (Sql Q)) : ToDB.saveAll ∉ l.map ToDB.saveData := by simp

theorem register_not_mem (l : List (Sql Q)) : ToDB.register ∉ l.map ToDB.saveData := by simp

/-- `setStop` has begun -/
def Game.Begun (G : Game Q) : Prop := G.waitStop = true ∨ ∃ rest, G.phase = .setStop rest

/-- until it is answered, the game server sends the message once, right behind what `setStop` saves -/
structure Told (G : Game Q) : Prop where
  before : ¬G.Begun → ToDB.saveAll ∉ G.pushed
  during : ∀ rest, G.phase = .setStop rest → G.waitStop = false ∧ ∃ first done, G.pushed = first ++ done ∧
    ToDB.saveAll ∉ first ∧ done ++ rest = saveDreamHeroes G.kept
  after : G.waitStop = true → G.saveAllHeroesOk = false → ∃ first more,
    G.pushed = first ++ (saveDreamHeroes G.kept ++ more) ∧ ToDB.saveAll ∉ first ∧ ToDB.saveAll ∉ more
  checking : ∀ rest, G.phase = .checkStop rest → G.waitStop = true ∧ G.saveAllHeroesOk = true

/-- the statements are in one piece in what was pushed, with the message right behind them -/
theorem Told.split {G : Game Q} (hG : Told G) (hok : G.saveAllHeroesOk = false) (hmem : ToDB.saveAll ∈ G.pushed) :
    ∃ first more, G.pushed = first ++ G.kept.map .saveData ++ .saveAll :: more ∧
      ToDB.saveAll ∉ first ++ G.kept.map .saveData ∧ ToDB.saveAll ∉ more := by
  have hmap (first : List (ToDB Q)) (hfirst : ToDB.saveAll ∉ first) : ToDB.saveAll ∉ first ++ G.kept.map .saveData := by
    rw [List.mem_append, not_or]
    exact ⟨hfirst, saveAll_not_mem _⟩
  by_cases hwait : G.waitStop = true
  · obtain ⟨first, more, hpushed, hfirst, hmore⟩ := hG.after hwait hok
    refine ⟨first, more, ?_, hmap first hfirst, hmore⟩
    rw [hpushed, saveDreamHeroes]
    simp
  · have hbegun : G.Begun := by
      by_contra h
      exact hG.before h hmem
    obtain ⟨rest, hphase⟩ := hbegun.resolve_left hwait
    obtain ⟨-, first, done, hpushed, hfirst, hdone⟩ := hG.during rest hphase
    -- the message is the last that is sent
    have hlast : ToDB.saveAll ∈ done := by
      rw [hpushed] at hmem
      exact (List.mem_append.1 hmem).resolve_left hfirst
    have hrest : rest = [] := by
      by_contra hne
      obtain ⟨init, last, rfl⟩ := List.eq_nil_or_concat rest |>.resolve_left hne
      rw [saveDreamHeroes, List.concat_eq_append, ← List.append_assoc] at hdone
      obtain ⟨hinit, -⟩ := List.append_inj' hdone rfl
      exact saveAll_not_mem G.kept (hinit ▸ List.mem_append_left _ hlast)
    rw [hrest, List.append_nil] at hdone
    refine ⟨first, [], ?_, hmap first hfirst, List.not_mem_nil⟩
    rw [hpushed, hdone, saveDreamHeroes, List.append_assoc]

/-- a step of the main thread; `followed` is what it takes to send the message right behind what is saved -/
structure Advances (followed : Prop) (G G' : Game Q) : Prop where
  more : ∃ l, G'.pushed = G.pushed ++ l ∧ G'.queue = G.queue ++ l
  isconnected : G'.isconnected = G.isconnected
  session : G'.session = G.session
  begun : G.Begun → G'.Begun ∧ G'.kept = G.kept
  told : followed → Told G → Told G'

variable {followed : Prop}

theorem Advances.refl (G : Game Q) : Advances followed G G :=
  ⟨⟨[], (List.append_nil _).symm, (List.append_nil _).symm⟩, rfl, rfl, fun h => ⟨h, rfl⟩, fun _ => id⟩

theorem send_more (G : Game Q) (m : ToDB Q) : ∃ l, (G.send m).pushed = G.pushed ++ l ∧ (G.send m).queue = G.queue ++ l ∧
    (∀ x ∈ l, x = m) ∧ (G.send m).isconnected = G.isconnected ∧ (G.send m).session = G.session := by
  rw [Game.send]
  split_ifs
  · exact ⟨[m], rfl, rfl, fun x hx => List.mem_singleton.1 hx, rfl, rfl⟩
  · exact ⟨[], (List.append_nil _).symm, (List.append_nil _).symm, fun x hx => absurd hx List.not_mem_nil, rfl, rfl⟩

/-- in `runOnce` -/
theorem advances_send {G : Game Q} (hloop : G.phase = .loop) {m : ToDB Q} (hm : m ≠ .saveAll) :
    Advances followed G (G.send m) := by
  obtain ⟨l, hpushed, hqueue, hall, hconnected, hsession⟩ := send_more G m
  have hl : ToDB.saveAll ∉ l := fun h => hm (hall _ h).symm
  have hbegun : (G.send m).Begun ↔ G.Begun := by
    rw [Game.Begun, Game.Begun, send_waitStop, send_phase]
  refine ⟨⟨l, hpushed, hqueue⟩, hconnected, hsession, fun h => ⟨hbegun.2 h, send_kept G m⟩, fun _ h => ⟨?_, ?_, ?_, ?_⟩⟩
  · rw [hbegun, hpushed]
    exact fun hnot hmem => (List.mem_append.1 hmem).elim (h.before hnot) hl
  · intro rest hrest
    rw [send_phase, hloop] at hrest
    cases hrest
  · rw [send_waitStop, send_ok, send_kept]
    intro hwait hok
    obtain ⟨first, more, hfirst, hnotfirst, hnotmore⟩ := h.after hwait hok
    refine ⟨first, more ++ l, ?_, hnotfirst, fun hmem => (List.mem_append.1 hmem).elim hnotmore hl⟩
    rw [hpushed, hfirst, List.append_assoc, List.append_assoc]
  · intro rest hrest
    rw [send_phase, hloop] at hrest
    cases hrest

theorem inLoop_iff (p : Phase Q) : p.inLoop = true ↔ p = .loop := by
  cases p <;> simp [Phase.inLoop]

theorem advances_onConnect (G : Game Q) : Advances followed G G.onConnect := by
  rw [Game.onConnect]
  split_ifs with h
  · have hsend : Advances followed G (G.send .register) := advances_send ((inLoop_iff _).1 h.1.1) (by rintro ⟨⟩)
    refine ⟨hsend.more, hsend.isconnected, hsend.session, hsend.begun, fun hfollowed hG => ?_⟩
    have htold := hsend.told hfollowed hG
    exact ⟨htold.before, htold.during, htold.after, htold.checking⟩
  · exact .refl G

theorem advances_turn (G : Game Q) (ranks : List Q) (status : Q) (now : ℕ) :
    Advances followed G (G.turn time ranks status now) := by
  have hnil (l : List (ToDB Q)) : l = l ++ [] := (List.append_nil l).symm
  rw [Game.turn]
  dsimp only
  split_ifs with hruns hwait hok hsignalled
  · refine ⟨⟨[], hnil _, hnil _⟩, rfl, rfl, fun _ => ⟨Or.inl hwait, rfl⟩, fun _ h => ⟨?_, ?_, ?_, ?_⟩⟩
    · exact fun hnot => absurd (Or.inl hwait) hnot
    · exact fun _ hrest => by cases hrest
    · exact fun _ hnot => absurd (hok.symm.trans hnot) (by decide)
    · exact fun _ _ => ⟨hwait, hok⟩
  · exact .refl G
  · have hloop := (inLoop_iff _).1 hruns.1
    have hnot : ¬G.Begun := by
      rintro (h | ⟨rest, h⟩)
      · exact hwait h
      · rw [hloop] at h
        cases h
    refine ⟨⟨[], hnil _, hnil _⟩, rfl, rfl, fun h => absurd h hnot, fun _ h => ⟨?_, ?_, ?_, ?_⟩⟩
    · exact fun hno => absurd (Or.inr ⟨_, rfl⟩) hno
    · intro rest hrest
      cases hrest
      exact ⟨Bool.eq_false_iff.2 hwait, G.pushed, [], hnil _, h.before hnot, rfl⟩
    · exact fun h => absurd h hwait
    · exact fun _ hrest => by cases hrest
  · exact .refl G
  · exact .refl G

/-- `setStop` has something to send -/
def Phase.sending : Phase Q → Bool
  | .setStop (_ :: _) => true
  | _ => false

/-- as long as `setStop` finds the connection -/
theorem advances_saves {G : Game Q} (hsteady : followed → G.phase.sending = true → G.isconnected = true) :
    Advances followed G G.saves := by
  have hnil (l : List (ToDB Q)) : l = l ++ [] := (List.append_nil l).symm
  rw [Game.saves]
  split
  · exact .refl G
  · rename_i m rest hphase
    obtain ⟨l, hpushed, hqueue, -, hconnected, hsession⟩ := send_more G m
    refine ⟨⟨l, hpushed, hqueue⟩, hconnected, hsession, fun _ => ⟨Or.inr ⟨rest, rfl⟩, send_kept G m⟩,
      fun hfollowed h => ?_⟩
    obtain ⟨hwait, first, done, hfirst, hnotfirst, hdone⟩ := h.during _ hphase
    have hsame : (G.send m).waitStop = false := (send_waitStop G m).trans hwait
    refine ⟨fun hno => absurd (Or.inr ⟨_, rfl⟩) hno, fun rest' hrest => ⟨hsame, ?_⟩, fun htrue => ?_,
      (fun _ hrest => by cases hrest)⟩
    · cases hrest
      refine ⟨first, done ++ [m], ?_, hnotfirst, ?_⟩
      · rw [Game.send, if_pos (hsteady hfollowed (hphase ▸ rfl))]
        dsimp only
        rw [hfirst, List.append_assoc]
      · dsimp only
        rw [send_kept, ← hdone, List.append_assoc]
        rfl
    · exact absurd (hsame.symm.trans htrue) Bool.false_ne_true
  · rename_i hphase
    refine ⟨⟨[], hnil _, hnil _⟩, rfl, rfl, fun _ => ⟨Or.inl rfl, rfl⟩, fun _ h => ?_⟩
    obtain ⟨-, first, done, hfirst, hnotfirst, hdone⟩ := h.during _ hphase
    rw [List.append_nil] at hdone
    refine ⟨fun hno => absurd (Or.inl rfl) hno, (fun _ hrest => by cases hrest), fun _ _ => ?_,
      (fun _ hrest => by cases hrest)⟩
    exact ⟨first, [], by rw [hfirst, hdone, List.append_nil], hnotfirst, List.not_mem_nil⟩
  · rename_i m rest hphase
    obtain ⟨l, hpushed, hqueue, -, hconnected, hsession⟩ := send_more G m
    have hbegun (h : Told G) : (G.send m).waitStop = true ∧ (G.send m).saveAllHeroesOk = true := by
      rw [send_waitStop, send_ok]
      exact h.checking _ hphase
    refine ⟨⟨l, hpushed, hqueue⟩, hconnected, hsession, fun h => ?_, fun _ h => ?_⟩
    · rcases h with h | ⟨rest', h⟩
      · exact ⟨Or.inl ((send_waitStop G m).trans h), send_kept G m⟩
      · exact absurd (hphase.symm.trans h) (by rintro ⟨⟩)
    · refine ⟨fun hno => absurd (Or.inl (hbegun h).1) hno, (fun _ hrest => by cases hrest), fun _ hnot => ?_,
        fun _ _ => hbegun h⟩
      exact absurd ((hbegun h).2.symm.trans hnot) (by decide)
  · rename_i hphase
    refine ⟨⟨[], hnil _, hnil _⟩, rfl, rfl, fun h => ?_, fun _ h => ?_⟩
    · rcases h with h | ⟨rest', h⟩
      · exact ⟨Or.inl h, rfl⟩
      · exact absurd (hphase.symm.trans h) (by rintro ⟨⟩)
    · obtain ⟨hwait, hok⟩ := h.checking _ hphase
      refine ⟨fun hno => absurd (Or.inl hwait) hno, (fun _ hrest => by cases hrest), fun _ hnot => ?_,
        (fun _ hrest => by cases hrest)⟩
      exact absurd (hok.symm.trans hnot) (by decide)

/-! ## The streams -/

/-- what a session has handled and will handle is a piece of what its game server has been given to send -/
structure Links (s : St Q) : Prop where
  queue : ∀ g, (s.games g).queue <:+ (s.games g).pushed
  stream : ∀ g, (s.games g).isconnected = true → (s.sess (g, (s.games g).session)).seen ++
    (s.sess (g, (s.games g).session)).wire ++ (s.games g).queue <:+ (s.games g).pushed
  past : ∀ k, (s.sess k).seen ++ (s.sess k).wire <:+: (s.games k.1).pushed
  fresh : ∀ k, (s.games k.1).session < k.2 → (s.sess k).seen = [] ∧ (s.sess k).wire = []

theorem suffix_append {α : Type*} {a b : List α} (h : a <:+ b) (l : List α) : a ++ l <:+ b ++ l := by
  obtain ⟨t, rfl⟩ := h
  exact ⟨t, (List.append_assoc t a l).symm⟩

theorem links_setGame (hs : Links s) (g : ℕ) {f : Game Q → Game Q} (hmore : ∃ l, (f (s.games g)).pushed =
    (s.games g).pushed ++ l ∧ (f (s.games g)).queue = (s.games g).queue ++ l)
    (hsame : (f (s.games g)).isconnected = (s.games g).isconnected)
    (hsession : (f (s.games g)).session = (s.games g).session) : Links (setGame s g f) := by
  obtain ⟨l, hpushed, hqueue⟩ := hmore
  refine ⟨fun a => ?_, fun a => ?_, fun k => ?_, fun k => ?_⟩
  · rcases eq_or_ne a g with rfl | ha
    · rw [setGame_self, hpushed, hqueue]
      exact suffix_append (hs.queue a) l
    · rw [setGame_of_ne s g f ha]
      exact hs.queue a
  · rcases eq_or_ne a g with rfl | ha
    · rw [setGame_self, hpushed, hqueue, hsame, hsession, ← List.append_assoc]
      exact fun hconnected => suffix_append (hs.stream a hconnected) l
    · rw [setGame_of_ne s g f ha]
      exact hs.stream a
  · rcases eq_or_ne k.1 g with heq | ha
    · rw [heq, setGame_self, hpushed]
      exact (heq ▸ hs.past k).trans (List.prefix_append _ _).isInfix
    · rw [setGame_of_ne s g f ha]
      exact hs.past k
  · rcases eq_or_ne k.1 g with heq | ha
    · rw [heq, setGame_self, hsession]
      exact heq ▸ hs.fresh k
    · rw [setGame_of_ne s g f ha]
      exact hs.fresh k

theorem links_connect (hs : Links s) (g : ℕ) : Links (setGame s g Game.connect) := by
  by_cases hconnected : (s.games g).isconnected = true
  · have hsame : (s.games g).connect = s.games g := if_pos hconnected
    rw [setGame_eq_self s g Game.connect hsame]
    exact hs
  have hconnect : (s.games g).connect = { s.games g with
      isconnected := true, session := (s.games g).session + 1, callbacks := (s.games g).callbacks + 1 } :=
    if_neg hconnected
  refine ⟨fun a => ?_, fun a => ?_, fun k => ?_, fun k => ?_⟩
  · rcases eq_or_ne a g with rfl | ha
    · rw [setGame_self, hconnect]
      exact hs.queue a
    · rw [setGame_of_ne s g _ ha]
      exact hs.queue a
  · rcases eq_or_ne a g with rfl | ha
    · intro _
      obtain ⟨hseen, hwire⟩ := hs.fresh (a, (s.games a).session + 1) (Nat.lt_succ_self _)
      rw [setGame_self, setGame_sess, hconnect, hseen, hwire]
      exact hs.queue a
    · rw [setGame_of_ne s g _ ha]
      exact hs.stream a
  · rcases eq_or_ne k.1 g with heq | ha
    · rw [heq, setGame_self, hconnect]
      exact heq ▸ hs.past k
    · rw [setGame_of_ne s g _ ha]
      exact hs.past k
  · rcases eq_or_ne k.1 g with heq | ha
    · rw [heq, setGame_self, hconnect]
      exact fun hless => hs.fresh k (heq ▸ (Nat.lt_succ_self _).trans hless)
    · rw [setGame_of_ne s g _ ha]
      exact hs.fresh k

theorem links_write (hs : Links s) (g n : ℕ) (hconnected : (s.games g).isconnected = true) :
    Links (setSess (setGame s g fun G => { G with queue := (s.games g).queue.drop n }) (g, (s.games g).session) fun x =>
      { x with wire := x.wire ++ (s.games g).queue.take n }) := by
  have hsame : (s.sess (g, (s.games g).session)).seen ++ ((s.sess (g, (s.games g).session)).wire ++
      (s.games g).queue.take n) ++ (s.games g).queue.drop n = (s.sess (g, (s.games g).session)).seen ++
      (s.sess (g, (s.games g).session)).wire ++ (s.games g).queue := by
    rw [List.append_assoc, List.append_assoc, List.take_append_drop, ← List.append_assoc]
  have hstream := hs.stream g hconnected
  rw [← hsame] at hstream
  refine ⟨fun a => ?_, fun a => ?_, fun k => ?_, fun k => ?_⟩
  · rcases eq_or_ne a g with rfl | ha
    · rw [setSess_games, setGame_self]
      exact (List.drop_suffix n _).trans (hs.queue a)
    · rw [setSess_games, setGame_of_ne s g _ ha]
      exact hs.queue a
  · rcases eq_or_ne a g with rfl | ha
    · rw [setSess_games, setGame_self, setSess_self]
      exact fun _ => hstream
    · rw [setSess_games, setGame_of_ne s g _ ha, setSess_of_ne _ _ _ fun h => ha (congrArg Prod.fst h)]
      exact hs.stream a
  · by_cases hk : k = (g, (s.games g).session)
    · rw [hk, setSess_games, setGame_self, setSess_self]
      exact (List.prefix_append _ _).isInfix.trans hstream.isInfix
    · rw [setSess_of_ne _ _ _ hk, setSess_games]
      rcases eq_or_ne k.1 g with heq | ha
      · rw [heq, setGame_self]
        exact heq ▸ hs.past k
      · rw [setGame_of_ne s g _ ha]
        exact hs.past k
  · intro hless
    rw [setSess_games] at hless
    have hold : (s.games k.1).session < k.2 := by
      rcases eq_or_ne k.1 g with heq | ha
      · rw [heq, setGame_self] at hless
        exact heq ▸ hless
      · rwa [setGame_of_ne s g _ ha] at hless
    have hk : k ≠ (g, (s.games g).session) := by
      rintro rfl
      exact lt_irrefl _ hold
    rw [setSess_of_ne _ _ _ hk]
    exact hs.fresh k hold

/-- the connection breaks -/
theorem links_break (hs : Links s) (g : ℕ) : Links (setGame s g fun G => { G with isconnected := false }) := by
  refine ⟨fun a => ?_, fun a => ?_, fun k => ?_, fun k => ?_⟩
  · rcases eq_or_ne a g with rfl | ha
    · rw [setGame_self]
      exact hs.queue a
    · rw [setGame_of_ne s g _ ha]
      exact hs.queue a
  · rcases eq_or_ne a g with rfl | ha
    · rw [setGame_self]
      exact fun h => absurd h Bool.false_ne_true
    · rw [setGame_of_ne s g _ ha]
      exact hs.stream a
  · rcases eq_or_ne k.1 g with heq | ha
    · rw [heq, setGame_self]
      exact heq ▸ hs.past k
    · rw [setGame_of_ne s g _ ha]
      exact hs.past k
  · rcases eq_or_ne k.1 g with heq | ha
    · rw [heq, setGame_self]
      exact heq ▸ hs.fresh k
    · rw [setGame_of_ne s g _ ha]
      exact hs.fresh k

/-- a session goes on, or loses the end of its stream when it is not the one of a connection -/
theorem links_setSess (hs : Links s) (k : ℕ × ℕ) {h : Session Q → Session Q}
    (hshort : (h (s.sess k)).seen ++ (h (s.sess k)).wire <+: (s.sess k).seen ++ (s.sess k).wire)
    (hsame : (s.games k.1).isconnected = true → k.2 = (s.games k.1).session →
      (h (s.sess k)).seen ++ (h (s.sess k)).wire = (s.sess k).seen ++ (s.sess k).wire) : Links (setSess s k h) := by
  refine ⟨hs.queue, fun a hconnected => ?_, fun j => ?_, fun j hless => ?_⟩
  · by_cases hk : (a, (s.games a).session) = k
    · subst hk
      rw [setSess_games, setSess_self, hsame hconnected rfl]
      exact hs.stream a hconnected
    · rw [setSess_games, setSess_of_ne s k h hk]
      exact hs.stream a hconnected
  · rcases eq_or_ne j k with rfl | hne
    · rw [setSess_self]
      exact hshort.isInfix.trans (hs.past j)
    · rw [setSess_of_ne s k h hne]
      exact hs.past j
  · rcases eq_or_ne j k with rfl | hne
    · obtain ⟨hseen, hwire⟩ := hs.fresh j hless
      rw [hseen, hwire] at hshort
      rw [setSess_self]
      exact List.append_eq_nil_iff.1 (List.prefix_nil.1 hshort)
    · rw [setSess_of_ne s k h hne]
      exact hs.fresh j hless

theorem links_db (hs : Links s) (d : DBServer Q) : Links { s with db := d } := ⟨hs.queue, hs.stream, hs.past, hs.fresh⟩

theorem saveToClose_games (s : St Q) (gsid : ℕ) : (saveToClose s gsid).games = s.games := by
  rw [saveToClose]
  split_ifs
  · rfl
  · dsimp only
    split <;> rfl

theorem handle_games (s : St Q) (k : ℕ × ℕ) : (handle ids s k).games = s.games := by
  rw [handle]
  split_ifs
  · rfl
  · split
    · rfl
    · dsimp only
      split
      · rfl
      · split_ifs <;> rfl
      · exact saveToClose_games _ _

theorem links_saveToClose (hs : Links s) (gsid : ℕ) : Links (saveToClose s gsid) := by
  rw [saveToClose]
  split_ifs
  · exact hs
  · dsimp only
    split
    · rename_i k _
      exact links_setSess (links_db hs _) k (h := fun x => { x with acks := x.acks + 1 })
        (List.prefix_refl _) fun _ _ => rfl
    · exact links_db hs _

theorem links_handle (hs : Links s) (k : ℕ × ℕ) : Links (handle ids s k) := by
  rw [handle]
  split_ifs
  · exact hs
  · split
    · exact hs
    · rename_i m rest hwire
      have hsame : (s.sess k).seen ++ [m] ++ rest = (s.sess k).seen ++ (s.sess k).wire := by
        rw [hwire, List.append_assoc, List.singleton_append]
      have hseen :=
        links_setSess hs k (h := fun x => { x with wire := rest, seen := x.seen ++ [m] }) (hsame ▸ List.prefix_refl _)
        fun _ _ => hsame
      dsimp only
      split
      · have hid :=
          links_setSess hseen k (h := fun x => { x with gameId := ids k.1 }) (List.prefix_refl _) fun _ _ => rfl
        exact links_db hid _
      · split_ifs
        · exact links_db hseen _
        · exact hseen
      · exact links_saveToClose hseen _

/-! ## What is accepted -/

structure Saved (g : ℕ) (s : St Q) : Prop where
  registered : ∀ k, (s.sess k).gameId ≠ 0 → ToDB.register ∈ (s.sess k).seen
  running : s.db.receiveCoseMsg = false → s.db.running = true ∧ s.db.event = none
  saved : s.db.receiveCoseMsg = false → ∀ k, ((sqls (s.sess k).seen).map (Prod.mk k.1)).Sublist s.db.accepted
  answered : s.db.answered = some g →
    (s.games g).Begun ∧ ((s.games g).kept.map (Prod.mk g)).Sublist s.db.accepted

theorem saved_setGame (hs : Saved g s) (a : ℕ) {f : Game Q → Game Q}
    (hf : (s.games a).Begun → (f (s.games a)).Begun ∧ (f (s.games a)).kept = (s.games a).kept) :
    Saved g (setGame s a f) := by
  refine ⟨hs.registered, hs.running, hs.saved, fun hg => ?_⟩
  obtain ⟨hbegun, hkept⟩ := hs.answered hg
  rcases eq_or_ne g a with rfl | hne
  · obtain ⟨hstill, hsame⟩ := hf hbegun
    rw [setGame_self, hsame]
    exact ⟨hstill, hkept⟩
  · rw [setGame_of_ne s a f hne]
    exact ⟨hbegun, hkept⟩

theorem saved_setSess (hs : Saved g s) (k : ℕ × ℕ) {h : Session Q → Session Q}
    (hseen : (h (s.sess k)).seen = (s.sess k).seen)
    (hid : (h (s.sess k)).gameId ≠ 0 → ToDB.register ∈ (s.sess k).seen) : Saved g (setSess s k h) := by
  refine ⟨fun j => ?_, hs.running, fun hreceive j => ?_, hs.answered⟩
  · rcases eq_or_ne j k with rfl | hne
    · rw [setSess_self, hseen]
      exact hid
    · rw [setSess_of_ne s k h hne]
      exact hs.registered j
  · rcases eq_or_ne j k with rfl | hne
    · rw [setSess_self, hseen]
      exact hs.saved hreceive j
    · rw [setSess_of_ne s k h hne]
      exact hs.saved hreceive j

/-- a session handles a message; it is a statement that is accepted, or none -/
theorem saved_seen (hs : Saved g s) (k : ℕ × ℕ) (m : ToDB Q) (rest : List (ToDB Q)) {accepted : List (ℕ × Sql Q)}
    (hgrows : s.db.accepted.Sublist accepted)
    (haccepted : s.db.receiveCoseMsg = false → accepted = s.db.accepted ++ (sqls [m]).map (Prod.mk k.1)) :
    Saved g { setSess s k fun x => { x with wire := rest, seen := x.seen ++ [m] } with
      db := { s.db with accepted := accepted } } := by
  refine ⟨fun j => ?_, hs.running, fun hreceive j => ?_, fun hg => ?_⟩
  · rcases eq_or_ne j k with rfl | hne
    · rw [setSess_self]
      exact fun hid => List.mem_append_left _ (hs.registered j hid)
    · rw [setSess_of_ne s k _ hne]
      exact hs.registered j
  · rw [haccepted hreceive]
    rcases eq_or_ne j k with rfl | hne
    · rw [setSess_self]
      dsimp only
      rw [sqls_append, List.map_append]
      exact (hs.saved hreceive j).append (List.Sublist.refl _)
    · rw [setSess_of_ne s k _ hne]
      exact (hs.saved hreceive j).trans (List.sublist_append_left _ _)
  · obtain ⟨hbegun, hkept⟩ := hs.answered hg
    exact ⟨hbegun, hkept.trans hgrows⟩

/-- behind the registration, the session has handled all that `setStop` has saved -/
theorem kept_seen {G : Game Q} (htold : Told G) (hok : G.saveAllHeroesOk = false) {seen rest : List (ToDB Q)}
    (hpiece : seen ++ .saveAll :: rest <:+: G.pushed) (hregister : ToDB.register ∈ seen) :
    G.Begun ∧ G.kept.Sublist (sqls seen) := by
  have hmem : ToDB.saveAll ∈ G.pushed := hpiece.subset (List.mem_append_right _ List.mem_cons_self)
  refine ⟨by_contra fun h => htold.before h hmem, ?_⟩
  obtain ⟨first, more, hsplit, hfirst, hmore⟩ := htold.split hok hmem
  obtain ⟨before, behind, hpushed⟩ := hpiece
  have heq : (before ++ seen) ++ .saveAll :: (rest ++ behind) = (first ++ G.kept.map .saveData) ++
    .saveAll :: more := by
    rw [← hsplit, ← hpushed]
    simp
  -- the message is there once
  have hone : before ++ seen = first ++ G.kept.map .saveData := by
    rcases List.append_eq_append_iff.1 heq with ⟨l, hl, htail⟩ | ⟨l, hl, htail⟩
    · cases l with
      | nil => rw [hl, List.append_nil]
      | cons m l =>
        have hm : ToDB.saveAll = m := (List.cons.inj htail).1
        exact absurd (hl ▸ List.mem_append_right _ (hm ▸ List.mem_cons_self)) hfirst
    · cases l with
      | nil => rw [hl, List.append_nil]
      | cons m l =>
        have hm : more = l ++ .saveAll :: (rest ++ behind) := (List.cons.inj htail).2
        exact absurd (hm ▸ List.mem_append_right l List.mem_cons_self) hmore
  have hsuffix : G.kept.map .saveData <:+ seen := by
    rcases List.append_eq_append_iff.1 hone with ⟨l, -, hl⟩ | ⟨l, -, hl⟩
    · exact ⟨l, hl.symm⟩
    · exact absurd (hl ▸ List.mem_append_right l hregister) (register_not_mem _)
  obtain ⟨l, rfl⟩ := hsuffix
  rw [sqls_append, sqls_saveData]
  exact List.sublist_append_right _ _

/-- the database server answers the game server whose message it handles, if it answers at all -/
theorem recipient_same (hids : Function.Injective ids) (hknown : Known ids s) {k k' : ℕ × ℕ}
    (hto : recipient s.db (s.sess k).gameId = some k') : k'.1 = k.1 ∧ (s.sess k).gameId ≠ 0 := by
  rw [recipient] at hto
  split_ifs at hto with hvalid
  have hne : (s.sess k).gameId ≠ 0 := hvalid.1.ne'
  exact ⟨hids ((hknown.games _ _ hto).trans ((hknown.gameId k).resolve_left hne)), hne⟩

theorem saved_saveToClose (hs : Saved g s) {gsid a : ℕ}
    (hto : ∀ k', recipient s.db gsid = some k' → k'.1 = a)
    (ha : s.db.receiveCoseMsg = false → recipient s.db gsid ≠ none → a = g →
      (s.games a).Begun ∧ ((s.games a).kept.map (Prod.mk a)).Sublist s.db.accepted) :
    Saved g (saveToClose s gsid) := by
  rw [saveToClose]
  split_ifs with hreceive
  · exact hs
  · have hdone : Saved g { s with db := { s.db with receiveCoseMsg := true, closeGsId := gsid, event := some 0 } } :=
      ⟨hs.registered, fun h => absurd h.symm Bool.false_ne_true, fun h => absurd h.symm Bool.false_ne_true, hs.answered⟩
    dsimp only
    split
    · rename_i k' hk'
      have hsame : k'.1 = a := hto k' hk'
      have hbegun := ha (Bool.eq_false_iff.2 hreceive) (by
        intro hnone
        exact Option.some_ne_none k' (hk'.symm.trans hnone))
      have hanswered : Saved g { s with db := { s.db with
          receiveCoseMsg := true, closeGsId := gsid, event := some 0, answered := some k'.1 } } :=
        ⟨hdone.registered, hdone.running, hdone.saved, fun hg => by
          have hag : a = g := hsame.symm.trans (Option.some.inj hg)
          exact hag ▸ hbegun hag⟩
      exact saved_setSess hanswered k' (h := fun x => { x with acks := x.acks + 1 }) rfl (hs.registered k')
    · exact hdone

/-- the rest of the database server; without the timer nothing stops it -/
theorem saved_same (hs : Saved g s) {d : DBServer Q} (hd : Same s.db d)
    (hrunning : s.db.running = true → s.db.event = none → d.running = true ∧ d.event = none) :
    Saved g { s with db := d } := by
  refine ⟨hs.registered, fun h => ?_, fun h k => ?_, fun hg => ?_⟩
  · obtain ⟨hrun, hevent⟩ := hs.running (hd.receiveCoseMsg.symm.trans h)
    exact hrunning hrun hevent
  · rw [hd.accepted]
    exact hs.saved (hd.receiveCoseMsg.symm.trans h) k
  · rw [hd.accepted]
    exact hs.answered (hd.answered.symm.trans hg)

theorem saved_addGame (hs : Saved g s) (gs : ℕ) (k : ℕ × ℕ) : Saved g { s with db := addGame s.db gs k } := by
  refine saved_same hs (same_addGame s.db gs k) fun hrun hevent => ?_
  rw [addGame]
  split_ifs <;> exact ⟨hrun, hevent⟩

theorem saved_removeGame (hs : Saved g s) (gs : ℕ) (k : ℕ × ℕ) : Saved g { s with db := removeGame s.db gs k } := by
  refine saved_same hs (same_removeGame s.db gs k) fun hrun hevent => ?_
  rw [removeGame]
  split_ifs <;> exact ⟨hrun, hevent⟩

theorem saved_handle (hids : Function.Injective ids) (honce : Once s) (hknown : Known ids s)
    (htold : Told (s.games g)) (hlinks : Links s) (hs : Saved g s) (k : ℕ × ℕ) : Saved g (handle ids s k) := by
  rw [handle]
  split_ifs
  · exact hs
  · split
    · exact hs
    · rename_i m rest hwire
      dsimp only
      split
      · have hseen := saved_seen hs k .register rest (List.Sublist.refl s.db.accepted) fun _ =>
          (List.append_nil s.db.accepted).symm
        have hid := saved_setSess hseen k (h := fun x => { x with gameId := ids k.1 }) rfl fun _ => by
          rw [setSess_self]
          exact List.mem_append_right _ (List.mem_singleton_self _)
        exact saved_addGame hid (ids k.1) k
      · rename_i sql
        split_ifs with hrunning
        · exact saved_seen hs k (.saveData sql) rest (List.sublist_append_left _ _) fun _ => rfl
        · exact saved_seen hs k (.saveData sql) rest (List.Sublist.refl s.db.accepted) fun hreceive =>
            absurd (hs.running hreceive).1 hrunning
      · have hseen := saved_seen hs k .saveAll rest (List.Sublist.refl s.db.accepted) fun _ =>
          (List.append_nil s.db.accepted).symm
        have hsess := known_setSess hknown k
          (h := fun x => { x with wire := rest, seen := x.seen ++ [ToDB.saveAll] }) (Or.inl rfl)
        refine saved_saveToClose hseen (fun k' hk' => (recipient_same hids hsess hk').1) fun hreceive hto hsame => ?_
        obtain ⟨k', hk'⟩ := Option.ne_none_iff_exists'.1 hto
        have hid := (recipient_same hids hsess hk').2
        rw [setSess_self] at hid
        -- nobody has been answered yet
        have hok : (s.games k.1).saveAllHeroesOk = false := by
          rw [Bool.eq_false_iff]
          intro h
          have hanswered : s.db.answered ≠ none := by
            rw [honce.ok k.1 h]
            exact Option.some_ne_none _
          exact Bool.false_ne_true (hreceive.symm.trans (honce.answered hanswered))
        obtain ⟨hbegun, hkept⟩ := kept_seen (hsame ▸ htold) hok (hwire ▸ hlinks.past k) (hs.registered k hid)
        exact ⟨hbegun, (hkept.map (Prod.mk k.1)).trans (hs.saved hreceive k)⟩

/-! ## The database server has what was saved -/

structure Kept (ids : ℕ → ℕ) (g : ℕ) (s : St Q) : Prop where
  once : Once s
  known : Known ids s
  told : Told (s.games g)
  links : Links s
  saved : Saved g s

/-- the connection of the game server `g` does not break before its `setStop` has sent everything, and is there when
that begins -/
def Steady (g : ℕ) (s : St Q) : Op Q → Prop
  | .saves a => a = g → (s.games a).phase.sending = true → (s.games a).isconnected = true
  | _ => True

instance decidableSteady (g : ℕ) (s : St Q) : (op : Op Q) → Decidable (Steady g s op)
  | .saves a => inferInstanceAs (Decidable (a = g → (s.games a).phase.sending = true → (s.games a).isconnected = true))
  | .signal _ | .play _ _ | .save _ _ | .turn _ _ _ _ | .onConnect _ | .connect _ | .write _ _ | .lose _ _ | .handle _
  | .onClose _ | .update _ | .saveAllHeroesOk _ | .dropAck _ => isTrue trivial

theorem told_setGame (hs : Told (s.games g)) (a : ℕ) {f : Game Q → Game Q}
    (hf : a = g → Told (s.games a) → Told (f (s.games a))) : Told ((setGame s a f).games g) := by
  rcases eq_or_ne g a with rfl | ha
  · rw [setGame_self]
    exact hf rfl hs
  · rw [setGame_of_ne s a f ha]
    exact hs

/-- what does not concern the message -/
theorem told_congr {G G' : Game Q} (hphase : G'.phase = G.phase) (hwait : G'.waitStop = G.waitStop)
    (hok : G.saveAllHeroesOk = true → G'.saveAllHeroesOk = true) (hkept : G'.kept = G.kept)
    (hpushed : G'.pushed = G.pushed) (hG : Told G) : Told G' := by
  have hbegun : G'.Begun ↔ G.Begun := by
    rw [Game.Begun, Game.Begun, hphase, hwait]
  refine ⟨?_, ?_, ?_, ?_⟩
  · rw [hbegun, hpushed]
    exact hG.before
  · rw [hphase, hwait, hpushed, hkept]
    exact hG.during
  · rw [hwait, hpushed, hkept]
    refine fun htrue hfalse => hG.after htrue ?_
    rw [Bool.eq_false_iff]
    exact fun h => Bool.false_ne_true (hfalse.symm.trans (hok h))
  · rw [hphase, hwait]
    exact fun rest hrest => ⟨(hG.checking rest hrest).1, hok (hG.checking rest hrest).2⟩

theorem advances_congr {G G' : Game Q} (hphase : G'.phase = G.phase) (hwait : G'.waitStop = G.waitStop)
    (hok : G'.saveAllHeroesOk = G.saveAllHeroesOk) (hkept : G'.kept = G.kept) (hpushed : G'.pushed = G.pushed)
    (hqueue : G'.queue = G.queue) (hconnected : G'.isconnected = G.isconnected) (hsession : G'.session = G.session) :
    Advances followed G G' := by
  refine ⟨⟨[], ?_, ?_⟩, hconnected, hsession, fun h => ⟨?_, hkept⟩,
    fun _ => told_congr hphase hwait hok.trans hkept hpushed⟩
  · rw [hpushed, List.append_nil]
  · rw [hqueue, List.append_nil]
  · rwa [Game.Begun, hphase, hwait]

theorem kept_step (hids : Function.Injective ids) (s : St Q) (op : Op Q) (hs : Kept ids g s) (hop : Steady g s op) :
    Kept ids g (step time ids s op) := by
  have honce := once_step time ids s op hs.once
  have hknown := known_step time s op hs.known
  have hgame (a : ℕ) {f : Game Q → Game Q} (hf : Advances (a = g) (s.games a) (f (s.games a)))
      (hstep : step time ids s op = setGame s a f) : Kept ids g (step time ids s op) := by
    refine ⟨honce, hknown, ?_, ?_, ?_⟩ <;> rw [hstep]
    · exact told_setGame hs.told a hf.told
    · exact links_setGame hs.links a hf.more hf.isconnected hf.session
    · exact saved_setGame hs.saved a hf.begun
  cases op with
  | signal a =>
    exact hgame a (f := fun G => { G with signalled := true }) (advances_congr rfl rfl rfl rfl rfl rfl rfl rfl) rfl
  | play a heroes =>
    refine hgame a ?_ rfl
    split_ifs
    · exact advances_congr rfl rfl rfl rfl rfl rfl rfl rfl
    · exact .refl _
  | save a sql =>
    refine hgame a ?_ rfl
    split_ifs with hruns
    · exact advances_send ((inLoop_iff _).1 hruns.1) (by rintro ⟨⟩)
    · exact .refl _
  | turn a ranks status now => exact hgame a (advances_turn time _ ranks status now) rfl
  | saves a => exact hgame a (advances_saves hop) rfl
  | onConnect a => exact hgame a (advances_onConnect _) rfl
  | connect a =>
    refine ⟨honce, hknown, ?_, links_connect hs.links a, ?_⟩
    · refine told_setGame hs.told a fun _ h => ?_
      rw [Game.connect]
      split_ifs
      · exact h
      · exact told_congr (G := s.games a) rfl rfl id rfl rfl h
    · refine saved_setGame hs.saved a fun h => ?_
      rw [Game.connect]
      split_ifs <;> exact ⟨h, rfl⟩
  | write a n =>
    refine ⟨honce, hknown, ?_, ?_, ?_⟩ <;> rw [step] <;> split_ifs with hconnected
    · rw [setSess_games]
      exact told_setGame hs.told a fun _ => told_congr (G := s.games a) rfl rfl id rfl rfl
    · exact hs.told
    · exact links_write hs.links a n hconnected
    · exact hs.links
    · have hqueue : Saved g (setGame s a fun G => { G with queue := (s.games a).queue.drop n }) :=
        saved_setGame hs.saved a fun h => ⟨h, rfl⟩
      exact saved_setSess hqueue (a, (s.games a).session)
        (h := fun x => { x with wire := x.wire ++ (s.games a).queue.take n }) rfl (hs.saved.registered _)
    · exact hs.saved
  | lose a n =>
    refine ⟨honce, hknown, ?_, ?_, ?_⟩ <;> rw [step] <;> split_ifs with hconnected
    · rw [setSess_games]
      exact told_setGame hs.told a fun _ => told_congr (G := s.games a) rfl rfl id rfl rfl
    · exact hs.told
    · refine links_setSess (links_break hs.links a) (a, (s.games a).session)
        (h := fun x => { x with wire := x.wire.take n }) ?_ fun h => ?_
      · exact (List.prefix_append_right_inj _).2 (List.take_prefix n _)
      · rw [setGame_self] at h
        exact absurd h Bool.false_ne_true
    · exact hs.links
    · have hbreak : Saved g (setGame s a fun G => { G with isconnected := false }) :=
        saved_setGame hs.saved a fun h => ⟨h, rfl⟩
      exact saved_setSess hbreak (a, (s.games a).session) (h := fun x => { x with wire := x.wire.take n }) rfl
        (hs.saved.registered _)
    · exact hs.saved
  | handle k =>
    refine ⟨honce, hknown, ?_, ?_, saved_handle hids hs.once hs.known hs.told hs.links hs.saved k⟩
    · rw [step, handle_games]
      exact hs.told
    · exact links_handle hs.links k
  | onClose k =>
    have hlinks :=
      links_setSess hs.links k (h := fun x => { x with closed := true }) (List.prefix_refl _) fun _ _ => rfl
    have hsaved := saved_setSess hs.saved k (h := fun x => { x with closed := true }) rfl (hs.saved.registered k)
    exact ⟨honce, hknown, hs.told, links_db hlinks _, saved_removeGame hsaved _ k⟩
  | update diff =>
    refine ⟨honce, hknown, hs.told, links_db hs.links _, saved_same hs.saved (same_update _ diff) fun hrun hevent => ?_⟩
    rw [update, hevent]
    exact ⟨hrun, hevent⟩
  | saveAllHeroesOk k =>
    refine ⟨honce, hknown, ?_, ?_, ?_⟩ <;> rw [step] <;> split_ifs with hacks
    · exact told_setGame (s := setSess s k _) hs.told k.1 fun _ =>
        told_congr (G := s.games k.1) rfl rfl (fun _ => rfl) rfl rfl
    · exact hs.told
    · have hless :=
        links_setSess hs.links k (h := fun x => { x with acks := x.acks - 1 }) (List.prefix_refl _) fun _ _ => rfl
      exact links_setGame hless k.1 ⟨[], (List.append_nil _).symm, (List.append_nil _).symm⟩ rfl rfl
    · exact hs.links
    · have hless := saved_setSess hs.saved k (h := fun x => { x with acks := x.acks - 1 }) rfl (hs.saved.registered k)
      exact saved_setGame hless k.1 fun h => ⟨h, rfl⟩
    · exact hs.saved
  | dropAck k =>
    have hlinks :=
      links_setSess hs.links k (h := fun x => { x with acks := x.acks - 1 }) (List.prefix_refl _) fun _ _ => rfl
    have hsaved := saved_setSess hs.saved k (h := fun x => { x with acks := x.acks - 1 }) rfl (hs.saved.registered k)
    exact ⟨honce, hknown, hs.told, hlinks, hsaved⟩

theorem kept_start (heroes : ℕ → Std.TreeMap ℕ DreamHero) (g : ℕ) : Kept ids g (start heroes : St Q) where
  once := once_start heroes
  known := known_start heroes
  told := ⟨fun _ => List.not_mem_nil, (fun _ h => by cases h), fun h => absurd h Bool.false_ne_true,
    fun _ h => by cases h⟩
  links := ⟨fun _ => List.suffix_rfl, fun _ h => absurd h Bool.false_ne_true, fun _ => List.infix_rfl,
    fun _ _ => ⟨rfl, rfl⟩⟩
  saved := ⟨fun _ h => absurd rfl h, fun _ => ⟨rfl, rfl⟩, fun _ _ => List.Sublist.refl _,
    fun h => absurd h.symm (Option.some_ne_none _)⟩

/-- **Kept.** When a game server stops whose connection held while its `setStop` was sending, the database server has
accepted all that was saved there, in order, whatever the other game servers and their connections do. -/
theorem kept_accepted (hids : Function.Injective ids) (heroes : ℕ → Std.TreeMap ℕ DreamHero) {ops : List (Op Q)} {g : ℕ}
    (hsteady : Along (step time ids) (Steady g) (start heroes) ops)
    (hstop : ((run (step time ids) (start heroes) ops).games g).stop = true) :
    (((run (step time ids) (start heroes) ops).games g).kept.map (Prod.mk g)).Sublist
      (run (step time ids) (start heroes) ops).db.accepted := by
  have hkept := inv_run (kept_step time hids) (kept_start heroes g) hsteady
  exact (hkept.saved.answered (hkept.once.ok g (hkept.once.stops g (Or.inl hstop)))).2

/-- a hero on each game server -/
def oneHero : ℕ → Std.TreeMap ℕ DreamHero := fun _ => (∅ : Std.TreeMap ℕ DreamHero).insert 3 {}

/-- The game server 1 is connected and registered, told to stop, saved, answered, and stopped; the game server 2 saves
without a connection. -/
def closing : List (Op Unit) :=
  [.connect 1, .onConnect 1, .signal 1, .turn 1 [()] () 0, .signal 2, .turn 2 [()] () 0, .saves 2] ++
    List.replicate 5 (.saves 1) ++ [.write 1 5] ++ List.replicate 5 (.handle (1, 1)) ++
      [.saveAllHeroesOk (1, 1), .turn 1 [()] () 5] ++ List.replicate 5 (.saves 1)

/-- a rank, the state of the server and the hero -/
theorem kept_accepted_closing :
    [(1, Sql.other ()), (1, .other ()), (1, .hero (.character (characterRow (fun _ => "") {})))].Sublist
    (run (step (fun _ => "") id) (start oneHero) closing).db.accepted := by
  have hkept : ((run (step (fun _ => "") id) (start oneHero) closing).games 1).kept =
      [.other (), .other (), .hero (.character (characterRow (fun _ => "") {}))] := by decide +kernel
  have haccepted : (((run (step (fun _ => "") id) (start oneHero) closing).games 1).kept.map (Prod.mk 1)).Sublist
      (run (step (fun _ => "") id) (start oneHero) closing).db.accepted :=
    kept_accepted (fun _ => "") Function.injective_id oneHero (by decide +kernel) (by decide +kernel)
  rwa [hkept] at haccepted

end DreamHeroes.Closing

/-
The SQL texts that carry text of a client (`DreamHero::ReqVerifyDeal`, `Session::parseCmdReqMdodifyGMLevel`), on their
way to `DBQuestManager::saveSqlData`. The text goes between two quotes by `sprintf`, as it is. The account server
escapes what it is sent (`CALL CheckAccount(%0q, %1q, %2q)`); here nothing does.

- `step`, `scan`, `lex`: what MySQL reads, a byte at a time. The connection allows several statements in one text.
- `Intact client text`: one statement, and its one literal is the client's text.
- `Plain`: what may stand between quotes. `scan_plain`: it is read as it is. `shortens_text`: nothing else is.
- `client_text_intact_iff`: the text is intact exactly when it is plain and the buffers hold it.

Texts are lists of bytes. A `sprintf` that runs over its buffer has no result.
-/
import Mathlib.Tactic
import DreamHeroes.Lib.Text

namespace DreamHeroes.SqlText

open DreamHeroes.Lib

abbrev Bytes := List UInt8

def ascii (s : String) : Bytes := s.toList.map fun c => UInt8.ofNat c.toNat

/-- what a C function reads of a text -/
def cStr (s : Bytes) : Bytes := s.takeWhile (· ≠ 0)

/-! ## What MySQL reads -/

abbrev quote : UInt8 := 39
abbrev doubleQuote : UInt8 := 34
abbrev backquote : UInt8 := 96
abbrev backslash : UInt8 := 92
abbrev percent : UInt8 := 37
abbrev underscore : UInt8 := 95
abbrev minus : UInt8 := 45
abbrev slash : UInt8 := 47
abbrev star : UInt8 := 42

inductive Token where
  | literal (value : Bytes)
  | name (value : Bytes)
  | semicolon
  | byte (b : UInt8)
deriving DecidableEq, Repr

/-- where in the text the reader is; `closing` has just read a quote, which may be the first of two -/
inductive Mode where
  | code
  | dash
  | dashDash
  | slash
  | slashStar
  | literal (q : UInt8) (value : Bytes)
  | escaped (q : UInt8) (value : Bytes)
  | closing (q : UInt8) (value : Bytes)
  | name (value : Bytes)
  | nameClosing (value : Bytes)
  | lineComment
  | comment
  | commentStar
deriving DecidableEq, Repr

/-- the value of a backslash and the byte behind it -/
def escape (b : UInt8) : Bytes :=
  if b = 48 then [0]
  else if b = 98 then [8]
  else if b = 116 then [9]
  else if b = 110 then [10]
  else if b = 114 then [13]
  else if b = 90 then [26]
  else if b = percent ∨ b = underscore then [backslash, b]
  else [b]

def stepCode (b : UInt8) : Mode × List Token :=
  if b = quote ∨ b = doubleQuote then (.literal b [], [])
  else if b = backquote then (.name [], [])
  else if b = 59 then (.code, [.semicolon])
  else if b = 35 then (.lineComment, [])
  else if b = minus then (.dash, [])
  else if b = slash then (.slash, [])
  else (.code, [.byte b])

/-- the byte `b`, with what has been read before it -/
def afterCode (before : List Token) (b : UInt8) : Mode × List Token := ((stepCode b).1, before ++ (stepCode b).2)

def step : Mode → UInt8 → Mode × List Token
  | .code, b => stepCode b
  | .dash, b => if b = minus then (.dashDash, []) else afterCode [.byte minus] b
  -- two dashes begin a comment only before a blank or a control character
  | .dashDash, b =>
    if b ≤ 32 then (if b = 10 then .code else .lineComment, [])
    else if b = minus then (.dashDash, [.byte minus])
    else afterCode [.byte minus, .byte minus] b
  | .slash, b => if b = star then (.slashStar, []) else afterCode [.byte slash] b
  -- what stands in such a comment is executed
  | .slashStar, b => if b = 33 then (.code, []) else if b = star then (.commentStar, []) else (.comment, [])
  | .literal q v, b =>
    if b = backslash then (.escaped q v, []) else if b = q then (.closing q v, []) else (.literal q (v ++ [b]), [])
  | .escaped q v, b => (.literal q (v ++ escape b), [])
  | .closing q v, b => if b = q then (.literal q (v ++ [q]), []) else afterCode [.literal v] b
  | .name v, b => if b = backquote then (.nameClosing v, []) else (.name (v ++ [b]), [])
  | .nameClosing v, b => if b = backquote then (.name (v ++ [b]), []) else afterCode [.name v] b
  | .lineComment, b => (if b = 10 then .code else .lineComment, [])
  | .comment, b => (if b = star then .commentStar else .comment, [])
  | .commentStar, b => (if b = slash then .code else if b = star then .commentStar else .comment, [])

/-- the end of the text; a literal, a name or a comment that is still open is an error -/
def finish : Mode → Option (List Token)
  | .code | .dashDash | .lineComment => some []
  | .dash => some [.byte minus]
  | .slash => some [.byte slash]
  | .closing _ v => some [.literal v]
  | .nameClosing v => some [.name v]
  | _ => none

def scan : Mode → Bytes → Mode × List Token
  | m, [] => (m, [])
  | m, b :: s => ((scan (step m b).1 s).1, (step m b).2 ++ (scan (step m b).1 s).2)

def lexFrom (m : Mode) (s : Bytes) : Option (List Token) := (finish (scan m s).1).map ((scan m s).2 ++ ·)

def lex (s : Bytes) : Option (List Token) := lexFrom .code s

def Token.isBlank : Token → Bool
  | .byte b => b ≤ 32
  | _ => false

/-- what stands between the semicolons, blanks left out -/
def statements (toks : List Token) : List (List Token) :=
  (toks.splitOn .semicolon).filter fun s => s.any fun t => !t.isBlank

def Token.literal? : Token → Option Bytes
  | .literal v => some v
  | _ => none

def literals (toks : List Token) : List Bytes := toks.filterMap Token.literal?

/-- one statement, and its one literal is what the client has sent -/
def Intact (client : Bytes) (text : Option Bytes) : Prop :=
  ∃ t toks, text = some t ∧ lex t = some toks ∧ (statements toks).length = 1 ∧ literals toks = [client]

/-! ## The texts -/

/-- the format `%d` -/
def decimal (n : ℤ) : Bytes := ascii (toString n)

/-- `sprintf` into a buffer of `size` bytes; the zero byte at the end needs one of them -/
def sprintf (size : ℕ) (text : Bytes) : Option Bytes := if text.length < size then some text else none

/-- `RecordManager::dealWaitToVerifyRecord` -/
def dealWaitToVerifyRecord (acc : ℕ) (name : Bytes) (orderId : ℤ) (receipt curTime : Bytes) : Option Bytes :=
  sprintf 10240 (ascii "(" ++ decimal acc ++ ascii ", " ++ decimal orderId ++ ascii ", '" ++ name ++ ascii "', '" ++
    receipt ++ ascii "', '" ++ curTime ++ ascii "')")

/-- `DealStatusType_WaitPrepareToVerify` -/
def waitPrepareToVerify : ℤ := 3

def verifyHead : Bytes :=
  ascii "replace into deal_wait_to_pay(`order_id`, `complete_status`, `receipt`) \t\t\t\tvalues("

/-- the statement of `DreamHero::ReqVerifyDeal` for an order of the hero; the record is written before it -/
def reqVerifyDeal (acc : ℕ) (name curTime : Bytes) (orderId : ℤ) (msgReceipt : Bytes) : Option Bytes :=
  let receipt := cStr msgReceipt
  (dealWaitToVerifyRecord acc name orderId receipt curTime).bind fun _ =>
    sprintf 10240 (verifyHead ++ decimal orderId ++ ascii ", " ++ decimal waitPrepareToVerify ++ ascii ", '" ++
      receipt ++ ascii "') ")

def modifyHead : Bytes := ascii "update `character` set `gm_level` = "

/-- the statement of `Session::parseCmdReqMdodifyGMLevel` for a name that no hero in memory has -/
def parseCmdReqMdodifyGMLevel (level : ℤ) (msgName : Bytes) : Option Bytes :=
  sprintf 512 (modifyHead ++ decimal level ++ ascii " where `name` = '" ++ cStr msgName ++ ascii "'")

/-! ## What may stand between quotes -/

/-- no zero byte, no quote, and a backslash only before `%` and `_` -/
def Plain : Bytes → Prop
  | [] => True
  | b :: s => b ≠ 0 ∧ b ≠ quote ∧ (b = backslash → s.head? = some percent ∨ s.head? = some underscore) ∧ Plain s

def decidablePlain : (s : Bytes) → Decidable (Plain s)
  | [] => isTrue trivial
  | b :: s =>
    have := decidablePlain s
    inferInstanceAs (Decidable (b ≠ 0 ∧ b ≠ quote ∧
      (b = backslash → s.head? = some percent ∨ s.head? = some underscore) ∧ Plain s))

instance instDecidablePlain (s : Bytes) : Decidable (Plain s) := decidablePlain s

theorem scan_append (m : Mode) (a b : Bytes) :
    scan m (a ++ b) = ((scan (scan m a).1 b).1, (scan m a).2 ++ (scan (scan m a).1 b).2) := by
  induction a generalizing m with
  | nil => simp [scan]
  | cons x a ih => simp [scan, ih, List.append_assoc]

theorem lexFrom_append (m : Mode) (a b : Bytes) :
    lexFrom m (a ++ b) = (lexFrom (scan m a).1 b).map ((scan m a).2 ++ ·) := by
  unfold lexFrom
  rw [scan_append]
  cases finish (scan (scan m a).1 b).1 with
  | none => rfl
  | some toks => simp

theorem lexFrom_cons (m : Mode) (b : UInt8) (s : Bytes) :
    lexFrom m (b :: s) = (lexFrom (step m b).1 s).map ((step m b).2 ++ ·) := by
  have h := lexFrom_append m [b] s
  simpa [scan] using h

/-- a step that reads no token -/
theorem lexFrom_silent {m : Mode} (m' : Mode) {b : UInt8} (h : step m b = (m', [])) (s : Bytes) :
    lexFrom m (b :: s) = lexFrom m' s := by
  rw [lexFrom_cons, h]
  simp

/-- **A plain text is read as it is**, also behind a backslash that its first byte keeps. -/
theorem scan_plain {s : Bytes} (h : Plain s) (v : Bytes) :
    scan (.literal quote v) s = (.literal quote (v ++ s), []) ∧
      (s.head? = some percent ∨ s.head? = some underscore →
        scan (.escaped quote v) s = (.literal quote (v ++ backslash :: s), [])) := by
  induction s generalizing v with
  | nil => exact ⟨by simp [scan], fun h => by simp at h⟩
  | cons b s ih =>
    obtain ⟨-, hquote, hback, hs⟩ := h
    constructor
    · by_cases hb : b = backslash
      · have hnext := (ih hs v).2 (hback hb)
        simp [scan, step, hb, hnext]
      · have hnext := (ih hs (v ++ [b])).1
        simp [scan, step, hb, hquote, hnext]
    · intro hhead
      have hkept : escape b = [backslash, b] := by
        rcases hhead with hb | hb <;>
        · rw [List.head?_cons] at hb
          rw [Option.some.inj hb]
          rfl
      have hnext := (ih hs (v ++ [backslash, b])).1
      simp [scan, step, hkept, hnext]

/-! ## Nothing else may -/

/-- the first literal that is read is `w` -/
def Reads (m : Mode) (s : Bytes) (w : Bytes) : Prop := ∃ toks, lexFrom m s = some toks ∧ (literals toks).head? = some w

theorem reads_silent {m : Mode} (m' : Mode) {b : UInt8} (h : step m b = (m', [])) {s w : Bytes} :
    Reads m (b :: s) w ↔ Reads m' s w := by
  unfold Reads
  rw [lexFrom_silent _ h]

/-- a literal stays open when no quote follows -/
theorem not_reads_open {q : UInt8} {s : Bytes} (hs : q ∉ s) (v w : Bytes) :
    ¬Reads (.literal q v) s w ∧ ¬Reads (.escaped q v) s w := by
  induction s generalizing v with
  | nil =>
    constructor <;>
    · rintro ⟨toks, htoks, -⟩
      cases htoks
  | cons b s ih =>
    obtain ⟨hb, hs⟩ := not_or.1 (List.mem_cons.not.1 hs)
    have ih' := ih hs
    constructor
    · by_cases hback : b = backslash
      · rw [reads_silent (.escaped q v) (by simp [step, hback])]
        exact (ih' v).2
      · rw [reads_silent (.literal q (v ++ [b])) (by simp [step, hback, Ne.symm hb])]
        exact (ih' _).1
    · rw [reads_silent (.literal q (v ++ escape b)) rfl]
      exact (ih' _).1

/-- a quote that is not doubled ends the literal -/
theorem reads_closing {q : UInt8} {s v w : Bytes} (hs : s.head? ≠ some q) (h : Reads (.closing q v) s w) : w = v := by
  obtain ⟨toks, htoks, hw⟩ := h
  cases s with
  | nil =>
    cases htoks
    exact (Option.some.inj hw).symm
  | cons b s =>
    have hb : b ≠ q := by
      rintro rfl
      exact hs rfl
    rw [lexFrom_cons] at htoks
    obtain ⟨rest, -, rfl⟩ := Option.map_eq_some_iff.1 htoks
    simp only [step, if_neg hb, afterCode] at hw
    exact (Option.some.inj hw).symm

theorem escape_length (b : UInt8) : (escape b).length ≤ 2 := by
  unfold escape
  split_ifs <;> simp

theorem escape_kept {b : UInt8} (h : (escape b).length = 2) : b = percent ∨ b = underscore := by
  unfold escape at h
  split_ifs at h with h0 h1 h2 h3 h4 h5 hwild
  all_goals first
    | exact hwild
    | exact absurd h (by decide)
    | simp at h

/-- what is read of the text up to the quote behind it, from inside a literal, behind a backslash and behind a quote: it
is never longer than the text, since each doubled quote, each escape and each early end makes it shorter -/
structure Shortens (suf s : Bytes) : Prop where
  literal : ∀ v w, Reads (.literal quote v) (s ++ quote :: suf) w →
    w.length ≤ v.length + s.length ∧ (w = v ++ s → Plain s)
  escaped : ∀ v w, Reads (.escaped quote v) (s ++ quote :: suf) w → w.length ≤ v.length + 1 + s.length ∧
    (w = v ++ backslash :: s → (s.head? = some percent ∨ s.head? = some underscore) ∧ Plain s)
  closing : ∀ v w, Reads (.closing quote v) (s ++ quote :: suf) w → w.length ≤ v.length + s.length

theorem shortens_nil {suf : Bytes} (hsuf : quote ∉ suf) : Shortens suf [] where
  literal v w h := by
    have hhead : suf.head? ≠ some quote := fun hq => hsuf (List.mem_of_mem_head? hq)
    rw [List.nil_append, reads_silent (.closing quote v) rfl] at h
    rw [reads_closing hhead h]
    exact ⟨le_rfl, fun _ => trivial⟩
  escaped v w h := by
    rw [List.nil_append, reads_silent (.literal quote (v ++ escape quote)) rfl] at h
    exact absurd h (not_reads_open hsuf _ w).1
  closing v w h := by
    rw [List.nil_append, reads_silent (.literal quote (v ++ [quote])) rfl] at h
    exact absurd h (not_reads_open hsuf _ w).1

section Cons

variable {suf s : Bytes} (hs : Shortens suf s) {b : UInt8} {v w : Bytes}

include hs

theorem Shortens.cons_literal (hzero : b ≠ 0) (h : Reads (.literal quote v) (b :: s ++ quote :: suf) w) :
    w.length ≤ v.length + (b :: s).length ∧ (w = v ++ b :: s → Plain (b :: s)) := by
  rw [List.cons_append] at h
  rw [List.length_cons]
  by_cases hback : b = backslash
  · rw [reads_silent (.escaped quote v) (by simp [step, hback])] at h
    obtain ⟨hlen, hplain⟩ := hs.escaped v w h
    refine ⟨by omega, ?_⟩
    intro hw
    rw [hback] at hw
    obtain ⟨hwild, hs'⟩ := hplain hw
    have hquote : b ≠ quote := by
      rw [hback]
      decide
    exact ⟨hzero, hquote, fun _ => hwild, hs'⟩
  · by_cases hquote : b = quote
    · rw [hquote, reads_silent (.closing quote v) rfl] at h
      have hlen := hs.closing v w h
      refine ⟨by omega, ?_⟩
      intro hw
      rw [hw, List.length_append, List.length_cons] at hlen
      omega
    · rw [reads_silent (.literal quote (v ++ [b])) (by simp [step, hback, hquote])] at h
      obtain ⟨hlen, hplain⟩ := hs.literal (v ++ [b]) w h
      rw [List.length_append, List.length_singleton] at hlen
      refine ⟨by omega, ?_⟩
      intro hw
      exact ⟨hzero, hquote, fun hb => absurd hb hback, hplain (by rw [hw]; simp)⟩

theorem Shortens.cons_escaped (hzero : b ≠ 0) (h : Reads (.escaped quote v) (b :: s ++ quote :: suf) w) :
    w.length ≤ v.length + 1 + (b :: s).length ∧ (w = v ++ backslash :: b :: s →
      ((b :: s).head? = some percent ∨ (b :: s).head? = some underscore) ∧ Plain (b :: s)) := by
  rw [List.cons_append, reads_silent (.literal quote (v ++ escape b)) rfl] at h
  obtain ⟨hlen, hplain⟩ := hs.literal (v ++ escape b) w h
  have hescape := escape_length b
  rw [List.length_append] at hlen
  rw [List.length_cons]
  refine ⟨by omega, ?_⟩
  intro hw
  -- the text comes back whole only when the escape keeps both bytes
  have hwild : b = percent ∨ b = underscore := by
    apply escape_kept
    rw [hw, List.length_append, List.length_cons, List.length_cons] at hlen
    omega
  have hkept : escape b = [backslash, b] := by
    rcases hwild with rfl | rfl <;> rfl
  have hquote : b ≠ quote ∧ b ≠ backslash := by
    rcases hwild with rfl | rfl <;> decide
  exact ⟨by simpa using hwild, hzero, hquote.1, fun hb => absurd hb hquote.2, hplain (by rw [hw, hkept]; simp)⟩

theorem Shortens.cons_closing (h : Reads (.closing quote v) (b :: s ++ quote :: suf) w) :
    w.length ≤ v.length + (b :: s).length := by
  rw [List.cons_append] at h
  rw [List.length_cons]
  by_cases hquote : b = quote
  · rw [reads_silent (.literal quote (v ++ [quote])) (by simp [step, hquote])] at h
    have hlen := (hs.literal (v ++ [quote]) w h).1
    rw [List.length_append, List.length_singleton] at hlen
    omega
  · have hhead : (b :: (s ++ quote :: suf)).head? ≠ some quote := by simpa using hquote
    rw [reads_closing hhead h]
    omega

end Cons

/-- **Only a plain text is read as it is.** -/
theorem shortens_text {suf : Bytes} (hsuf : quote ∉ suf) {s : Bytes} (hs : 0 ∉ s) : Shortens suf s := by
  induction s with
  | nil => exact shortens_nil hsuf
  | cons b s ih =>
    obtain ⟨hzero, hs⟩ := not_or.1 (List.mem_cons.not.1 hs)
    have ih' := ih hs
    exact ⟨fun _ _ => ih'.cons_literal (Ne.symm hzero), fun _ _ => ih'.cons_escaped (Ne.symm hzero),
      fun _ _ => ih'.cons_closing⟩

/-! ## The texts around it -/

def Token.isCode : Token → Bool
  | .byte _ | .name _ => true
  | _ => false

/-- a text that opens nothing, with no literal and no semicolon -/
def Outside (s : Bytes) : Prop := (scan .code s).1 = .code ∧ ∀ t ∈ (scan .code s).2, t.isCode = true

instance instDecidableOutside (s : Bytes) : Decidable (Outside s) :=
  inferInstanceAs (Decidable (_ ∧ ∀ t ∈ (scan .code s).2, t.isCode = true))

theorem Outside.append {a b : Bytes} (ha : Outside a) (hb : Outside b) : Outside (a ++ b) := by
  unfold Outside
  rw [scan_append, ha.1]
  refine ⟨hb.1, ?_⟩
  intro t ht
  exact (List.mem_append.1 ht).elim (ha.2 t) (hb.2 t)

theorem literals_code {toks : List Token} (h : ∀ t ∈ toks, t.isCode = true) : literals toks = [] := by
  unfold literals
  rw [List.filterMap_eq_nil_iff]
  intro t ht
  cases t with
  | literal v => exact absurd (h _ ht) Bool.false_ne_true
  | _ => rfl

theorem literals_append (a b : List Token) : literals (a ++ b) = literals a ++ literals b := List.filterMap_append

theorem stepCode_digit {c : Char} (hc : c.isDigit = true) :
    stepCode (UInt8.ofNat c.toNat) = (.code, [.byte (UInt8.ofNat c.toNat)]) := by
  have hrange : 48 ≤ c.toNat ∧ c.toNat ≤ 57 := by
    rw [Char.isDigit, Bool.and_eq_true, decide_eq_true_eq, decide_eq_true_eq] at hc
    exact ⟨hc.1, hc.2⟩
  have hall : ∀ n : Fin 58, 48 ≤ n.val → stepCode (UInt8.ofNat n.val) = (.code, [.byte (UInt8.ofNat n.val)]) := by
    decide
  exact hall ⟨c.toNat, by omega⟩ hrange.1

theorem scan_digits {cs : List Char} (h : ∀ c ∈ cs, c.isDigit = true) :
    scan .code (cs.map fun c => UInt8.ofNat c.toNat) = (.code, cs.map fun c => .byte (UInt8.ofNat c.toNat)) := by
  induction cs with
  | nil => rfl
  | cons c cs ih =>
    have hrest := ih fun d hd => h d (List.mem_cons_of_mem c hd)
    rw [List.map_cons, scan, step, stepCode_digit (h c List.mem_cons_self), hrest]
    rfl

/-- a number has a digit, so that its sign does not stand at the end -/
theorem outside_decimal (n : ℤ) : Outside (decimal n) := by
  have hcode (cs : List Char) : ∀ t ∈ cs.map fun c => Token.byte (UInt8.ofNat c.toNat), t.isCode = true := by
    intro t ht
    obtain ⟨c, -, rfl⟩ := List.mem_map.1 ht
    rfl
  unfold Outside decimal ascii
  rw [toList_toString]
  split_ifs
  · rw [scan_digits fun c hc => isDigit_toDigits hc]
    exact ⟨rfl, hcode _⟩
  · obtain ⟨c, cs, hcs⟩ := List.exists_cons_of_ne_nil (Nat.toDigits_ne_nil (b := 10) (n := (-n).toNat))
    have hall : ∀ d ∈ c :: cs, d.isDigit = true := fun d hd => isDigit_toDigits (hcs ▸ hd)
    have hc := hall c List.mem_cons_self
    have hminus : UInt8.ofNat c.toNat ≠ minus := by
      intro heq
      have hstep := stepCode_digit hc
      rw [heq] at hstep
      exact absurd (congrArg Prod.fst hstep) (by decide)
    have hfirst : step .dash (UInt8.ofNat c.toNat) = (.code, [.byte minus, .byte (UInt8.ofNat c.toNat)]) := by
      rw [step, if_neg hminus, afterCode, stepCode_digit hc]
      rfl
    have hrest := scan_digits fun d hd => hall d (List.mem_cons_of_mem c hd)
    have hsign : step .code (UInt8.ofNat '-'.toNat) = (.dash, []) := rfl
    rw [hcs, List.map_cons, List.map_cons, scan, hsign, scan, hfirst, hrest]
    exact ⟨rfl, fun t ht => hcode ('-' :: c :: cs) t ht⟩

theorem lexFrom_outside {s : Bytes} (h : Outside s) : lexFrom .code s = some (scan .code s).2 := by
  unfold lexFrom
  rw [h.1]
  simp [finish]

/-- behind the quote that ends a literal -/
theorem lexFrom_closing {q : UInt8} {s : Bytes} (hs : s.head? ≠ some q) (v : Bytes) :
    lexFrom (.closing q v) s = (lexFrom .code s).map (.literal v :: ·) := by
  cases s with
  | nil => rfl
  | cons b s =>
    have hb : b ≠ q := by
      rintro rfl
      exact hs rfl
    have hstep : step (.closing q v) b = afterCode [.literal v] b := by rw [step, if_neg hb]
    rw [lexFrom_cons, lexFrom_cons, hstep, Option.map_map]
    rfl

theorem not_blank_statement {toks : List Token} (hsemi : .semicolon ∉ toks) (h : ∃ t ∈ toks, t.isBlank = false) :
    (statements toks).length = 1 := by
  obtain ⟨t, ht, hblank⟩ := h
  have hany : (toks.any fun t => !t.isBlank) = true := List.any_eq_true.2 ⟨t, ht, by simp [hblank]⟩
  unfold statements
  rw [List.splitOn_eq_singleton hsemi]
  simp [hany]

theorem not_semicolon {toks : List Token} (h : ∀ t ∈ toks, t.isCode = true) : .semicolon ∉ toks :=
  fun hmem => absurd (h _ hmem) Bool.false_ne_true

theorem Plain.zero {s : Bytes} (h : Plain s) : 0 ∉ s := by
  induction s with
  | nil => exact List.not_mem_nil
  | cons b s ih => exact List.not_mem_cons_of_ne_of_not_mem (Ne.symm h.1) (ih h.2.2.2)

theorem cStr_eq {s : Bytes} (h : 0 ∉ s) : cStr s = s :=
  List.takeWhile_eq_self_iff.2 fun b hb => by
    simp only [ne_eq, decide_not, Bool.not_eq_true', decide_eq_false_iff_not]
    rintro rfl
    exact h hb

theorem zero_notMem_cStr (s : Bytes) : 0 ∉ cStr s := fun h => by simpa using List.mem_takeWhile_imp h

/-- **A client's text between two quotes** is one literal of one statement exactly when it is plain. -/
theorem intact_quoted_iff {pre : Bytes} (suf : Bytes) (hpre : Outside pre) (hsuf : Outside suf) (hquote : quote ∉ suf)
    (client : Bytes) : Intact client (some (pre ++ quote :: (cStr client ++ quote :: suf))) ↔ Plain client := by
  have hhead : suf.head? ≠ some quote := fun hq => hquote (List.mem_of_mem_head? hq)
  have hopen (s : Bytes) : lex (pre ++ quote :: s) = (lexFrom (.literal quote []) s).map ((scan .code pre).2 ++ ·) := by
    rw [lex, lexFrom_append, hpre.1, lexFrom_silent (.literal quote []) rfl]
  constructor
  · rintro ⟨t, toks, ht, hlex, -, hliteral⟩
    rw [← Option.some.inj ht, hopen] at hlex
    obtain ⟨rest, hrest, rfl⟩ := Option.map_eq_some_iff.1 hlex
    rw [literals_append, literals_code hpre.2, List.nil_append] at hliteral
    have hreads : Reads (.literal quote []) (cStr client ++ quote :: suf) client := ⟨rest, hrest, by rw [hliteral]; rfl⟩
    obtain ⟨hlen, hplain⟩ := (shortens_text hquote (zero_notMem_cStr client)).literal [] client hreads
    -- the literal is not longer than what `sprintf` has written
    have hwhole : cStr client = client := by
      have hpre := List.takeWhile_prefix (l := client) (· ≠ 0)
      exact hpre.eq_of_length (le_antisymm hpre.length_le (by simpa [cStr] using hlen))
    rw [hwhole] at hplain
    exact hplain rfl
  · intro h
    rw [cStr_eq h.zero]
    have hread : lexFrom (.literal quote []) (client ++ quote :: suf) =
        some (.literal client :: (scan .code suf).2) := by
      rw [lexFrom_append, (scan_plain h []).1, List.nil_append, lexFrom_silent (.closing quote client) rfl,
        lexFrom_closing hhead, lexFrom_outside hsuf]
      rfl
    refine ⟨_, (scan .code pre).2 ++ .literal client :: (scan .code suf).2, rfl, by rw [hopen, hread]; rfl, ?_, ?_⟩
    · refine not_blank_statement ?_ ⟨.literal client, by simp, rfl⟩
      rw [List.mem_append, List.mem_cons, not_or, not_or]
      exact ⟨not_semicolon hpre.2, by simp, not_semicolon hsuf.2⟩
    · have hone : literals [Token.literal client] = [client] := rfl
      rw [literals_append, literals_code hpre.2, ← List.singleton_append, literals_append, literals_code hsuf.2, hone]
      rfl

theorem intact_sprintf_iff (client : Bytes) (size : ℕ) (text : Bytes) :
    Intact client (sprintf size text) ↔ text.length < size ∧ Intact client (some text) := by
  unfold sprintf
  split_ifs with h
  · simp [h]
  · simp [h, Intact]

/-- a text that is written before -/
theorem intact_bind_iff (client : Bytes) (size : ℕ) (before : Bytes) (text : Option Bytes) :
    Intact client ((sprintf size before).bind fun _ => text) ↔ before.length < size ∧ Intact client text := by
  unfold sprintf
  split_ifs with h
  · simp [h]
  · simp [h, Intact]

/-! ## The two statements -/

/-- the buffers of the record and of the statement hold the texts -/
def VerifyFits (acc : ℕ) (name curTime : Bytes) (orderId : ℤ) (receipt : Bytes) : Prop :=
  (decimal acc).length + (decimal orderId).length + name.length + receipt.length + curTime.length + 16 < 10240 ∧
    (decimal orderId).length + receipt.length + 92 < 10240

/-- the buffer holds the statement -/
def ModifyFits (level : ℤ) (name : Bytes) : Prop := (decimal level).length + name.length + 54 < 512

instance instDecidableVerifyFits (acc : ℕ) (name curTime : Bytes) (orderId : ℤ) (receipt : Bytes) :
    Decidable (VerifyFits acc name curTime orderId receipt) := inferInstanceAs (Decidable (_ < _ ∧ _ < _))

instance instDecidableModifyFits (level : ℤ) (name : Bytes) : Decidable (ModifyFits level name) :=
  inferInstanceAs (Decidable (_ < _))

/-- the two statements up to their first value -/
theorem outside_heads : (Outside verifyHead ∧ verifyHead.length = 83) ∧ Outside modifyHead ∧
    modifyHead.length = 36 := by
  decide +kernel

theorem reqVerifyDeal_intact_iff (acc : ℕ) (name curTime : Bytes) (orderId : ℤ) (receipt : Bytes) :
    Intact receipt (reqVerifyDeal acc name curTime orderId receipt) ↔
      Plain receipt ∧ VerifyFits acc name curTime orderId receipt := by
  have hlen : (ascii "(").length = 1 ∧ (ascii ", ").length = 2 ∧ (ascii ", '").length = 3 ∧
      (ascii "', '").length = 4 ∧ (ascii "')").length = 2 ∧ (ascii "') ").length = 3 ∧
      (decimal waitPrepareToVerify).length = 1 := by decide
  obtain ⟨hhead, hheadlen⟩ := outside_heads.1
  have hcomma : Outside (ascii ", ") := by decide
  have hend : Outside (ascii ") ") := by decide
  have hvalues := (hcomma.append (outside_decimal waitPrepareToVerify)).append hcomma
  have hplain := intact_quoted_iff _ ((hhead.append (outside_decimal orderId)).append hvalues) hend (by decide) receipt
  have hopen : ascii ", '" = ascii ", " ++ [quote] := by decide
  have hclose : ascii "') " = quote :: ascii ") " := by decide
  have htext : verifyHead ++ decimal orderId ++ ascii ", " ++ decimal waitPrepareToVerify ++ ascii ", '" ++
      cStr receipt ++ ascii "') " = verifyHead ++ decimal orderId ++ (ascii ", " ++ decimal waitPrepareToVerify ++
      ascii ", ") ++ quote :: (cStr receipt ++ quote :: ascii ") ") := by
    rw [hopen, hclose]
    simp only [List.append_assoc, List.cons_append, List.nil_append]
  unfold reqVerifyDeal dealWaitToVerifyRecord
  rw [intact_bind_iff, intact_sprintf_iff]
  simp only [List.length_append, hlen, hheadlen]
  rw [htext, hplain]
  constructor
  · rintro ⟨hrecord, hstmt, h⟩
    rw [cStr_eq h.zero] at hrecord hstmt
    exact ⟨h, by omega, by omega⟩
  · rintro ⟨h, hrecord, hstmt⟩
    rw [cStr_eq h.zero]
    exact ⟨by omega, by omega, h⟩

theorem parseCmdReqMdodifyGMLevel_intact_iff (level : ℤ) (name : Bytes) :
    Intact name (parseCmdReqMdodifyGMLevel level name) ↔ Plain name ∧ ModifyFits level name := by
  have hlen : (ascii " where `name` = '").length = 17 ∧ (ascii "'").length = 1 := by decide
  obtain ⟨hhead, hheadlen⟩ := outside_heads.2
  have hwhere : Outside (ascii " where `name` = ") := by decide
  have hplain := intact_quoted_iff [] ((hhead.append (outside_decimal level)).append hwhere) (by decide)
    List.not_mem_nil name
  have hopen : ascii " where `name` = '" = ascii " where `name` = " ++ [quote] := by decide
  have htext : modifyHead ++ decimal level ++ ascii " where `name` = '" ++ cStr name ++ ascii "'" =
      modifyHead ++ decimal level ++ ascii " where `name` = " ++ quote :: (cStr name ++ [quote]) := by
    rw [hopen]
    simp only [List.append_assoc, List.singleton_append]
    rfl
  unfold parseCmdReqMdodifyGMLevel
  rw [intact_sprintf_iff]
  simp only [List.length_append, hlen, hheadlen]
  rw [htext, hplain]
  constructor
  · rintro ⟨hstmt, h⟩
    rw [cStr_eq h.zero] at hstmt
    exact ⟨h, by rw [ModifyFits]; omega⟩
  · rintro ⟨h, hstmt⟩
    rw [ModifyFits] at hstmt
    rw [cStr_eq h.zero]
    exact ⟨by omega, h⟩

/-- **Client text is intact exactly when it is plain and fits.** -/
theorem client_text_intact_iff (acc : ℕ) (name curTime : Bytes) (orderId : ℤ) (receipt : Bytes) (level : ℤ)
    (heroName : Bytes) :
    (Intact receipt (reqVerifyDeal acc name curTime orderId receipt) ↔
      Plain receipt ∧ VerifyFits acc name curTime orderId receipt) ∧
    (Intact heroName (parseCmdReqMdodifyGMLevel level heroName) ↔ Plain heroName ∧ ModifyFits level heroName) :=
  ⟨reqVerifyDeal_intact_iff acc name curTime orderId receipt, parseCmdReqMdodifyGMLevel_intact_iff level heroName⟩

/-- a receipt that ends its literal, and adds a statement -/
def addedStatement : Bytes := ascii "r'); update `character` set `gm_level` = 3 where `name` = 'me'; -- "

/-- the receipt of a client is a second statement, and an apostrophe in a name no statement at all -/
theorem client_text_adds_statement :
    (((reqVerifyDeal 5 [] [] 7 addedStatement).bind lex).map fun toks => (statements toks).length) = some 2 ∧
      ¬Intact addedStatement (reqVerifyDeal 5 [] [] 7 addedStatement) ∧
      (parseCmdReqMdodifyGMLevel 1 (ascii "o'neil")).bind lex = none := by
  have hread : ((reqVerifyDeal 5 [] [] 7 addedStatement).bind lex).map (fun toks => (statements toks).length) = some 2 ∧
      (parseCmdReqMdodifyGMLevel 1 (ascii "o'neil")).bind lex = none := by decide +kernel
  obtain ⟨htwo, hnone⟩ := hread
  refine ⟨htwo, ?_, hnone⟩
  rintro ⟨t, toks, ht, hlex, hone, -⟩
  rw [ht, Option.bind_some, hlex, Option.map_some, hone] at htwo
  exact absurd htwo (by decide)

end DreamHeroes.SqlText

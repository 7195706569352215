import PqcGateway.Machinery.Text

/-!
# Machinery/Exposition — metrics as text

    name{label="value",label="value"} value

Metrics are exposed line by line, and a line that is neither blank nor a comment is a sample.
Between the quotes a backslash escapes itself, a quote or a line feed.  `readText` reads a text as a
scraper does: the tokens of a line (`LexState.run`), the sample of its tokens (`readSample`), the
lines of the text (`readFrom`).

The characters that are escaped have weights such that what is read between quotes has at most half
the weight of what is written there; so a text weighs at least as much as its samples, with what
they have between quotes taken twice (`samplesWeight_readFrom`).
-/

namespace Exposition

/-! ## Tokens -/

/-- A token of a line. -/
inductive Token
  | word (cs : List Char)
  | mark (c : Char)
  | quoted (cs : List Char)
deriving DecidableEq, Repr

/-- Where the lexer is: in a word, between quotes or behind a backslash, and what it has read of the
token. -/
inductive LexState
  | outside (word : List Char)
  | quoted (value : List Char)
  | escaped (value : List Char)
deriving DecidableEq, Repr

def isBlank (c : Char) : Bool := c ∈ [' ', '\t']

def isMark (c : Char) : Bool := c ∈ ['{', '}', ',', '=']

/-- The word read so far, if there is one. -/
def flush : List Char → List Token
  | [] => []
  | c :: cs => [.word (c :: cs)]

@[simp] theorem flush_nil : flush [] = [] := rfl

theorem flush_of_ne_nil {word : List Char} (h : word ≠ []) : flush word = [.word word] := by
  obtain ⟨c, cs, rfl⟩ := List.exists_cons_of_ne_nil h
  rfl

/-- What a character behind a backslash stands for. -/
def unescape : Char → Option Char
  | '\\' => some '\\'
  | '"' => some '"'
  | 'n' => some '\n'
  | _ => none

namespace LexState

/-- One character, and the tokens that end at it. -/
def step : LexState → Char → Option (List Token × LexState)
  | outside word, c =>
    if isBlank c then some (flush word, outside [])
    else if isMark c then some (flush word ++ [.mark c], outside [])
    else if c = '"' then some (flush word, quoted [])
    else some ([], outside (word ++ [c]))
  | quoted value, c =>
    if c = '"' then some ([.quoted value], outside [])
    else if c = '\\' then some ([], escaped value)
    else some ([], quoted (value ++ [c]))
  | escaped value, c => (unescape c).map fun d => ([], quoted (value ++ [d]))

/-- The characters, one after the other. -/
def run : LexState → List Char → Option (List Token × LexState)
  | s, [] => some ([], s)
  | s, c :: cs =>
    (s.step c).bind fun r => (r.2.run cs).map fun r' => (r.1 ++ r'.1, r'.2)

end LexState

/-- The tokens of a line. -/
def lex (line : List Char) : Option (List Token) :=
  match (LexState.outside []).run line with
  | some (ts, .outside word) => some (ts ++ flush word)
  | _ => none

/-! ## Samples

What the tokens of a line say, in the grammar of the text exposition format. -/

/-- The value of a metric under some labels. -/
structure Sample (ν : Type) where
  name : String
  labels : List (String × String)
  value : ν
deriving DecidableEq, Repr

def isLabelChar (c : Char) : Bool := c.isAlphanum || c = '_'

/-- A label's name. -/
def isLabelName (cs : List Char) : Bool :=
  cs ≠ [] && !(cs.headD '0').isDigit && cs.all isLabelChar

/-- A metric's name: it may have colons in it. -/
def isMetricName (cs : List Char) : Bool :=
  cs ≠ [] && !(cs.headD '0').isDigit && cs.all fun c => isLabelChar c || c = ':'

/-- The labels up to the closing brace; the last one may be followed by a comma. -/
def readLabels : List Token → Option (List (String × String) × List Token)
  | .mark '}' :: ts => some ([], ts)
  | .word name :: .mark '=' :: .quoted value :: .mark '}' :: ts =>
    if isLabelName name then some ([(String.ofList name, String.ofList value)], ts) else none
  | .word name :: .mark '=' :: .quoted value :: .mark ',' :: ts =>
    if isLabelName name then
      (readLabels ts).map fun r => ((String.ofList name, String.ofList value) :: r.1, r.2)
    else none
  | _ => none

/-- A time in milliseconds. -/
def isTime : List Char → Bool
  | '-' :: cs => cs ≠ [] && cs.all Char.isDigit
  | cs => cs ≠ [] && cs.all Char.isDigit

section

variable {ν : Type} (read : String → Option ν)

/-- The value, and perhaps the time it was taken at. -/
def readValue : List Token → Option ν
  | [.word value] => read (String.ofList value)
  | [.word value, .word time] =>
    if isTime time then read (String.ofList value) else none
  | _ => none

def readSample : List Token → Option (Sample ν)
  | .word name :: .mark '{' :: ts =>
    if isMetricName name then
      (readLabels ts).bind fun r => (readValue read r.2).map (⟨String.ofList name, r.1, ·⟩)
    else none
  | .word name :: ts =>
    if isMetricName name then (readValue read ts).map (⟨String.ofList name, [], ·⟩) else none
  | _ => none

/-- The sample of a line; a blank line and a comment have none. -/
def readLine (line : List Char) : Option (List (Sample ν)) :=
  match line.dropWhile isBlank with
  | [] => some []
  | '#' :: _ => some []
  | cs => ((lex cs).bind (readSample read)).map ([·])

/-- The samples of a text whose first line has begun with `line`; every line ends in a line feed. -/
def readFrom (line : List Char) : List Char → Option (List (Sample ν))
  | [] => if line = [] then some [] else none
  | c :: cs =>
    if c = '\n' then
      (readLine read line).bind fun samples => (readFrom [] cs).map (samples ++ ·)
    else readFrom (line ++ [c]) cs

/-- The samples of a text; one line that cannot be read spoils it. -/
def readText (text : String) : Option (List (Sample ν)) := readFrom read [] text.toList

end

/-! ## Weights

Only the characters that are escaped weigh anything, and to write one between quotes takes at least
twice its weight. -/

/-- What a character weighs: those that are escaped between quotes weigh something. -/
def weight : Char → ℕ
  | '"' => 2
  | '\\' => 2
  | '\n' => 1
  | _ => 0

def textWeight (cs : List Char) : ℕ := (cs.map weight).sum

@[simp] theorem textWeight_nil : textWeight [] = 0 := rfl

@[simp] theorem textWeight_cons (c : Char) (cs : List Char) :
    textWeight (c :: cs) = weight c + textWeight cs := List.sum_cons

@[simp] theorem textWeight_append (cs ds : List Char) :
    textWeight (cs ++ ds) = textWeight cs + textWeight ds := by
  rw [textWeight, List.map_append, List.sum_append, ← textWeight, ← textWeight]

theorem weight_eq_zero {c : Char} (hquote : c ≠ '"') (hslash : c ≠ '\\') (hfeed : c ≠ '\n') :
    weight c = 0 := by
  unfold weight
  split <;> first | rfl | contradiction

/-- Between quotes, characters may be written as they are. -/
def IsPlain (s : String) : Prop := '"' ∉ s.toList ∧ '\\' ∉ s.toList ∧ '\n' ∉ s.toList

instance (s : String) : Decidable (IsPlain s) := inferInstanceAs (Decidable (_ ∧ _ ∧ _))

theorem textWeight_eq_zero_iff {s : String} : textWeight s.toList = 0 ↔ IsPlain s := by
  have hsum : textWeight s.toList = 0 ↔ ∀ c ∈ s.toList, weight c = 0 := by
    rw [textWeight, List.sum_eq_zero_iff_forall_eq_nat, List.forall_mem_map]
  rw [hsum]
  constructor
  · exact fun h => ⟨fun hc => absurd (h _ hc) (by decide), fun hc => absurd (h _ hc) (by decide),
      fun hc => absurd (h _ hc) (by decide)⟩
  · rintro ⟨hquote, hslash, hfeed⟩ c hc
    exact weight_eq_zero (fun h => hquote (h ▸ hc)) (fun h => hslash (h ▸ hc))
      (fun h => hfeed (h ▸ hc))

/-- A quoted token weighs its quotes and twice what it says. -/
def Token.weight : Token → ℕ
  | .quoted value => 4 + 2 * textWeight value
  | _ => 0

def tokensWeight (ts : List Token) : ℕ := (ts.map Token.weight).sum

@[simp] theorem tokensWeight_nil : tokensWeight [] = 0 := rfl

@[simp] theorem tokensWeight_cons (t : Token) (ts : List Token) :
    tokensWeight (t :: ts) = t.weight + tokensWeight ts := List.sum_cons

@[simp] theorem tokensWeight_append (ts ts' : List Token) :
    tokensWeight (ts ++ ts') = tokensWeight ts + tokensWeight ts' := by
  rw [tokensWeight, List.map_append, List.sum_append, ← tokensWeight, ← tokensWeight]

@[simp] theorem tokensWeight_flush (word : List Char) : tokensWeight (flush word) = 0 := by
  cases word <;> rfl

/-- What the characters read so far must weigh. -/
def LexState.weight : LexState → ℕ
  | outside _ => 0
  | quoted value => 2 + 2 * textWeight value
  | escaped value => 4 + 2 * textWeight value

/-- An escape weighs twice what it stands for. -/
theorem two_mul_weight_le {c d : Char} (h : unescape c = some d) :
    2 * Exposition.weight d ≤ 2 + Exposition.weight c := by
  unfold unescape at h
  split at h <;> first | (obtain rfl := Option.some.inj h; decide) | cases h

namespace LexState

/-- **No character makes a token heavier** than what it is written as. -/
theorem weight_step {s s' : LexState} {c : Char} {ts : List Token} (hc : c ≠ '\n')
    (h : s.step c = some (ts, s')) :
    tokensWeight ts + s'.weight ≤ s.weight + Exposition.weight c := by
  cases s with
  | outside word =>
    simp only [step] at h
    split_ifs at h with hblank hmark hquote
    · obtain ⟨rfl, rfl⟩ := Prod.mk.inj (Option.some.inj h)
      simp [weight]
    · obtain ⟨rfl, rfl⟩ := Prod.mk.inj (Option.some.inj h)
      simp [weight, Token.weight]
    · obtain ⟨rfl, rfl⟩ := Prod.mk.inj (Option.some.inj h)
      subst hquote
      simp [weight, Exposition.weight]
    · obtain ⟨rfl, rfl⟩ := Prod.mk.inj (Option.some.inj h)
      simp [weight]
  | quoted value =>
    simp only [step] at h
    split_ifs at h with hquote hslash
    · obtain ⟨rfl, rfl⟩ := Prod.mk.inj (Option.some.inj h)
      subst hquote
      simp [weight, Exposition.weight, Token.weight]
      omega
    · obtain ⟨rfl, rfl⟩ := Prod.mk.inj (Option.some.inj h)
      subst hslash
      simp [weight, Exposition.weight]
      omega
    · obtain ⟨rfl, rfl⟩ := Prod.mk.inj (Option.some.inj h)
      simp [weight, weight_eq_zero hquote hslash hc]
  | escaped value =>
    obtain ⟨d, hd, hr⟩ := Option.map_eq_some_iff.mp h
    obtain ⟨rfl, rfl⟩ := Prod.mk.inj hr
    have := two_mul_weight_le hd
    simp [weight]
    omega

theorem run_cons_eq_some {s s' : LexState} {c : Char} {cs : List Char} {ts : List Token} :
    s.run (c :: cs) = some (ts, s') ↔
      ∃ ts₁ s₁ ts₂, s.step c = some (ts₁, s₁) ∧ s₁.run cs = some (ts₂, s') ∧ ts = ts₁ ++ ts₂ := by
  rw [run, Option.bind_eq_some_iff]
  constructor
  · rintro ⟨⟨ts₁, s₁⟩, hstep, hrun⟩
    obtain ⟨⟨ts₂, s₂⟩, hrest, hr⟩ := Option.map_eq_some_iff.mp hrun
    obtain ⟨rfl, rfl⟩ := Prod.mk.inj hr
    exact ⟨ts₁, s₁, ts₂, hstep, hrest, rfl⟩
  · rintro ⟨ts₁, s₁, ts₂, hstep, hrest, rfl⟩
    exact ⟨(ts₁, s₁), hstep, Option.map_eq_some_iff.mpr ⟨(ts₂, s'), hrest, rfl⟩⟩

theorem weight_run {s s' : LexState} {cs : List Char} {ts : List Token} (hcs : '\n' ∉ cs)
    (h : s.run cs = some (ts, s')) :
    tokensWeight ts + s'.weight ≤ s.weight + textWeight cs := by
  induction cs generalizing s ts with
  | nil =>
    obtain ⟨rfl, rfl⟩ := Prod.mk.inj (Option.some.inj h)
    simp
  | cons c cs ih =>
    rw [List.mem_cons, not_or] at hcs
    obtain ⟨ts₁, s₁, ts₂, hstep, hrest, rfl⟩ := run_cons_eq_some.mp h
    have hfirst := weight_step (Ne.symm hcs.1) hstep
    have hlast := ih hcs.2 hrest
    rw [tokensWeight_append, textWeight_cons]
    omega

end LexState

theorem tokensWeight_lex_le {line : List Char} {ts : List Token} (hline : '\n' ∉ line)
    (h : lex line = some ts) : tokensWeight ts ≤ textWeight line := by
  unfold lex at h
  split at h
  · rename_i ts' word hrun
    obtain rfl := Option.some.inj h
    have := LexState.weight_run hline hrun
    simp only [LexState.weight] at this
    rw [tokensWeight_append, tokensWeight_flush]
    omega
  · cases h

/-- What labels weigh, with their values taken `k` times. -/
def labelsWeight (k : ℕ) (labels : List (String × String)) : ℕ :=
  (labels.map fun l => 4 + k * textWeight l.2.toList).sum

@[simp] theorem labelsWeight_nil (k : ℕ) : labelsWeight k [] = 0 := rfl

@[simp] theorem labelsWeight_cons (k : ℕ) (l : String × String) (labels : List (String × String)) :
    labelsWeight k (l :: labels) = 4 + k * textWeight l.2.toList + labelsWeight k labels :=
  List.sum_cons

theorem labelsWeight_readLabels {ts rest : List Token} {labels : List (String × String)}
    (h : readLabels ts = some (labels, rest)) :
    labelsWeight 2 labels + tokensWeight rest = tokensWeight ts := by
  fun_induction readLabels ts generalizing labels with
  | case1 ts =>
    obtain ⟨rfl, rfl⟩ := Prod.mk.inj (Option.some.inj h)
    simp [Token.weight]
  | case2 name value ts hname =>
    obtain ⟨rfl, rfl⟩ := Prod.mk.inj (Option.some.inj h)
    simp [Token.weight]
  | case4 name value ts hname ih =>
    obtain ⟨⟨labels', rest'⟩, hrest, hr⟩ := Option.map_eq_some_iff.mp h
    obtain ⟨rfl, rfl⟩ := Prod.mk.inj hr
    have : labelsWeight 2 labels' + tokensWeight rest' = tokensWeight ts := ih hrest
    simp only [labelsWeight_cons, tokensWeight_cons, Token.weight, String.toList_ofList]
    omega
  | _ => cases h

section

variable {ν : Type} {read : String → Option ν}

/-- What samples weigh, with the ends of their lines. -/
def samplesWeight (samples : List (Sample ν)) : ℕ :=
  (samples.map fun s => labelsWeight 2 s.labels + 1).sum

@[simp] theorem samplesWeight_nil : samplesWeight ([] : List (Sample ν)) = 0 := rfl

@[simp] theorem samplesWeight_cons (s : Sample ν) (samples : List (Sample ν)) :
    samplesWeight (s :: samples) = labelsWeight 2 s.labels + 1 + samplesWeight samples :=
  List.sum_cons

@[simp] theorem samplesWeight_append (samples samples' : List (Sample ν)) :
    samplesWeight (samples ++ samples') = samplesWeight samples + samplesWeight samples' := by
  rw [samplesWeight, List.map_append, List.sum_append, ← samplesWeight, ← samplesWeight]

theorem labelsWeight_readSample {ts : List Token} {s : Sample ν}
    (h : readSample read ts = some s) : labelsWeight 2 s.labels ≤ tokensWeight ts := by
  unfold readSample at h
  split at h
  · split_ifs at h
    obtain ⟨⟨labels, rest⟩, hlabels, hvalue⟩ := Option.bind_eq_some_iff.mp h
    obtain ⟨v, -, rfl⟩ := Option.map_eq_some_iff.mp hvalue
    have := labelsWeight_readLabels hlabels
    simp only [tokensWeight_cons]
    omega
  · split_ifs at h
    obtain ⟨v, -, rfl⟩ := Option.map_eq_some_iff.mp h
    exact Nat.zero_le _
  · cases h

theorem textWeight_dropWhile_le (p : Char → Bool) (cs : List Char) :
    textWeight (cs.dropWhile p) ≤ textWeight cs := by
  have := congrArg textWeight (List.takeWhile_append_dropWhile (p := p) (l := cs))
  rw [textWeight_append] at this
  omega

theorem samplesWeight_readLine {line : List Char} {samples : List (Sample ν)}
    (hline : '\n' ∉ line) (h : readLine read line = some samples) :
    samplesWeight samples ≤ textWeight line + 1 := by
  unfold readLine at h
  split at h
  · obtain rfl := Option.some.inj h
    exact Nat.zero_le _
  · obtain rfl := Option.some.inj h
    exact Nat.zero_le _
  · obtain ⟨s, hs, rfl⟩ := Option.map_eq_some_iff.mp h
    obtain ⟨ts, hlex, hs⟩ := Option.bind_eq_some_iff.mp hs
    have hblank : '\n' ∉ line.dropWhile isBlank := fun hmem =>
      hline ((List.dropWhile_sublist _).mem hmem)
    have htokens := tokensWeight_lex_le hblank hlex
    have hlabels := labelsWeight_readSample hs
    have hdrop := textWeight_dropWhile_le isBlank line
    rw [samplesWeight_cons, samplesWeight_nil]
    omega

/-- **A text weighs at least as much as its samples.** -/
theorem samplesWeight_readFrom {line cs : List Char} {samples : List (Sample ν)}
    (hline : '\n' ∉ line) (h : readFrom read line cs = some samples) :
    samplesWeight samples ≤ textWeight line + textWeight cs := by
  induction cs generalizing line samples with
  | nil =>
    rw [readFrom] at h
    split_ifs at h
    obtain rfl := Option.some.inj h
    exact Nat.zero_le _
  | cons c cs ih =>
    rw [readFrom] at h
    split_ifs at h with hfeed
    · obtain ⟨first, hfirst, h⟩ := Option.bind_eq_some_iff.mp h
      obtain ⟨rest, hrest, rfl⟩ := Option.map_eq_some_iff.mp h
      have hthis := samplesWeight_readLine hline hfirst
      have hthat := ih List.not_mem_nil hrest
      subst hfeed
      rw [samplesWeight_append, textWeight_cons]
      simp only [weight, textWeight_nil] at hthat ⊢
      omega
    · have hnext : '\n' ∉ line ++ [c] := by
        rw [List.mem_append, List.mem_singleton, not_or]
        exact ⟨hline, Ne.symm hfeed⟩
      have := ih hnext h
      rw [textWeight_cons]
      rw [textWeight_append, textWeight_cons, textWeight_nil] at this
      omega

end

end Exposition

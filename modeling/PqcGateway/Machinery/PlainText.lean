import PqcGateway.Machinery.Exposition
import Mathlib.Algebra.BigOperators.Group.List.Basic
import Mathlib.Algebra.Order.BigOperators.Group.List

/-!
# Machinery/PlainText — metrics written without escapes

A writer may put a label's value between quotes as it is (`Sample.plain`).  That is right for values
in which nothing is to be escaped (`readFrom_plainText`), and for no others
(`isPlain_of_readFrom_plainText`): even if the lines that were meant for one sample are read as
another, what is read back weighs too little.

* `readFrom_line`, `readFrom_append` — text is read line by line.
* `textWeight_plainText` — what a plain text weighs.
-/

namespace Exposition

/-! ## Plain text -/

/-- `name="value"`, with the value as it is. -/
def plainLabel (l : String × String) : List Char :=
  l.1.toList ++ '=' :: '"' :: l.2.toList ++ ['"']

/-- The labels and the closing brace. -/
def plainLabels : List (String × String) → List Char
  | [] => ['}']
  | [l] => plainLabel l ++ ['}']
  | l :: l' :: labels => plainLabel l ++ ',' :: plainLabels (l' :: labels)

/-- The labels in braces, if there are any. -/
def plainBraces : List (String × String) → List Char
  | [] => []
  | l :: labels => '{' :: plainLabels (l :: labels)

/-- The line of a sample, nothing escaped. -/
def Sample.plain {ν : Type} (write : ν → String) (s : Sample ν) : List Char :=
  s.name.toList ++ plainBraces s.labels ++ ' ' :: (write s.value).toList

/-- The lines of samples. -/
def plainText {ν : Type} (write : ν → String) (samples : List (Sample ν)) : List Char :=
  samples.flatMap fun s => s.plain write ++ ['\n']

/-- A character of words. -/
def isWordChar (c : Char) : Bool := c ∉ [' ', '\t', '{', '}', ',', '=', '"', '\\', '\n']

theorem isWordChar_of_isLabelChar {c : Char} (h : isLabelChar c ∨ c = ':') : isWordChar c := by
  rw [isWordChar, decide_eq_true_eq]
  intro hmem
  simp only [List.mem_cons, List.not_mem_nil, or_false] at hmem
  rcases hmem with rfl | rfl | rfl | rfl | rfl | rfl | rfl | rfl | rfl <;>
    exact absurd h (by decide)

theorem isWordChar_of_isDigit {c : Char} (h : c.isDigit) : isWordChar c :=
  isWordChar_of_isLabelChar (.inl (by simp [isLabelChar, Char.isAlphanum, h]))

theorem isWordChar_iff {c : Char} :
    isWordChar c ↔ isBlank c = false ∧ isMark c = false ∧ c ≠ '"' ∧ c ≠ '\\' ∧ c ≠ '\n' := by
  simp only [isWordChar, isBlank, isMark, List.mem_cons, List.not_mem_nil, or_false,
    decide_eq_true_eq, decide_eq_false_iff_not]
  tauto

theorem textWeight_eq_zero_of_isWordChar {cs : List Char} (h : ∀ c ∈ cs, isWordChar c) :
    textWeight cs = 0 := by
  rw [textWeight, List.sum_eq_zero_iff_forall_eq_nat, List.forall_mem_map]
  intro c hc
  obtain ⟨-, -, hquote, hslash, hfeed⟩ := isWordChar_iff.mp (h c hc)
  exact weight_eq_zero hquote hslash hfeed

theorem of_isLabelName {cs : List Char} (h : isLabelName cs) :
    cs ≠ [] ∧ ∀ c ∈ cs, isWordChar c := by
  simp only [isLabelName, Bool.and_eq_true, decide_eq_true_eq, List.all_eq_true] at h
  exact ⟨h.1.1, fun c hc => isWordChar_of_isLabelChar (.inl (h.2 c hc))⟩

theorem of_isMetricName {cs : List Char} (h : isMetricName cs) :
    cs ≠ [] ∧ ∀ c ∈ cs, isWordChar c ∧ c ≠ '#' := by
  simp only [isMetricName, Bool.and_eq_true, decide_eq_true_eq, List.all_eq_true,
    Bool.or_eq_true] at h
  refine ⟨h.1.1, fun c hc => ⟨isWordChar_of_isLabelChar (h.2 c hc), ?_⟩⟩
  rintro rfl
  exact absurd (h.2 _ hc) (by decide)

namespace LexState

variable {s s₁ s₂ : LexState} {cs ds : List Char} {ts ts' : List Token}

theorem run_append (h : s.run cs = some (ts, s₁)) (h' : s₁.run ds = some (ts', s₂)) :
    s.run (cs ++ ds) = some (ts ++ ts', s₂) := by
  induction cs generalizing s ts with
  | nil =>
    obtain ⟨rfl, rfl⟩ := Prod.mk.inj (Option.some.inj h)
    exact h'
  | cons c cs ih =>
    obtain ⟨ts₁, s', ts₂, hstep, hrest, rfl⟩ := run_cons_eq_some.mp h
    exact run_cons_eq_some.mpr ⟨ts₁, s', ts₂ ++ ts', hstep, ih hrest, List.append_assoc _ _ _⟩

theorem run_word (word : List Char) (h : ∀ c ∈ cs, isWordChar c) :
    (outside word).run cs = some ([], outside (word ++ cs)) := by
  induction cs generalizing word with
  | nil => rw [run, List.append_nil]
  | cons c cs ih =>
    obtain ⟨hblank, hmark, hquote, -, -⟩ := isWordChar_iff.mp (h c List.mem_cons_self)
    refine run_cons_eq_some.mpr ⟨[], outside (word ++ [c]), [], ?_, ?_, rfl⟩
    · simp [step, hblank, hmark, hquote]
    · rw [ih _ fun d hd => h d (List.mem_cons_of_mem c hd), List.append_assoc]
      rfl

theorem run_quoted (value : List Char) (h : '"' ∉ cs) (h' : '\\' ∉ cs) :
    (quoted value).run cs = some ([], quoted (value ++ cs)) := by
  induction cs generalizing value with
  | nil => rw [run, List.append_nil]
  | cons c cs ih =>
    rw [List.mem_cons, not_or] at h h'
    refine run_cons_eq_some.mpr ⟨[], quoted (value ++ [c]), [], ?_, ?_, rfl⟩
    · rw [step, if_neg (Ne.symm h.1), if_neg (Ne.symm h'.1)]
    · rw [ih _ h.2 h'.2, List.append_assoc]
      rfl

end LexState

/-- The tokens of a label. -/
def labelTokens (l : String × String) : List Token :=
  [.word l.1.toList, .mark '=', .quoted l.2.toList]

/-- The tokens of the labels and the closing brace. -/
def labelsTokens : List (String × String) → List Token
  | [] => [.mark '}']
  | [l] => labelTokens l ++ [.mark '}']
  | l :: l' :: labels => labelTokens l ++ .mark ',' :: labelsTokens (l' :: labels)

/-- The labels have names, and values that are written as they are. -/
def PlainLabels (labels : List (String × String)) : Prop :=
  ∀ l ∈ labels, isLabelName l.1.toList ∧ IsPlain l.2

theorem run_plainLabel {l : String × String} (hname : isLabelName l.1.toList) (h : IsPlain l.2) :
    (LexState.outside []).run (plainLabel l) = some (labelTokens l, .outside []) := by
  obtain ⟨hne, hword⟩ := of_isLabelName hname
  have hopen : (LexState.outside l.1.toList).run ['=', '"']
      = some ([.word l.1.toList, .mark '='], .quoted []) := by
    simp [LexState.run, LexState.step, isBlank, isMark, flush_of_ne_nil hne]
  have hclose : ∀ value, (LexState.quoted value).run ['"']
      = some ([.quoted value], .outside []) := fun _ => rfl
  have hrun := LexState.run_append (LexState.run_append (LexState.run_append
    (LexState.run_word [] hword) hopen) (LexState.run_quoted [] h.1 h.2.1)) (hclose _)
  have hlabel : plainLabel l = l.1.toList ++ ['=', '"'] ++ l.2.toList ++ ['"'] := by
    simp [plainLabel]
  rw [hlabel]
  exact hrun

theorem run_plainLabels {labels : List (String × String)} (h : PlainLabels labels) :
    (LexState.outside []).run (plainLabels labels) = some (labelsTokens labels, .outside []) := by
  have hmark : ∀ c, isBlank c = false → isMark c →
      (LexState.outside []).run [c] = some ([.mark c], .outside []) := by
    intro c hblank hc
    simp [LexState.run, LexState.step, hblank, hc]
  fun_induction plainLabels labels with
  | case1 => exact hmark '}' (by decide) (by decide)
  | case2 l =>
    obtain ⟨hname, hvalue⟩ := h l List.mem_cons_self
    exact LexState.run_append (run_plainLabel hname hvalue) (hmark '}' (by decide) (by decide))
  | case3 l l' labels ih =>
    obtain ⟨⟨hname, hvalue⟩, hrest⟩ := List.forall_mem_cons.mp h
    exact LexState.run_append (run_plainLabel hname hvalue)
      (LexState.run_append (hmark ',' (by decide) (by decide)) (ih hrest))

theorem readLabels_labelsTokens {labels : List (String × String)} (h : PlainLabels labels)
    (ts : List Token) : readLabels (labelsTokens labels ++ ts) = some (labels, ts) := by
  fun_induction labelsTokens labels with
  | case1 => rfl
  | case2 l =>
    obtain ⟨hname, -⟩ := h l List.mem_cons_self
    simp [labelTokens, readLabels, hname]
  | case3 l l' labels ih =>
    obtain ⟨⟨hname, -⟩, hrest⟩ := List.forall_mem_cons.mp h
    simp [labelTokens, readLabels, hname, ih hrest]

/-- The tokens of the labels in braces. -/
def bracesTokens : List (String × String) → List Token
  | [] => []
  | l :: labels => .mark '{' :: labelsTokens (l :: labels)

theorem run_plainBraces {labels : List (String × String)} (word : List Char)
    (h : PlainLabels labels) :
    (LexState.outside word).run (plainBraces labels ++ [' '])
      = some (flush word ++ bracesTokens labels, .outside []) := by
  have hblank : ∀ word, (LexState.outside word).run [' '] = some (flush word, .outside []) :=
    fun word => by simp [LexState.run, LexState.step, isBlank]
  have hopen : (LexState.outside word).run ['{']
      = some (flush word ++ [.mark '{'], .outside []) := by
    simp [LexState.run, LexState.step, isBlank, isMark]
  cases labels with
  | nil => simpa [bracesTokens, plainBraces] using hblank word
  | cons l labels =>
    have hrun := LexState.run_append hopen
      (LexState.run_append (run_plainLabels h) (hblank []))
    rw [plainBraces, List.cons_append, ← List.singleton_append, hrun]
    simp [bracesTokens]

section

variable {ν : Type} {read : String → Option ν} {write : ν → String}

/-- A sample with names and a value that can be read. -/
structure Sample.Named (read : String → Option ν) (write : ν → String) (s : Sample ν) : Prop where
  name : isMetricName s.name.toList
  labels : ∀ l ∈ s.labels, isLabelName l.1.toList
  word : (write s.value).toList ≠ [] ∧ ∀ c ∈ (write s.value).toList, isWordChar c
  read : read (write s.value) = some s.value

/-- Nothing in a sample's labels is to be escaped. -/
def Sample.IsPlain (s : Sample ν) : Prop := ∀ l ∈ s.labels, Exposition.IsPlain l.2

theorem Sample.Named.plainLabels {s : Sample ν} (h : s.Named read write) (hs : s.IsPlain) :
    PlainLabels s.labels := fun l hl => ⟨h.labels l hl, hs l hl⟩

/-- The tokens of a sample. -/
def sampleTokens (write : ν → String) (s : Sample ν) : List Token :=
  .word s.name.toList :: (bracesTokens s.labels ++ [.word (write s.value).toList])

theorem lex_plain {s : Sample ν} (h : s.Named read write) (hs : s.IsPlain) :
    lex (s.plain write) = some (sampleTokens write s) := by
  obtain ⟨hne, hname⟩ := of_isMetricName h.name
  have hline : s.plain write
      = s.name.toList ++ (plainBraces s.labels ++ [' ']) ++ (write s.value).toList := by
    simp [Sample.plain]
  have hrun := LexState.run_append (LexState.run_append
    (LexState.run_word [] fun c hc => (hname c hc).1) (run_plainBraces _ (h.plainLabels hs)))
    (LexState.run_word [] h.word.2)
  rw [lex, hline, hrun]
  simp [sampleTokens, flush_of_ne_nil hne, flush_of_ne_nil h.word.1]

theorem readSample_sampleTokens {s : Sample ν} (h : s.Named read write) (hs : s.IsPlain) :
    readSample read (sampleTokens write s) = some s := by
  have hvalue : readValue read [.word (write s.value).toList] = some s.value := by
    rw [readValue, String.ofList_toList, h.read]
  have hlabels := readLabels_labelsTokens (h.plainLabels hs) [.word (write s.value).toList]
  obtain ⟨name, labels, value⟩ := s
  cases labels with
  | nil => simp [sampleTokens, bracesTokens, readSample, h.name, hvalue]
  | cons l labels => simp [sampleTokens, bracesTokens, readSample, h.name, hlabels, hvalue]

theorem readLine_plain {s : Sample ν} (h : s.Named read write) (hs : s.IsPlain) :
    readLine read (s.plain write) = some [s] := by
  obtain ⟨hne, hname⟩ := of_isMetricName h.name
  obtain ⟨c, cs, hcs⟩ := List.exists_cons_of_ne_nil hne
  obtain ⟨hc, hcomment⟩ := hname c (hcs ▸ List.mem_cons_self)
  obtain ⟨rest, hrest⟩ : ∃ rest, s.plain write = c :: rest :=
    ⟨_, by rw [Sample.plain, hcs, List.cons_append, List.cons_append]⟩
  have hdrop : (c :: rest).dropWhile isBlank = c :: rest :=
    List.dropWhile_cons_of_neg (by simp [(isWordChar_iff.mp hc).1])
  have hlex : (lex (c :: rest)).bind (readSample read) = some s := by
    rw [← hrest, lex_plain h hs, Option.bind_some, readSample_sampleTokens h hs]
  rw [readLine, hrest, hdrop]
  split
  · contradiction
  · rename_i heq
    exact absurd (List.cons.inj heq).1 hcomment
  · rw [hlex, Option.map_some]

/-! ## Lines

A label's value may hold a line feed, and then the text has more lines than were written. -/

/-- **A text is read line by line.** -/
theorem readFrom_append {line cs ds : List Char} (hline : cs = [] → line = [])
    (hend : ∀ c ∈ cs.getLast?, c = '\n') :
    readFrom read line (cs ++ ds)
      = (readFrom read line cs).bind fun samples =>
          (readFrom read [] ds).map (samples ++ ·) := by
  induction cs generalizing line with
  | nil =>
    obtain rfl := hline rfl
    simp [readFrom]
  | cons c cs ih =>
    have hlast : ∀ d ∈ cs.getLast?, d = '\n' := by
      intro d hd
      refine hend d ?_
      rw [List.getLast?_cons, Option.mem_def.mp hd]
      rfl
    rw [List.cons_append, readFrom, readFrom]
    split_ifs with hfeed
    · rw [ih (fun _ => rfl) hlast]
      simp [Option.map_bind, Option.bind_assoc, Function.comp_def, Option.bind_map]
    · refine ih (fun hnil => ?_) hlast
      subst hnil
      exact absurd (hend c rfl) hfeed

/-- A text that can be read is followed by another one. -/
theorem readFrom_append_of_eq_some {line cs ds : List Char} {samples : List (Sample ν)}
    (h : readFrom read line cs = some samples) :
    readFrom read line (cs ++ ds) = (readFrom read [] ds).map (samples ++ ·) := by
  induction cs generalizing line samples with
  | nil =>
    rw [readFrom] at h
    split_ifs at h with hline
    obtain rfl := Option.some.inj h
    simp [hline]
  | cons c cs ih =>
    rw [readFrom] at h
    rw [List.cons_append, readFrom]
    split_ifs at h ⊢ with hfeed
    · obtain ⟨first, hfirst, h⟩ := Option.bind_eq_some_iff.mp h
      obtain ⟨rest, hrest, rfl⟩ := Option.map_eq_some_iff.mp h
      rw [hfirst, Option.bind_some, ih hrest, Option.map_map]
      simp [Function.comp_def]
    · exact ih h

theorem readFrom_line {line cs : List Char} (h : '\n' ∉ cs) :
    readFrom read line (cs ++ ['\n']) = readLine read (line ++ cs) := by
  induction cs generalizing line with
  | nil => simp [readFrom]
  | cons c cs ih =>
    rw [List.mem_cons, not_or] at h
    rw [List.cons_append, readFrom, if_neg (Ne.symm h.1), ih h.2, List.append_assoc]
    rfl

/-- A comment has no samples. -/
theorem readFrom_comment {text : List Char} (h : '\n' ∉ text) :
    readFrom read [] ('#' :: text ++ ['\n']) = some [] := by
  have hfeed : '\n' ∉ '#' :: text := by simpa using h
  rw [readFrom_line hfeed]
  rfl

theorem feed_notMem_plainBraces {labels : List (String × String)} (h : PlainLabels labels) :
    '\n' ∉ plainBraces labels := by
  have hlabel : ∀ l : String × String, isLabelName l.1.toList ∧ IsPlain l.2 →
      '\n' ∉ plainLabel l := by
    rintro l ⟨hname, hvalue⟩ hmem
    have hfeed : '\n' ∉ l.1.toList := fun hc => absurd ((of_isLabelName hname).2 _ hc) (by decide)
    simp [plainLabel, hfeed, hvalue.2.2] at hmem
  have hlabels : '\n' ∉ plainLabels labels := by
    fun_induction plainLabels labels with
    | case1 => decide
    | case2 l => simp [hlabel l (h l List.mem_cons_self)]
    | case3 l l' labels ih =>
      obtain ⟨hl, hrest⟩ := List.forall_mem_cons.mp h
      simp [hlabel l hl, ih hrest]
  cases labels with
  | nil => exact List.not_mem_nil
  | cons l labels => simpa [plainBraces] using hlabels

theorem feed_notMem_plain {s : Sample ν} (h : s.Named read write) (hs : s.IsPlain) :
    '\n' ∉ s.plain write := by
  have hname : '\n' ∉ s.name.toList := fun hc =>
    absurd ((of_isMetricName h.name).2 _ hc).1 (by decide)
  have hvalue : '\n' ∉ (write s.value).toList := fun hc => absurd (h.word.2 _ hc) (by decide)
  simp [Sample.plain, hname, hvalue, feed_notMem_plainBraces (h.plainLabels hs)]

theorem plainText_cons (s : Sample ν) (samples : List (Sample ν)) :
    plainText write (s :: samples) = s.plain write ++ ['\n'] ++ plainText write samples :=
  List.flatMap_cons

/-- A text of lines ends in a line feed. -/
theorem getLast?_plainText (samples : List (Sample ν)) :
    ∀ c ∈ (plainText write samples).getLast?, c = '\n' := by
  induction samples with
  | nil => exact fun c hc => absurd hc (by simp [plainText])
  | cons s samples ih =>
    intro c hc
    rw [plainText_cons] at hc
    by_cases hnil : plainText write samples = []
    · simpa [hnil, eq_comm] using hc
    · rw [List.getLast?_append_of_ne_nil _ hnil] at hc
      exact ih c hc

/-- **Samples written without escapes read back**, where nothing was to be escaped. -/
theorem readFrom_plainText {samples : List (Sample ν)}
    (h : ∀ s ∈ samples, s.Named read write ∧ s.IsPlain) :
    readFrom read [] (plainText write samples) = some samples := by
  induction samples with
  | nil => rfl
  | cons s samples ih =>
    obtain ⟨⟨hnamed, hplain⟩, hrest⟩ := List.forall_mem_cons.mp h
    have hline : readFrom read [] (s.plain write ++ ['\n']) = some [s] := by
      rw [readFrom_line (feed_notMem_plain hnamed hplain), List.nil_append,
        readLine_plain hnamed hplain]
    rw [plainText_cons, readFrom_append (fun _ => rfl) (by simp), hline, ih hrest]
    rfl

theorem textWeight_plainBraces {labels : List (String × String)}
    (h : ∀ l ∈ labels, isLabelName l.1.toList) :
    textWeight (plainBraces labels) = labelsWeight 1 labels := by
  have hlabel : ∀ l : String × String, isLabelName l.1.toList →
      textWeight (plainLabel l) = 4 + textWeight l.2.toList := by
    intro l hname
    have := textWeight_eq_zero_of_isWordChar (of_isLabelName hname).2
    simp [plainLabel, weight, this]
    omega
  have hlabels : textWeight (plainLabels labels) = labelsWeight 1 labels := by
    fun_induction plainLabels labels with
    | case1 => rfl
    | case2 l => simp [hlabel l (h l List.mem_cons_self), weight]
    | case3 l l' labels ih =>
      obtain ⟨hl, hrest⟩ := List.forall_mem_cons.mp h
      have hthese := ih hrest
      simp only [labelsWeight_cons] at hthese
      simp [hlabel l hl, hthese, weight]
  cases labels with
  | nil => rfl
  | cons l labels => simpa [plainBraces, weight] using hlabels

theorem textWeight_plainText {samples : List (Sample ν)} (h : ∀ s ∈ samples, s.Named read write) :
    textWeight (plainText write samples)
      = (samples.map fun s => labelsWeight 1 s.labels + 1).sum := by
  induction samples with
  | nil => rfl
  | cons s samples ih =>
    obtain ⟨hs, hrest⟩ := List.forall_mem_cons.mp h
    have hname := textWeight_eq_zero_of_isWordChar fun c hc => ((of_isMetricName hs.name).2 c hc).1
    have hvalue := textWeight_eq_zero_of_isWordChar hs.word.2
    simp [plainText_cons, Sample.plain, ih hrest, hname, hvalue, textWeight_plainBraces hs.labels,
      weight]
    omega

theorem labelsWeight_two (labels : List (String × String)) :
    labelsWeight 2 labels
      = labelsWeight 1 labels + (labels.map fun l => textWeight l.2.toList).sum := by
  induction labels with
  | nil => rfl
  | cons l labels ih =>
    simp only [labelsWeight_cons, ih, List.map_cons, List.sum_cons]
    omega

/-- **And nowhere else**: if the labels of the samples are read back, in whatever order and
whatever else is read, none of them has a character that should have been escaped. -/
theorem isPlain_of_readFrom_plainText {samples samples' back : List (Sample ν)}
    (hnamed : ∀ s ∈ samples, s.Named read write)
    (hread : readFrom read [] (plainText write samples) = some samples')
    (hback : back.Sublist samples')
    (hlabels : (back.map Sample.labels).Perm (samples.map Sample.labels)) :
    ∀ s ∈ samples, s.IsPlain := by
  have hweight : samplesWeight samples ≤ samplesWeight samples' := by
    have hperm := (hlabels.map fun labels => labelsWeight 2 labels + 1).sum_eq
    have hsub := (hback.map fun s => labelsWeight 2 s.labels + 1).sum_le_sum
      fun _ _ => Nat.zero_le _
    rw [List.map_map, List.map_map] at hperm
    exact hperm.ge.trans hsub
  have hle := samplesWeight_readFrom List.not_mem_nil hread
  rw [textWeight_plainText hnamed, textWeight_nil, Nat.zero_add] at hle
  have hsum : samplesWeight samples
      = (samples.map fun s => labelsWeight 1 s.labels + 1).sum +
        (samples.map fun s => (s.labels.map fun l => textWeight l.2.toList).sum).sum := by
    clear hweight hle hlabels hback hread hnamed
    induction samples with
    | nil => rfl
    | cons s samples ih =>
      simp only [samplesWeight_cons, labelsWeight_two, ih, List.map_cons, List.sum_cons]
      omega
  have hzero : (samples.map fun s => (s.labels.map fun l => textWeight l.2.toList).sum).sum
      = 0 := by omega
  intro s hs l hl
  rw [List.sum_eq_zero_iff_forall_eq_nat, List.forall_mem_map] at hzero
  have := hzero s hs
  rw [List.sum_eq_zero_iff_forall_eq_nat, List.forall_mem_map] at this
  exact textWeight_eq_zero_iff.mp (this l hl)

end

end Exposition

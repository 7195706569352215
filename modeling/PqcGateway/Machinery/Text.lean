import PqcGateway.Machinery.Checked
import Mathlib.Data.List.Basic
import Mathlib.Data.List.DropRight
import Mathlib.Data.List.TakeDrop
import Mathlib.Tactic.IntervalCases

/-!
# Machinery/Text — Rust strings, read and written

What the standard library does to a `str`: slices at byte offsets, which panic off a character
boundary (`slice`), `splitn` (`splitn2`), `split` and `replace`, `u8::from_str_radix(_, 16)`
(`u8FromStrRadix16`) and the formats `{:02x}` (`hexChars`) and `{}` of an integer.

* `u8FromStrRadix16_hexPair`, `hexChars_injective` — hex text reads back, and determines the bytes.
* `splitn2_of_notMem`, `split_append` — a separator splits where it was put.
* `replaceFrom_append`, `length_replaceFrom_lt` — what `replace` does to the copies it finds.
* `decimal_append_inj` — a decimal number is determined by a text that starts with it and a
  separator.
-/

namespace Text

/-! ## Slices at byte offsets

Offsets count bytes of the encoding, so a slice may begin or end inside a character. -/

/-- `str::len`: bytes, not characters. -/
def byteLen (cs : List Char) : ℕ := (cs.map Char.utf8Size).sum

@[simp] theorem byteLen_nil : byteLen [] = 0 := rfl

@[simp] theorem byteLen_cons (c : Char) (cs : List Char) :
    byteLen (c :: cs) = c.utf8Size + byteLen cs := by
  rw [byteLen, List.map_cons, List.sum_cons, ← byteLen]

theorem byteLen_append (cs ds : List Char) : byteLen (cs ++ ds) = byteLen cs + byteLen ds := by
  rw [byteLen, List.map_append, List.sum_append, ← byteLen, ← byteLen]

theorem byteLen_pos {cs : List Char} (h : cs ≠ []) : 0 < byteLen cs := by
  obtain ⟨c, cs, rfl⟩ := List.exists_cons_of_ne_nil h
  have := c.utf8Size_pos
  rw [byteLen_cons]
  omega

/-- Drop `n` bytes; `none` unless that ends at a character boundary. -/
def dropBytes : List Char → ℕ → Option (List Char)
  | cs, 0 => some cs
  | [], _ + 1 => none
  | c :: cs, n + 1 => if c.utf8Size ≤ n + 1 then dropBytes cs (n + 1 - c.utf8Size) else none

/-- Take `n` bytes; `none` unless that ends at a character boundary. -/
def takeBytes : List Char → ℕ → Option (List Char)
  | _, 0 => some []
  | [], _ + 1 => none
  | c :: cs, n + 1 =>
    if c.utf8Size ≤ n + 1 then (takeBytes cs (n + 1 - c.utf8Size)).map (c :: ·) else none

/-- `&s[i..j]`: panics unless `i ≤ j` are character boundaries of `s`. -/
def slice (s : String) (i j : ℕ) : Checked String :=
  match if i ≤ j then (dropBytes s.toList i).bind fun cs => takeBytes cs (j - i) else none with
  | some cs => .ok (String.ofList cs)
  | none => Checked.panicWith "byte index is out of bounds or not a char boundary"

/-- Characters of one byte. -/
def IsAscii (cs : List Char) : Prop := ∀ c ∈ cs, c.utf8Size = 1

theorem dropBytes_of_isAscii {cs : List Char} (h : IsAscii cs) {n : ℕ} (hn : n ≤ cs.length) :
    dropBytes cs n = some (cs.drop n) := by
  induction cs generalizing n with
  | nil => simp_all [dropBytes]
  | cons c cs ih =>
    cases n with
    | zero => simp [dropBytes]
    | succ n =>
      have hc : c.utf8Size = 1 := h c List.mem_cons_self
      rw [dropBytes, hc, if_pos (by omega), Nat.add_sub_cancel, List.drop_succ_cons]
      exact ih (fun d hd => h d (List.mem_cons_of_mem c hd)) (Nat.le_of_succ_le_succ hn)

theorem takeBytes_of_isAscii {cs : List Char} (h : IsAscii cs) {n : ℕ} (hn : n ≤ cs.length) :
    takeBytes cs n = some (cs.take n) := by
  induction cs generalizing n with
  | nil => simp_all [takeBytes]
  | cons c cs ih =>
    cases n with
    | zero => simp [takeBytes]
    | succ n =>
      have hc : c.utf8Size = 1 := h c List.mem_cons_self
      rw [takeBytes, hc, if_pos (by omega), Nat.add_sub_cancel, List.take_succ_cons,
        ih (fun d hd => h d (List.mem_cons_of_mem c hd)) (Nat.le_of_succ_le_succ hn)]
      rfl

/-- **Slices of ASCII text count characters.** -/
theorem slice_of_isAscii {cs : List Char} (h : IsAscii cs) {i j : ℕ} (hij : i ≤ j)
    (hj : j ≤ cs.length) :
    slice (String.ofList cs) i j = .ok (String.ofList ((cs.drop i).take (j - i))) := by
  have hdrop : IsAscii (cs.drop i) := fun c hc => h c (List.mem_of_mem_drop hc)
  have hlen : j - i ≤ (cs.drop i).length := by
    rw [List.length_drop]
    omega
  rw [slice, String.toList_ofList, if_pos hij, dropBytes_of_isAscii h (hij.trans hj),
    Option.bind_some, takeBytes_of_isAscii hdrop hlen]

/-- `str::as_bytes`. -/
def asBytes (s : String) : List UInt8 := s.toByteArray.data.toList

theorem asBytes_injective : Function.Injective asBytes := fun _ _ hst =>
  String.toByteArray_inj.mp (ByteArray.ext (Array.toList_inj.mp hst))

theorem asBytes_ofList (cs : List Char) :
    asBytes (String.ofList cs) = cs.flatMap String.utf8EncodeChar := by
  rw [asBytes, String.toByteArray_ofList, List.utf8Encode, List.data_toByteArray]

theorem asBytes_append (s t : String) : asBytes (s ++ t) = asBytes s ++ asBytes t := by
  rw [asBytes, String.toByteArray_append, ByteArray.data_append, Array.toList_append]
  rfl

theorem le_or_right (x : UInt8) {y : UInt8} (hy : 128 ≤ y) : 128 ≤ x ||| y := by
  rw [UInt8.le_iff_toNat_le] at hy ⊢
  rw [UInt8.toNat_or]
  exact hy.trans Nat.right_le_or

/-- A byte below 128 is a character of its own. -/
theorem utf8EncodeChar_eq_of_mem {c : Char} {b : UInt8} (h : b ∈ String.utf8EncodeChar c)
    (hb : b < 128) : String.utf8EncodeChar c = [b] := by
  have hlow : ∀ x y : UInt8, 128 ≤ y → b ≠ x ||| y := fun x y hy heq =>
    UInt8.not_lt.mpr (le_or_right x hy) (heq ▸ hb)
  obtain hsize | hsize | hsize | hsize := c.utf8Size_eq
  · rw [String.utf8EncodeChar_eq_singleton hsize] at h ⊢
    rw [List.mem_singleton.mp h]
  · rw [String.utf8EncodeChar_eq_cons_cons hsize] at h
    simp [hlow] at h
  · rw [String.utf8EncodeChar_eq_cons_cons_cons hsize] at h
    simp [hlow] at h
  · rw [String.utf8EncodeChar_eq_cons_cons_cons_cons hsize] at h
    simp [hlow] at h

/-- **What follows a byte below 128 in a text is a text.** -/
theorem exists_asBytes_after {t : String} {l r : List UInt8} {b : UInt8}
    (h : asBytes t = l ++ b :: r) (hb : b < 128) : ∃ u, asBytes u = r := by
  obtain ⟨cs, rfl⟩ : ∃ cs, t = String.ofList cs := ⟨t.toList, String.ofList_toList.symm⟩
  rw [asBytes_ofList] at h
  induction cs generalizing l with
  | nil => simp at h
  | cons c cs ih =>
    rw [List.flatMap_cons, List.append_eq_append_iff] at h
    obtain ⟨more, -, hmore⟩ | ⟨more, hchar, hmore⟩ := h
    · exact ih hmore
    · cases more with
      | nil => exact ih (l := []) hmore.symm
      | cons b' more =>
        -- the byte is one of the first character's, so it is that character
        rw [List.cons_append] at hmore
        obtain ⟨rfl, rfl⟩ := List.cons.inj hmore
        have hsingle := utf8EncodeChar_eq_of_mem (c := c) (b := b) (by simp [hchar]) hb
        rw [hchar] at hsingle
        obtain ⟨-, hmore⟩ | ⟨-, hmore⟩ := List.append_eq_singleton_iff.mp hsingle
        · rw [(List.cons.inj hmore).2]
          exact ⟨String.ofList cs, asBytes_ofList cs⟩
        · cases hmore

/-! ## Separators

A field that does not contain the separator is found again between two of them. -/

/-- `s.splitn(2, sep)`: what stands before the first `sep`, and the rest. -/
def splitn2 (sep : Char) (s : String) : List String :=
  match s.toList.span (· ≠ sep) with
  | (_, []) => [s]
  | (before, _ :: after) => [String.ofList before, String.ofList after]

theorem span_ne_of_notMem {sep : Char} {before : List Char} (h : sep ∉ before)
    (after : List Char) :
    (before ++ sep :: after).span (· ≠ sep) = (before, sep :: after) := by
  have hbefore : ∀ c ∈ before, decide (c ≠ sep) = true := fun c hc =>
    decide_eq_true fun hcs => h (hcs ▸ hc)
  rw [List.span_eq_takeWhile_dropWhile, List.takeWhile_append_of_pos hbefore,
    List.dropWhile_append_of_pos hbefore]
  simp

theorem splitn2_of_notMem {sep : Char} {before : List Char} (h : sep ∉ before)
    (after : List Char) :
    splitn2 sep (String.ofList (before ++ sep :: after))
      = [String.ofList before, String.ofList after] := by
  rw [splitn2, String.toList_ofList, span_ne_of_notMem h]

theorem splitn2_of_notMem_text {sep : Char} {s : String} (h : sep ∉ s.toList) :
    splitn2 sep s = [s] := by
  have hspan : s.toList.span (· ≠ sep) = (s.toList, []) := by
    have hall : ∀ c ∈ s.toList, decide (c ≠ sep) = true := fun c hc =>
      decide_eq_true fun hcs => h (hcs ▸ hc)
    rw [List.span_eq_takeWhile_dropWhile, List.takeWhile_eq_self_iff.mpr hall,
      List.dropWhile_eq_nil_iff.mpr hall]
  rw [splitn2, hspan]

/-- `s.split(sep)`: the parts between the separators. -/
def split (sep : Char) (s : String) : List String := (s.toList.splitOn sep).map String.ofList

theorem split_of_notMem {sep : Char} {s : String} (h : sep ∉ s.toList) : split sep s = [s] := by
  rw [split, List.splitOn_eq_singleton h, List.map_singleton, String.ofList_toList]

/-- **Text joined by a separator splits there.** -/
theorem split_append {sep : Char} {mid : String} (hmid : mid.toList = [sep]) (s t : String) :
    split sep (s ++ mid ++ t) = split sep s ++ split sep t := by
  rw [split, String.toList_append, String.toList_append, hmid, List.append_assoc,
    List.singleton_append, List.splitOn_append_cons_self, List.map_append]
  rfl

/-- No part has the separator in it. -/
theorem notMem_of_mem_splitOn {sep : Char} {cs part : List Char} (h : part ∈ cs.splitOn sep) :
    sep ∉ part := by
  induction cs generalizing part with
  | nil =>
    rw [List.splitOn_nil, List.mem_singleton] at h
    simp [h]
  | cons c cs ih =>
    rw [List.splitOn_cons_eq_if_modifyHead] at h
    obtain ⟨first, parts, hsplit⟩ := List.exists_cons_of_ne_nil (List.splitOn_ne_nil sep cs)
    rw [hsplit] at h ih
    by_cases hc : c = sep
    · rw [if_pos (by simpa using hc), List.mem_cons] at h
      obtain rfl | h := h
      · exact List.not_mem_nil
      · exact ih h
    · rw [if_neg (by simpa using hc), List.modifyHead_cons, List.mem_cons] at h
      obtain rfl | h := h
      · rw [List.mem_cons, not_or]
        exact ⟨fun hsep => hc hsep.symm, ih List.mem_cons_self⟩
      · exact ih (List.mem_cons_of_mem first h)

theorem notMem_of_mem_split {sep : Char} {s part : String} (h : part ∈ split sep s) :
    sep ∉ part.toList := by
  obtain ⟨cs, hcs, rfl⟩ := List.mem_map.mp h
  rw [String.toList_ofList]
  exact notMem_of_mem_splitOn hcs

/-- **A text splits in three** exactly when it is three parts without the separator, joined by
it. -/
theorem split_eq_triple {sep : Char} {mid : String} (hmid : mid.toList = [sep])
    {s part₀ part₁ part₂ : String} : split sep s = [part₀, part₁, part₂] ↔
      s = part₀ ++ mid ++ part₁ ++ mid ++ part₂ ∧
        ∀ part ∈ [part₀, part₁, part₂], sep ∉ part.toList := by
  constructor
  · intro h
    have hsplit := congrArg (List.map String.toList) h
    rw [split, List.map_map, List.map_congr_left (f := String.toList ∘ String.ofList)
      fun _ _ => String.toList_ofList, List.map_id'] at hsplit
    refine ⟨String.toList_inj.mp ?_, fun part hpart => notMem_of_mem_split (h ▸ hpart)⟩
    have hjoin : [sep].intercalate (s.toList.splitOn sep) = s.toList :=
      List.intercalate_splitOn sep
    rw [hsplit] at hjoin
    rw [← hjoin]
    simp [List.intercalate, hmid]
  · rintro ⟨rfl, hparts⟩
    rw [split_append hmid, split_append hmid, split_of_notMem (hparts part₀ (by simp)),
      split_of_notMem (hparts part₁ (by simp)), split_of_notMem (hparts part₂ (by simp))]
    rfl

/-- The decimal digits of a number are digits. -/
theorem notMem_toDigits {sep : Char} (h : sep.isDigit = false) (n : ℕ) :
    sep ∉ Nat.toDigits 10 n := fun hmem => by
  have := Nat.isDigit_of_mem_toDigits (by decide) (by decide) hmem
  simp [h] at this

/-- **A number is determined by its decimal text, up to the first separator.** -/
theorem decimal_append_inj {sep : Char} (h : sep.isDigit = false) {m n : ℕ} {a b : List Char}
    (hab : (toString m).toList ++ sep :: a = (toString n).toList ++ sep :: b) : m = n := by
  have hdigits : ∀ k : ℕ, (toString k).toList = Nat.toDigits 10 k := fun _ => Nat.toList_repr
  have hspan := congrArg (List.span (· ≠ sep)) hab
  rw [hdigits, hdigits, span_ne_of_notMem (notMem_toDigits h m),
    span_ne_of_notMem (notMem_toDigits h n)] at hspan
  have hmn := (Prod.mk.inj hspan).1
  rw [← Nat.ofDigitChars_ten_toDigits (n := m), hmn, Nat.ofDigitChars_ten_toDigits]

/-- `str::parse::<u64>`: a plus sign may come first. -/
def parseU64 (s : String) : Option ℕ :=
  let digits := match s.toList with
    | '+' :: cs => cs
    | cs => cs
  let n := Nat.ofDigitChars 10 digits 0
  if digits ≠ [] ∧ digits.all Char.isDigit ∧ n < 2 ^ 64 then some n else none

/-- The decimal text of a number is digits. -/
theorem toList_toString (n : ℕ) :
    (toString n).toList ≠ [] ∧ ∀ c ∈ (toString n).toList, c.isDigit := by
  have hdigits : (toString n).toList = Nat.toDigits 10 n := Nat.toList_repr
  rw [hdigits]
  exact ⟨Nat.toDigits_ne_nil, fun c hc =>
    Nat.isDigit_of_mem_toDigits (by decide) (by decide) hc⟩

/-- **A number reads back** from its decimal text. -/
theorem parseU64_toString {n : ℕ} (h : n < 2 ^ 64) : parseU64 (toString n) = some n := by
  obtain ⟨hne, hdigit⟩ := toList_toString n
  have hdigits : (toString n).toList = Nat.toDigits 10 n := Nat.toList_repr
  have hvalue : Nat.ofDigitChars 10 (toString n).toList 0 = n := by
    rw [hdigits, Nat.ofDigitChars_ten_toDigits]
  unfold parseU64
  split
  · rename_i cs hcs
    exact absurd (hdigit '+' (hcs ▸ List.mem_cons_self)) (by decide)
  · simp only [hvalue]
    exact if_pos ⟨hne, List.all_eq_true.mpr hdigit, h⟩

theorem toList_join (texts : List String) :
    (String.join texts).toList = texts.flatMap String.toList := by
  have hfold : ∀ s : String, (texts.foldl (fun r t => r ++ t) s).toList
      = s.toList ++ texts.flatMap String.toList := by
    induction texts with
    | nil => simp
    | cons t texts ih =>
      intro s
      rw [List.foldl_cons, ih, String.toList_append, List.flatMap_cons, List.append_assoc]
  exact hfold ""

/-! ## Prefixes -/

/-- `s.starts_with(pre)`. -/
def startsWith (pre s : String) : Bool := pre.toList.isPrefixOf s.toList

/-- `s.strip_prefix(pre)`. -/
def stripPrefix (pre s : String) : Option String :=
  if startsWith pre s then some (String.ofList (s.toList.drop pre.toList.length)) else none

/-- `s.trim_end_matches(c)`. -/
def trimEndMatches (c : Char) (s : String) : String :=
  String.ofList (s.toList.rdropWhile fun d => d == c)

/-- What is trimmed off is copies of the character. -/
theorem toList_eq_trimEndMatches (c : Char) (s : String) :
    ∃ n, s.toList = (trimEndMatches c s).toList ++ List.replicate n c := by
  refine ⟨(s.toList.rtakeWhile fun d => d == c).length, ?_⟩
  have hall : s.toList.rtakeWhile (fun d => d == c)
      = List.replicate (s.toList.rtakeWhile fun d => d == c).length c :=
    List.eq_replicate_of_mem fun d hd => by simpa using List.mem_rtakeWhile_imp hd
  rw [← hall, trimEndMatches, String.toList_ofList]
  exact List.rdropWhile_append_rtakeWhile.symm

/-- **Two starts of one text that take as many bytes** are the same. -/
theorem eq_of_prefix_of_byteLen_eq {cs ds es : List Char} (hcs : cs <+: es) (hds : ds <+: es)
    (hlen : byteLen cs = byteLen ds) : cs = ds := by
  have hnil : ∀ {as bs : List Char}, byteLen as = byteLen (as ++ bs) → as ++ bs = as := by
    intro as bs h
    rw [byteLen_append] at h
    rw [List.append_right_eq_self]
    by_contra hne
    have := byteLen_pos hne
    omega
  obtain ⟨bs, rfl⟩ | ⟨bs, rfl⟩ := List.prefix_or_prefix_of_prefix hcs hds
  · exact (hnil hlen).symm
  · exact hnil hlen.symm

/-- The text is its prefix and what is left. -/
theorem startsWith_iff {pre s : String} : startsWith pre s = true ↔ ∃ rest, s = pre ++ rest := by
  rw [startsWith, List.isPrefixOf_iff_prefix]
  constructor
  · rintro ⟨rest, hrest⟩
    exact ⟨String.ofList rest, String.toList_injective (by simpa using hrest.symm)⟩
  · rintro ⟨rest, rfl⟩
    exact ⟨rest.toList, String.toList_append.symm⟩

theorem stripPrefix_append (pre rest : String) : stripPrefix pre (pre ++ rest) = some rest := by
  rw [stripPrefix, if_pos (startsWith_iff.mpr ⟨rest, rfl⟩), String.toList_append,
    List.drop_left, String.ofList_toList]

/-! ## Replacement

A copy is replaced where it begins, and the search goes on behind it. -/

/-- Every copy of `old` replaced by `new`, from left to right, where the first `skip` characters are
left of a copy replaced before. -/
def replaceFrom (old new : List Char) : ℕ → List Char → List Char
  | _, [] => []
  | skip + 1, _ :: cs => replaceFrom old new skip cs
  | 0, c :: cs =>
    if old.isPrefixOf (c :: cs) then new ++ replaceFrom old new (old.length - 1) cs
    else c :: replaceFrom old new 0 cs

/-- `s.replace(old, new)`, where `old` is not empty. -/
def replace (old new s : String) : String :=
  String.ofList (replaceFrom old.toList new.toList 0 s.toList)

section

variable {old new cs : List Char}

theorem replaceFrom_skip (old new : List Char) (ds rest : List Char) :
    replaceFrom old new ds.length (ds ++ rest) = replaceFrom old new 0 rest := by
  induction ds with
  | nil => rfl
  | cons d ds ih => exact ih

theorem replaceFrom_append (hold : old ≠ []) (new rest : List Char) :
    replaceFrom old new 0 (old ++ rest) = new ++ replaceFrom old new 0 rest := by
  obtain ⟨c, ds, rfl⟩ := List.exists_cons_of_ne_nil hold
  have hcopy : (c :: ds).isPrefixOf (c :: (ds ++ rest)) = true :=
    List.isPrefixOf_iff_prefix.mpr (List.prefix_append (c :: ds) rest)
  rw [List.cons_append, replaceFrom, if_pos hcopy, List.length_cons, Nat.add_sub_cancel,
    replaceFrom_skip]

theorem replaceFrom_of_not_infix (h : ¬ old <:+: cs) : replaceFrom old new 0 cs = cs := by
  induction cs with
  | nil => rfl
  | cons c cs ih =>
    rw [List.infix_cons_iff, not_or] at h
    rw [replaceFrom, if_neg (mt List.isPrefixOf_iff_prefix.mp h.1), ih h.2]

theorem length_replaceFrom_le (hle : new.length ≤ old.length) (skip : ℕ) (cs : List Char) :
    (replaceFrom old new skip cs).length ≤ cs.length - skip := by
  induction cs generalizing skip with
  | nil => exact Nat.zero_le _
  | cons c cs ih =>
    rcases skip with _ | skip
    · rw [replaceFrom]
      split_ifs with hcopy
      · have hlength := (List.isPrefixOf_iff_prefix.mp hcopy).length_le
        have hrest := ih (old.length - 1)
        rw [List.length_append]
        rw [List.length_cons] at hlength ⊢
        omega
      · exact Nat.succ_le_succ (ih 0)
    · have hrest := ih skip
      rw [replaceFrom, List.length_cons]
      omega

/-- **A copy replaced by less** makes the text shorter. -/
theorem length_replaceFrom_lt (hlt : new.length < old.length) (h : old <:+: cs) :
    (replaceFrom old new 0 cs).length < cs.length := by
  induction cs with
  | nil =>
    rw [List.infix_nil.mp h] at hlt
    cases hlt
  | cons c cs ih =>
    rw [replaceFrom]
    split_ifs with hcopy
    · have hlength := (List.isPrefixOf_iff_prefix.mp hcopy).length_le
      have hrest := length_replaceFrom_le hlt.le (old.length - 1) cs
      rw [List.length_append]
      rw [List.length_cons] at hlength ⊢
      omega
    · have hlater : old <:+: cs :=
        (List.infix_cons_iff.mp h).resolve_left (mt List.isPrefixOf_iff_prefix.mpr hcopy)
      exact Nat.succ_lt_succ (ih hlater)

end

/-! ## Hexadecimal -/

/-- Why `from_str_radix` rejects a text. -/
inductive ParseIntError
  | empty
  | invalidDigit
  | posOverflow
deriving DecidableEq, Repr

/-- The text the error displays as. -/
def ParseIntError.message : ParseIntError → String
  | .empty => "cannot parse integer from empty string"
  | .invalidDigit => "invalid digit found in string"
  | .posOverflow => "number too large to fit in target type"

/-- `char::to_digit(16)`. -/
def toHexDigit (c : Char) : Option ℕ :=
  if '0' ≤ c ∧ c ≤ '9' then some (c.toNat - '0'.toNat)
  else if 'a' ≤ c ∧ c ≤ 'f' then some (c.toNat - 'a'.toNat + 10)
  else if 'A' ≤ c ∧ c ≤ 'F' then some (c.toNat - 'A'.toNat + 10)
  else none

/-- The digits of a `u8` in base 16, most significant first; an overflow is an error. -/
def hexDigitsLoop : ℕ → List Char → Except ParseIntError UInt8
  | result, [] => .ok (UInt8.ofNat result)
  | result, c :: cs =>
    match toHexDigit c with
    | none => .error .invalidDigit
    | some x => if result * 16 + x < 256 then hexDigitsLoop (result * 16 + x) cs
      else .error .posOverflow

/-- `u8::from_str_radix(s, 16)`.  One leading plus sign is skipped; a sign alone is not a number. -/
def u8FromStrRadix16 (s : String) : Except ParseIntError UInt8 :=
  match s.toList with
  | [] => .error .empty
  | ['+'] => .error .invalidDigit
  | '+' :: digits => hexDigitsLoop 0 digits
  | digits => hexDigitsLoop 0 digits

/-- `format!("{b:02x}")`. -/
def hexPair (b : UInt8) : List Char :=
  [Nat.digitChar (b.toNat / 16), Nat.digitChar (b.toNat % 16)]

/-- The bytes in hexadecimal, two characters each. -/
def hexChars (bytes : List UInt8) : List Char := bytes.flatMap hexPair

/-- Each of the sixteen digits reads back, takes one byte and is no sign. -/
theorem digitChar_facts {n : ℕ} (hn : n < 16) :
    toHexDigit n.digitChar = some n ∧ n.digitChar.utf8Size = 1 ∧ n.digitChar ≠ '+' ∧
      n.digitChar ≠ '-' := by
  interval_cases n <;> decide

theorem toNat_div_lt (b : UInt8) : b.toNat / 16 < 16 := by
  have := b.toNat_lt
  omega

theorem mem_hexPair {b : UInt8} {c : Char} (hc : c ∈ hexPair b) : ∃ n < 16, c = n.digitChar := by
  rw [hexPair, List.mem_pair] at hc
  obtain rfl | rfl := hc
  · exact ⟨_, toNat_div_lt b, rfl⟩
  · exact ⟨_, Nat.mod_lt _ (by decide), rfl⟩

theorem mem_hexChars {bytes : List UInt8} {c : Char} (hc : c ∈ hexChars bytes) :
    ∃ n < 16, c = n.digitChar := by
  obtain ⟨b, -, hc⟩ := List.mem_flatMap.mp hc
  exact mem_hexPair hc

theorem isAscii_hexChars (bytes : List UInt8) : IsAscii (hexChars bytes) := fun c hc => by
  obtain ⟨n, hn, rfl⟩ := mem_hexChars hc
  exact (digitChar_facts hn).2.1

/-- Digits are no signs. -/
theorem ne_sign_of_mem_hexChars {bytes : List UInt8} {c : Char} (hc : c ∈ hexChars bytes) :
    c ≠ '+' ∧ c ≠ '-' := by
  obtain ⟨n, hn, rfl⟩ := mem_hexChars hc
  exact (digitChar_facts hn).2.2

theorem dash_notMem_hexPair (b : UInt8) : '-' ∉ hexPair b := fun hc => by
  obtain ⟨n, hn, h⟩ := mem_hexPair hc
  exact (digitChar_facts hn).2.2.2 h.symm

@[simp] theorem length_hexChars (bytes : List UInt8) :
    (hexChars bytes).length = 2 * bytes.length := by
  induction bytes with
  | nil => rfl
  | cons b bytes ih =>
    rw [hexChars, List.flatMap_cons, List.length_append, ← hexChars, ih, List.length_cons]
    simp only [hexPair, List.length_cons, List.length_nil]
    omega

theorem digitChar_inj {m n : ℕ} (hm : m < 16) (hn : n < 16) (h : m.digitChar = n.digitChar) :
    m = n := by
  have hread := (digitChar_facts hm).1
  rw [h, (digitChar_facts hn).1] at hread
  exact (Option.some.inj hread).symm

theorem hexPair_injective : Function.Injective hexPair := by
  intro b b' h
  obtain ⟨hhigh, hlow⟩ := List.cons.inj h
  have hdiv := digitChar_inj (toNat_div_lt b) (toNat_div_lt b') hhigh
  have hmod := digitChar_inj (Nat.mod_lt _ (by decide)) (Nat.mod_lt _ (by decide))
    (List.singleton_inj.mp hlow)
  apply UInt8.toNat_inj.mp
  rw [← Nat.div_add_mod' b.toNat 16, hdiv, hmod, Nat.div_add_mod']

/-- **Hex text determines the bytes.** -/
theorem hexChars_injective : Function.Injective hexChars := by
  intro bytes
  induction bytes with
  | nil =>
    intro bytes' h
    have hlength := congrArg List.length h
    rw [length_hexChars, length_hexChars, List.length_nil] at hlength
    exact (List.eq_nil_of_length_eq_zero (by omega)).symm
  | cons b bytes ih =>
    intro bytes' h
    cases bytes' with
    | nil => simpa using congrArg List.length h
    | cons b' bytes' =>
      obtain ⟨hpair, hrest⟩ := List.append_inj h rfl
      rw [hexPair_injective hpair, ih hrest]

/-- **A byte reads back from its two digits.** -/
theorem u8FromStrRadix16_hexPair (b : UInt8) :
    u8FromStrRadix16 (String.ofList (hexPair b)) = .ok b := by
  have hdiv := digitChar_facts (toNat_div_lt b)
  have hmod := digitChar_facts (Nat.mod_lt b.toNat (by decide : 16 > 0))
  have hb : b.toNat / 16 * 16 + b.toNat % 16 = b.toNat := Nat.div_add_mod' _ _
  have hlt := b.toNat_lt
  have hsign : u8FromStrRadix16 (String.ofList (hexPair b)) = hexDigitsLoop 0 (hexPair b) := by
    rw [u8FromStrRadix16, String.toList_ofList]
    unfold hexPair
    split <;> simp_all
  rw [hsign, hexPair, hexDigitsLoop, hdiv.1]
  simp only
  rw [if_pos (by omega), hexDigitsLoop, hmod.1]
  simp only [Nat.zero_mul, Nat.zero_add, hb]
  rw [if_pos (by omega), hexDigitsLoop, UInt8.ofNat_toNat]

/-! ## Case

ASCII letters are compared without their case, and all other characters as they are. -/

/-- `s.eq_ignore_ascii_case(t)`. -/
def EqIgnoreAsciiCase (s t : String) : Prop :=
  s.toList.map Char.toLower = t.toList.map Char.toLower

instance (s t : String) : Decidable (EqIgnoreAsciiCase s t) :=
  inferInstanceAs (Decidable (_ = _))

theorem EqIgnoreAsciiCase.symm {s t : String} (h : EqIgnoreAsciiCase s t) :
    EqIgnoreAsciiCase t s := Eq.symm h

theorem EqIgnoreAsciiCase.trans {s t u : String} (h : EqIgnoreAsciiCase s t)
    (h' : EqIgnoreAsciiCase t u) : EqIgnoreAsciiCase s u := Eq.trans h h'

/-- Hexadecimal is in lower case. -/
theorem map_toLower_hexPair (b : UInt8) : (hexPair b).map Char.toLower = hexPair b := by
  refine (List.map_congr_left fun c hc => ?_).trans (List.map_id _)
  obtain ⟨n, hn, rfl⟩ := mem_hexPair hc
  interval_cases n <;> rfl

theorem map_toLower_hexChars (bytes : List UInt8) :
    (hexChars bytes).map Char.toLower = hexChars bytes := by
  rw [hexChars, List.map_flatMap]
  exact List.flatMap_congr fun b _ => map_toLower_hexPair b

/-! ## Visible text

What a header value may consist of. -/

/-- Visible characters of ASCII, with the space. -/
def IsVisible (cs : List Char) : Prop := ∀ c ∈ cs, ' ' ≤ c ∧ c ≤ '~'

instance (cs : List Char) : Decidable (IsVisible cs) :=
  decidable_of_iff (cs.all fun c => ' ' ≤ c ∧ c ≤ '~') (by simp [IsVisible])

theorem IsVisible.append {cs ds : List Char} (hc : IsVisible cs) (hd : IsVisible ds) :
    IsVisible (cs ++ ds) := fun c h => (List.mem_append.mp h).elim (hc c) (hd c)

theorem isVisible_hexChars (bytes : List UInt8) : IsVisible (hexChars bytes) := by
  intro c hc
  obtain ⟨n, hn, rfl⟩ := mem_hexChars hc
  interval_cases n <;> decide

theorem isVisible_toString (n : ℕ) : IsVisible (toString n).toList := by
  intro c hc
  have hdigits : (toString n).toList = Nat.toDigits 10 n := Nat.toList_repr
  have hdigit := Nat.isDigit_of_mem_toDigits (by decide) (by decide) (hdigits ▸ hc)
  simp only [Char.isDigit, ge_iff_le, Bool.and_eq_true, decide_eq_true_eq] at hdigit
  refine ⟨?_, ?_⟩
  · exact UInt32.le_trans (by decide : ' '.val ≤ '0'.val) hdigit.1
  · exact UInt32.le_trans hdigit.2 (by decide : '9'.val ≤ '~'.val)

/-- Visible texts joined by a visible text. -/
theorem isVisible_intercalate {sep : String} (hsep : IsVisible sep.toList) {texts : List String}
    (h : ∀ text ∈ texts, IsVisible text.toList) :
    IsVisible (String.intercalate sep texts).toList := by
  induction texts with
  | nil =>
    intro c hc
    simp at hc
  | cons text texts ih =>
    have htext := h text List.mem_cons_self
    rcases texts with _ | ⟨next, texts⟩
    · rwa [String.intercalate_singleton]
    · rw [String.intercalate_cons_cons, String.toList_append, String.toList_append]
      exact (htext.append hsep).append (ih fun text htext => h text (List.mem_cons_of_mem _ htext))

end Text

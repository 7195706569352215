import PqcGateway.Machinery.Text

/-!
# Machinery/HexPairs — hexadecimal text read two bytes at a time

A loop over the offsets `0, 2, 4, ..` of a text slices off two bytes and reads them as a number, so
it panics where the slice ends beyond the text or inside a character, unless an earlier pair is no
number and ends the loop with an error.

* `readPairs_hexChars` — the hexadecimal of bytes is read as these bytes.
* `readPairs_returns_iff` — which texts are read without a panic.
* `map_toLower_of_readPairs` — what is read without a plus sign is the hexadecimal of the bytes, up
  to case.
-/

namespace Text

/-! ## Two digits

`from_str_radix` admits a sign, so two characters that are read need not both be digits. -/

/-- The two characters are read as a byte: two digits, or a plus sign and a digit. -/
def IsPair (c d : Char) : Prop :=
  (c = '+' ∨ (toHexDigit c).isSome = true) ∧ (toHexDigit d).isSome = true

instance (c d : Char) : Decidable (IsPair c d) := inferInstanceAs (Decidable (_ ∧ _))

/-- A digit takes one byte, and is that of its value, up to case. -/
theorem of_toHexDigit {c : Char} {x : ℕ} (h : toHexDigit c = some x) :
    x < 16 ∧ c.utf8Size = 1 ∧ c.toLower = x.digitChar := by
  have hsmall : ∃ n < 103, c = Char.ofNat n := by
    refine ⟨c.toNat, ?_, (Char.ofNat_toNat c).symm⟩
    by_contra hge
    have hbig : ∀ d : Char, d.toNat < 103 → ¬ c ≤ d := fun d hd hle => by
      have : c.toNat ≤ d.toNat := hle
      omega
    rw [toHexDigit, if_neg (fun hc => hbig '9' (by decide) hc.2),
      if_neg (fun hc => hbig 'f' (by decide) hc.2),
      if_neg (fun hc => hbig 'F' (by decide) hc.2)] at h
    cases h
  obtain ⟨n, hn, rfl⟩ := hsmall
  revert x
  interval_cases n <;> decide

theorem utf8Size_of_isPair {c d : Char} (h : IsPair c d) : c.utf8Size = 1 ∧ d.utf8Size = 1 := by
  obtain ⟨hc, hd⟩ := h
  obtain ⟨y, hy⟩ := Option.isSome_iff_exists.mp hd
  refine ⟨?_, (of_toHexDigit hy).2.1⟩
  obtain rfl | hc := hc
  · rfl
  · obtain ⟨x, hx⟩ := Option.isSome_iff_exists.mp hc
    exact (of_toHexDigit hx).2.1

theorem u8FromStrRadix16_plus (d : Char) :
    u8FromStrRadix16 (String.ofList ['+', d]) = hexDigitsLoop 0 [d] := by
  rw [u8FromStrRadix16, String.toList_ofList]
  simp

theorem u8FromStrRadix16_of_ne {c : Char} (hc : c ≠ '+') (cs : List Char) :
    u8FromStrRadix16 (String.ofList (c :: cs)) = hexDigitsLoop 0 (c :: cs) := by
  rw [u8FromStrRadix16, String.toList_ofList]
  split <;> simp_all

/-- What is no pair is not read. -/
theorem u8FromStrRadix16_of_not_isPair {c d : Char} (h : ¬ IsPair c d) :
    u8FromStrRadix16 (String.ofList [c, d]) = .error .invalidDigit := by
  by_cases hc : c = '+'
  · subst hc
    have hd : toHexDigit d = none := by simpa [IsPair] using h
    rw [u8FromStrRadix16_plus, hexDigitsLoop, hd]
  · rw [u8FromStrRadix16_of_ne hc, hexDigitsLoop]
    cases hx : toHexDigit c with
    | none => rfl
    | some x =>
      have hd : toHexDigit d = none := by simpa [IsPair, hx] using h
      have hlt := (of_toHexDigit hx).1
      simp only
      rw [if_pos (by omega), hexDigitsLoop, hd]

/-- A pair is read as the byte of its digits. -/
theorem u8FromStrRadix16_of_digits {c d : Char} {x y : ℕ} (hc : toHexDigit c = some x)
    (hd : toHexDigit d = some y) :
    u8FromStrRadix16 (String.ofList [c, d]) = .ok (UInt8.ofNat (x * 16 + y)) := by
  have hx := (of_toHexDigit hc).1
  have hy := (of_toHexDigit hd).1
  have hplus : c ≠ '+' := by
    rintro rfl
    cases hc
  rw [u8FromStrRadix16_of_ne hplus, hexDigitsLoop, hc]
  simp only
  rw [if_pos (by omega), hexDigitsLoop, hd]
  simp only [Nat.zero_mul, Nat.zero_add]
  rw [if_pos (by omega), hexDigitsLoop]

theorem exists_of_isPair {c d : Char} (h : IsPair c d) :
    ∃ b, u8FromStrRadix16 (String.ofList [c, d]) = .ok b := by
  obtain ⟨hc, hd⟩ := h
  obtain ⟨y, hy⟩ := Option.isSome_iff_exists.mp hd
  obtain rfl | hc := hc
  · have hlt := (of_toHexDigit hy).1
    rw [u8FromStrRadix16_plus, hexDigitsLoop, hy]
    simp only
    rw [if_pos (by omega)]
    exact ⟨_, rfl⟩
  · obtain ⟨x, hx⟩ := Option.isSome_iff_exists.mp hc
    exact ⟨_, u8FromStrRadix16_of_digits hx hy⟩

/-- The digits of a byte, from their values. -/
theorem hexPair_ofNat {x y : ℕ} (hx : x < 16) (hy : y < 16) :
    hexPair (UInt8.ofNat (x * 16 + y)) = [x.digitChar, y.digitChar] := by
  have hval : (UInt8.ofNat (x * 16 + y)).toNat = x * 16 + y :=
    UInt8.toNat_ofNat_of_lt' (by omega : x * 16 + y < 256)
  have hdiv : (x * 16 + y) / 16 = x := by omega
  have hmod : (x * 16 + y) % 16 = y := by omega
  rw [hexPair, hval, hdiv, hmod]

/-- **Without a plus sign, a pair is the hexadecimal of its byte**, up to case. -/
theorem map_toLower_of_pair {c d : Char} {b : UInt8} (hc : c ≠ '+')
    (h : u8FromStrRadix16 (String.ofList [c, d]) = .ok b) :
    [c, d].map Char.toLower = hexPair b := by
  have hpair : IsPair c d := by
    by_contra hpair
    rw [u8FromStrRadix16_of_not_isPair hpair] at h
    cases h
  obtain ⟨x, hx⟩ := Option.isSome_iff_exists.mp (hpair.1.resolve_left hc)
  obtain ⟨y, hy⟩ := Option.isSome_iff_exists.mp hpair.2
  rw [u8FromStrRadix16_of_digits hx hy] at h
  obtain ⟨hxlt, -, hxlower⟩ := of_toHexDigit hx
  obtain ⟨hylt, -, hylower⟩ := of_toHexDigit hy
  rw [← Except.ok.inj h, hexPair_ofNat hxlt hylt, ← hxlower, ← hylower]
  rfl

/-! ## Slices of two bytes -/

section

variable {c d : Char} {cs : List Char}

theorem dropBytes_add_two (hc : c.utf8Size = 1) (hd : d.utf8Size = 1) (n : ℕ) :
    dropBytes (c :: d :: cs) (n + 2) = dropBytes cs n := by
  simp [dropBytes, hc, hd]

/-- The first two bytes, where they are two characters or one. -/
theorem takeBytes_two_cases {pair : List Char} (h : takeBytes (c :: cs) 2 = some pair) :
    (c.utf8Size = 2 ∧ pair = [c]) ∨
      ∃ d cs', cs = d :: cs' ∧ c.utf8Size = 1 ∧ d.utf8Size = 1 ∧ pair = [c, d] := by
  have hpos := c.utf8Size_pos
  rw [takeBytes, Option.ite_none_right_eq_some] at h
  obtain ⟨hle, h⟩ := h
  obtain hone | htwo : c.utf8Size = 1 ∨ c.utf8Size = 2 := by omega
  · rw [hone] at h
    rcases cs with _ | ⟨d, cs⟩
    · cases h
    · have hdpos := d.utf8Size_pos
      obtain ⟨ds, hds, rfl⟩ := Option.map_eq_some_iff.mp h
      rw [takeBytes, Option.ite_none_right_eq_some] at hds
      obtain ⟨hdle, hds⟩ := hds
      have hd : d.utf8Size = 1 := by omega
      rw [hd] at hds
      obtain rfl : ds = [d] := by simpa [takeBytes] using hds.symm
      exact .inr ⟨d, cs, rfl, hone, hd, rfl⟩
  · rw [htwo] at h
    obtain rfl : pair = [c] := by simpa [takeBytes] using h.symm
    exact .inl ⟨htwo, rfl⟩

end

/-! ## The loop

The pairs are read from the offset on; the rest of the text is what the loop sees of it. -/

section

variable (message : ParseIntError → String)

/-- The byte whose two digits start at `i`. -/
def byteAt (hex : String) (i : ℕ) : Fallible UInt8 := do
  let pair ← slice hex i (i + 2)
  Fallible.mapErr message (u8FromStrRadix16 pair)

/-- The bytes whose digits start at the even offsets. -/
def readPairs (cs : List Char) : Fallible (List UInt8) :=
  (List.range ((byteLen cs + 1) / 2)).mapM fun k => byteAt message (String.ofList cs) (2 * k)

variable {message} {c d : Char} {cs : List Char}

/-- The first turn. -/
theorem readPairs_of_ne_nil (h : cs ≠ []) : readPairs message cs = (do
    let b ← byteAt message (String.ofList cs) 0
    let bs ← (List.range ((byteLen cs + 1) / 2 - 1)).mapM fun k =>
      byteAt message (String.ofList cs) (2 * k + 2)
    pure (b :: bs)) := by
  have hpos := byteLen_pos h
  obtain ⟨n, hn⟩ : ∃ n, (byteLen cs + 1) / 2 = n + 1 := ⟨(byteLen cs + 1) / 2 - 1, by omega⟩
  rw [readPairs, hn, List.range_succ_eq_map, List.mapM_cons, List.mapM_map, Nat.add_sub_cancel]
  rfl

theorem byteAt_zero {pair : List Char} (h : takeBytes cs 2 = some pair) :
    byteAt message (String.ofList cs) 0
      = Fallible.mapErr message (u8FromStrRadix16 (String.ofList pair)) := by
  have hslice : slice (String.ofList cs) 0 2 = .ok (String.ofList pair) := by
    rw [slice, if_pos (Nat.zero_le 2), String.toList_ofList, dropBytes, Option.bind_some,
      Nat.sub_zero, h]
  rw [byteAt, hslice]
  rfl

theorem byteAt_add_two (hc : c.utf8Size = 1) (hd : d.utf8Size = 1) (i : ℕ) :
    byteAt message (String.ofList (c :: d :: cs)) (i + 2)
      = byteAt message (String.ofList cs) i := by
  have hslice : slice (String.ofList (c :: d :: cs)) (i + 2) (i + 2 + 2)
      = slice (String.ofList cs) i (i + 2) := by
    rw [slice, slice, if_pos (Nat.le_add_right _ _), if_pos (Nat.le_add_right _ _),
      String.toList_ofList, String.toList_ofList, dropBytes_add_two hc hd, Nat.add_sub_cancel_left,
      Nat.add_sub_cancel_left]
  rw [byteAt, byteAt, hslice]

/-- **A pair is read, and then the rest.** -/
theorem readPairs_cons_cons (hc : c.utf8Size = 1) (hd : d.utf8Size = 1) :
    readPairs message (c :: d :: cs) = (do
      let b ← Fallible.mapErr message (u8FromStrRadix16 (String.ofList [c, d]))
      let bs ← readPairs message cs
      pure (b :: bs)) := by
  have hpair : takeBytes (c :: d :: cs) 2 = some [c, d] := by simp [takeBytes, hc, hd]
  have hlen : (byteLen (c :: d :: cs) + 1) / 2 - 1 = (byteLen cs + 1) / 2 := by
    rw [byteLen_cons, byteLen_cons]
    omega
  rw [readPairs_of_ne_nil (List.cons_ne_nil c _), byteAt_zero hpair, hlen]
  simp only [byteAt_add_two hc hd]
  rfl

/-- A slice that ends off a character panics. -/
theorem readPairs_panics (h : cs ≠ []) (hnone : takeBytes cs 2 = none) :
    ¬ (readPairs message cs).Returns := by
  have hslice : slice (String.ofList cs) 0 2
      = Checked.panicWith "byte index is out of bounds or not a char boundary" := by
    rw [slice, if_pos (Nat.zero_le 2), String.toList_ofList, dropBytes, Option.bind_some,
      Nat.sub_zero, hnone]
  rw [readPairs_of_ne_nil h, byteAt, hslice]
  rintro ⟨result, ⟨⟩⟩

/-- Two bytes that are no pair end the loop with an error. -/
theorem readPairs_of_not_isPair {pair : List Char} (htake : takeBytes (c :: cs) 2 = some pair)
    (h : ∀ d cs', cs = d :: cs' → ¬ IsPair c d) :
    readPairs message (c :: cs) = throw (message .invalidDigit) := by
  have hread : u8FromStrRadix16 (String.ofList pair) = .error .invalidDigit := by
    obtain ⟨hc, rfl⟩ | ⟨d, cs', hcs, -, -, rfl⟩ := takeBytes_two_cases htake
    · have hplus : c ≠ '+' := by
        rintro rfl
        cases hc
      have hdigit : toHexDigit c = none := by
        by_contra hsome
        obtain ⟨x, hx⟩ := Option.ne_none_iff_exists'.mp hsome
        rw [(of_toHexDigit hx).2.1] at hc
        cases hc
      rw [u8FromStrRadix16_of_ne hplus, hexDigitsLoop, hdigit]
    · exact u8FromStrRadix16_of_not_isPair (h d cs' hcs)
  rw [readPairs_of_ne_nil (List.cons_ne_nil c cs), byteAt_zero htake, hread]
  rfl

/-! ## What is read, and what panics

The loop stops at the first pair that is no number, and panics only if it comes to a bad slice
before that. -/

/-- What stands behind the leading pairs. -/
def behindPairs : List Char → List Char
  | c :: d :: cs => if IsPair c d then behindPairs cs else c :: d :: cs
  | cs => cs

/-- Behind its leading pairs the text ends, or its next two bytes end at a character boundary. -/
def PairsEnd (cs : List Char) : Prop :=
  behindPairs cs = [] ∨ (takeBytes (behindPairs cs) 2).isSome = true

instance (cs : List Char) : Decidable (PairsEnd cs) := inferInstanceAs (Decidable (_ ∨ _))

theorem behindPairs_of_isPair (h : IsPair c d) : behindPairs (c :: d :: cs) = behindPairs cs :=
  if_pos h

theorem behindPairs_of_not_isPair (h : ∀ d cs', cs = d :: cs' → ¬ IsPair c d) :
    behindPairs (c :: cs) = c :: cs := by
  rcases cs with _ | ⟨d, cs⟩
  · rfl
  · exact if_neg (h d cs rfl)

/-- A text starts with a pair or not. -/
theorem isPair_cases (cs : List Char) : cs = [] ∨
    (∃ c d cs', cs = c :: d :: cs' ∧ IsPair c d) ∨
      ∃ c cs', cs = c :: cs' ∧ ∀ d cs'', cs' = d :: cs'' → ¬ IsPair c d := by
  match cs with
  | [] => exact .inl rfl
  | [c] => exact .inr (.inr ⟨c, [], rfl, fun d cs'' h => nomatch h⟩)
  | c :: d :: cs =>
    by_cases h : IsPair c d
    · exact .inr (.inl ⟨c, d, cs, rfl, h⟩)
    · refine .inr (.inr ⟨c, d :: cs, rfl, fun d' cs'' hcs => ?_⟩)
      obtain ⟨rfl, -⟩ := List.cons.inj hcs
      exact h

/-- The loop goes on behind a pair. -/
theorem readPairs_of_isPair (message : ParseIntError → String) (h : IsPair c d) (cs : List Char) :
    ∃ b, u8FromStrRadix16 (String.ofList [c, d]) = .ok b ∧
      readPairs message (c :: d :: cs) = (b :: ·) <$> readPairs message cs := by
  obtain ⟨hc, hd⟩ := utf8Size_of_isPair h
  obtain ⟨b, hb⟩ := exists_of_isPair h
  exact ⟨b, hb, by rw [readPairs_cons_cons hc hd, hb]; rfl⟩

/-- **A text is read without a panic** exactly if its pairs end at a boundary. -/
theorem readPairs_returns_iff (message : ParseIntError → String) (cs : List Char) :
    (readPairs message cs).Returns ↔ PairsEnd cs := by
  obtain rfl | ⟨c, d, cs, rfl, h⟩ | ⟨c, cs, rfl, h⟩ := isPair_cases cs
  · exact iff_of_true (Fallible.returns_pure _) (.inl rfl)
  · obtain ⟨b, -, hread⟩ := readPairs_of_isPair message h cs
    rw [hread, map_eq_pure_bind, Fallible.returns_bind_iff fun _ => Fallible.returns_pure _,
      readPairs_returns_iff message cs, PairsEnd, PairsEnd, behindPairs_of_isPair h]
  · rw [PairsEnd, behindPairs_of_not_isPair h, or_iff_right (List.cons_ne_nil c cs)]
    cases htake : takeBytes (c :: cs) 2 with
    | none => exact iff_of_false (readPairs_panics (List.cons_ne_nil c cs) htake) (by simp)
    | some pair =>
      rw [readPairs_of_not_isPair htake h]
      exact iff_of_true (Fallible.returns_throw _) rfl
termination_by cs.length

/-- **Hexadecimal reads back.** -/
theorem readPairs_hexChars (message : ParseIntError → String) (bytes : List UInt8) :
    readPairs message (hexChars bytes) = pure bytes := by
  induction bytes with
  | nil => rfl
  | cons b bytes ih =>
    have hdiv := (digitChar_facts (toNat_div_lt b)).2.1
    have hmod := (digitChar_facts (Nat.mod_lt b.toNat (by decide : 16 > 0))).2.1
    have hbyte : u8FromStrRadix16 (String.ofList [_, _]) = .ok b := u8FromStrRadix16_hexPair b
    rw [hexChars, List.flatMap_cons, ← hexChars, hexPair, List.cons_append, List.cons_append,
      List.nil_append, readPairs_cons_cons hdiv hmod, hbyte, ih]
    rfl

/-- **Without a plus sign, what is read is the hexadecimal of the bytes**, up to case. -/
theorem map_toLower_of_readPairs {cs : List Char} {bytes : List UInt8} (hplus : '+' ∉ cs)
    (h : readPairs message cs = pure bytes) : cs.map Char.toLower = hexChars bytes := by
  obtain rfl | ⟨c, d, cs, rfl, hpair⟩ | ⟨c, cs, rfl, hpair⟩ := isPair_cases cs
  · obtain rfl := Except.ok.inj (Except.ok.inj h)
    rfl
  · obtain ⟨b, hb, hread⟩ := readPairs_of_isPair message hpair cs
    obtain ⟨bytes, hrest, rfl⟩ := Fallible.map_eq_pure.mp (hread.symm.trans h)
    simp only [List.mem_cons, not_or] at hplus
    have hbyte := map_toLower_of_pair (Ne.symm hplus.1) hb
    rw [hexChars, List.flatMap_cons, ← hbyte, ← hexChars,
      ← map_toLower_of_readPairs hplus.2.2 hrest]
    rfl
  · exfalso
    cases htake : takeBytes (c :: cs) 2 with
    | none => exact readPairs_panics (List.cons_ne_nil c cs) htake ⟨_, congrArg ExceptT.run h⟩
    | some pair =>
      exact Fallible.throw_ne_pure _ _ ((readPairs_of_not_isPair htake hpair).symm.trans h)
termination_by cs.length

end

end Text

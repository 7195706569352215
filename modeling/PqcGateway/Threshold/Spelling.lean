import PqcGateway.Threshold.Codes

/-!
# Threshold/Spelling — the texts a recovery code is read from

`generate_recovery_codes` writes two digits for the index and two for each byte.
`parse_recovery_code` takes any number for the index, and each pair of digits for a number, so it
reads more texts than are written, and slices the digits where they may end.

* `parseRecoveryCode_returns_iff` — which texts are parsed without a panic.
* `spelled_iff` — which texts that parse are the code of their share.
-/

namespace PqcGateway

section

variable {code other : String} {share : Share} {before after : List Char}

/-- The data of a code is read two bytes at a time. -/
theorem parseRecoveryCode_of_dash (h : '-' ∉ before)
    (hcode : code.toList = before ++ '-' :: after) :
    parseRecoveryCode code = (do
      let id ← Fallible.mapErr (fun e => "Invalid share ID in recovery code: " ++ e.message)
        (Text.u8FromStrRadix16 (String.ofList before))
      let data ← Text.readPairs (fun e => "Invalid hex in recovery code: " ++ e.message) after
      pure ⟨id, data⟩) := by
  have hsplit : Text.splitn2 '-' code = [String.ofList before, String.ofList after] := by
    rw [← Text.splitn2_of_notMem h, ← hcode, String.ofList_toList]
  rw [parseRecoveryCode, hsplit]
  simp only [String.toList_ofList, mapM_parseHexPair]

theorem parseRecoveryCode_of_no_dash (h : '-' ∉ code.toList) :
    parseRecoveryCode code = throw "Invalid recovery code format (expected 'id-data')" := by
  rw [parseRecoveryCode, Text.splitn2_of_notMem_text h]

/-! ## Which codes panic

The digits are cut in pairs by byte offsets, and a cut inside a character panics. -/

/-- The digits behind the first dash, if they are read at all, end at a character boundary. -/
def CodeEnds (code : String) : Prop :=
  ∀ before after, '-' ∉ before → code.toList = before ++ '-' :: after →
    (∃ id, Text.u8FromStrRadix16 (String.ofList before) = .ok id) → Text.PairsEnd after

theorem codeEnds_of_dash (h : '-' ∉ before) (hcode : code.toList = before ++ '-' :: after) :
    CodeEnds code ↔ ((∃ id, Text.u8FromStrRadix16 (String.ofList before) = .ok id) →
      Text.PairsEnd after) := by
  refine ⟨fun hends => hends before after h hcode, fun hends before' after' h' hcode' => ?_⟩
  have hbefore := Text.span_ne_of_notMem h after
  rw [← hcode, hcode', Text.span_ne_of_notMem h' after'] at hbefore
  obtain ⟨rfl, hafter⟩ := Prod.mk.inj hbefore
  rwa [(List.cons.inj hafter).2]

/-- **A code is parsed without a panic** — into a share, or with an error — exactly if its digits
end. -/
theorem parseRecoveryCode_returns_iff (code : String) :
    (parseRecoveryCode code).Returns ↔ CodeEnds code := by
  by_cases hdash : '-' ∈ code.toList
  · obtain ⟨before, after, hcode, h⟩ := List.eq_append_cons_of_mem hdash
    rw [parseRecoveryCode_of_dash h hcode, codeEnds_of_dash h hcode]
    cases hid : Text.u8FromStrRadix16 (String.ofList before) with
    | error e => exact iff_of_true (Fallible.returns_throw _) fun ⟨id, h⟩ => nomatch h
    | ok id =>
      rw [Fallible.mapErr_ok, pure_bind,
        Fallible.returns_bind_iff fun _ => Fallible.returns_pure _, Text.readPairs_returns_iff]
      exact ⟨fun hends _ => hends, fun hends => hends ⟨id, rfl⟩⟩
  · rw [parseRecoveryCode_of_no_dash hdash]
    refine iff_of_true (Fallible.returns_throw _) fun before after _ hcode _ => absurd ?_ hdash
    rw [hcode]
    exact List.mem_append_right before List.mem_cons_self

/-! ## Which codes are accepted -/

/-- A text with no plus sign, and the first dash behind two characters. -/
def TwoDigitId (code : String) : Prop :=
  '+' ∉ code.toList ∧ code.toList.idxOf '-' = 2

instance (code : String) : Decidable (TwoDigitId code) := inferInstanceAs (Decidable (_ ∧ _))

/-- What an accepted code consists of. -/
theorem exists_of_parseRecoveryCode (h : parseRecoveryCode code = pure share) :
    ∃ before after, '-' ∉ before ∧ code.toList = before ++ '-' :: after ∧
      Text.u8FromStrRadix16 (String.ofList before) = .ok share.id ∧
      Text.readPairs (fun e => "Invalid hex in recovery code: " ++ e.message) after
        = pure share.data := by
  by_cases hdash : '-' ∈ code.toList
  · obtain ⟨before, after, hcode, hbefore⟩ := List.eq_append_cons_of_mem hdash
    rw [parseRecoveryCode_of_dash hbefore hcode] at h
    obtain ⟨id, hid, h⟩ := Fallible.bind_eq_pure.mp h
    obtain ⟨data, hdata, h⟩ := Fallible.bind_eq_pure.mp h
    obtain rfl := Except.ok.inj (Except.ok.inj h)
    refine ⟨before, after, hbefore, hcode, ?_, hdata⟩
    cases hread : Text.u8FromStrRadix16 (String.ofList before) with
    | error e =>
      rw [hread] at hid
      exact absurd hid (Fallible.throw_ne_pure _ id)
    | ok id' =>
      rw [hread] at hid
      obtain rfl := Except.ok.inj (Except.ok.inj hid)
      rfl
  · rw [parseRecoveryCode_of_no_dash hdash] at h
    exact absurd h (Fallible.throw_ne_pure _ share)

theorem map_toLower_recoveryCode (share : Share) :
    (recoveryCode share).toList.map Char.toLower
      = Text.hexPair share.id ++ '-' :: Text.hexChars share.data := by
  have hdash : Char.toLower '-' = '-' := rfl
  rw [recoveryCode_eq, String.toList_ofList, List.map_append, List.map_cons,
    Text.map_toLower_hexPair, Text.map_toLower_hexChars, hdash]

/-- **A code that parses is the code of its share**, up to case, exactly if it has no plus sign and
two characters for the index. -/
theorem eqIgnoreAsciiCase_recoveryCode (h : parseRecoveryCode code = pure share) :
    Text.EqIgnoreAsciiCase code (recoveryCode share) ↔ TwoDigitId code := by
  obtain ⟨before, after, hbefore, hcode, hid, hdata⟩ := exists_of_parseRecoveryCode h
  have hidx : code.toList.idxOf '-' = before.length := by
    rw [hcode, List.idxOf_append_of_notMem hbefore, List.idxOf_cons_self, Nat.add_zero]
  rw [Text.EqIgnoreAsciiCase, map_toLower_recoveryCode, TwoDigitId, hidx, hcode, List.map_append,
    List.map_cons]
  constructor
  · intro heq
    have hdashId := Text.dash_notMem_hexPair share.id
    have hdashData : '-' ∉ Text.hexChars share.data := fun hmem =>
      (Text.ne_sign_of_mem_hexChars hmem).2 rfl
    refine ⟨fun hplus => ?_, ?_⟩
    · have hlower : '+' ∈ (before ++ '-' :: after).map Char.toLower :=
        List.mem_map.mpr ⟨'+', hplus, rfl⟩
      rw [List.map_append, List.map_cons, heq, List.mem_append, List.mem_cons] at hlower
      rcases hlower with hid | hdash | hdata
      · rw [← List.flatMap_singleton Text.hexPair share.id] at hid
        exact (Text.ne_sign_of_mem_hexChars hid).1 rfl
      · exact absurd hdash (by decide)
      · exact (Text.ne_sign_of_mem_hexChars hdata).1 rfl
    · obtain ⟨hpair, -, -⟩ := (List.append_cons_inj_of_notMem hdashId hdashData).mp heq.symm
      have hlength := congrArg List.length hpair
      rw [List.length_map] at hlength
      exact hlength.symm
  · rintro ⟨hplus, hlen⟩
    rw [List.mem_append, List.mem_cons, not_or, not_or] at hplus
    obtain ⟨c, d, rfl⟩ := List.length_eq_two.mp hlen
    have hc : c ≠ '+' := fun hc => hplus.1 (hc ▸ List.mem_cons_self)
    rw [Text.map_toLower_of_pair hc hid, Text.map_toLower_of_readPairs hplus.2.2 hdata]
    rfl

/-- **Which accepted codes are spelled as generated.**  They are the code of their share up to case,
and so are all alike that have its share, exactly if they have no plus sign and two characters for
the index. -/
theorem spelled_iff (h : parseRecoveryCode code = pure share) :
    (Text.EqIgnoreAsciiCase code (recoveryCode share) ↔ TwoDigitId code) ∧
    ∀ other, parseRecoveryCode other = pure share → TwoDigitId code →
      (Text.EqIgnoreAsciiCase code other ↔ TwoDigitId other) := by
  have hcode := eqIgnoreAsciiCase_recoveryCode h
  refine ⟨hcode, fun other hother htwo => ?_⟩
  rw [← eqIgnoreAsciiCase_recoveryCode hother]
  have hgenerated := hcode.mpr htwo
  exact ⟨fun hsame => hsame.symm.trans hgenerated, fun hsame => hgenerated.trans hsame.symm⟩

end

/-- A code in upper case. -/
theorem spelled_upper_case :
    Text.EqIgnoreAsciiCase "01-2AFF" (recoveryCode ⟨1, [42, 255]⟩) := by
  have hparse : parseRecoveryCode "01-2AFF" = pure ⟨1, [42, 255]⟩ := rfl
  exact (spelled_iff hparse).1.mpr (by decide)

/-- **Other spellings of one share.**  The index in one digit, and a plus sign for a zero. -/
theorem other_spellings :
    recoveryCode ⟨1, [10]⟩ = "01-0a" ∧
    (∀ code ∈ ["1-0a", "+1-0a", "001-0a", "01-+a"],
      parseRecoveryCode code = pure ⟨1, [10]⟩ ∧ ¬ Text.EqIgnoreAsciiCase code "01-0a") := by
  refine ⟨by decide, ?_⟩
  simp only [List.forall_mem_cons]
  exact ⟨⟨rfl, by decide⟩, ⟨rfl, by decide⟩, ⟨rfl, by decide⟩, ⟨rfl, by decide⟩, by simp⟩

end PqcGateway

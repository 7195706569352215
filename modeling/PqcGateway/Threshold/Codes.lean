import PqcGateway.Threshold.Sharing
import PqcGateway.Crypto.Primitives
import PqcGateway.Machinery.HexPairs

/-!
# Threshold/Codes — recovery codes: shares as text

A share is written `id-data` in hexadecimal and read back by `parseRecoveryCode`, so any
`threshold` distinct codes of one split recover its secret (`IsSharing.recoverFromCodes`).

* `parseRecoveryCode_recoveryCode` — a share reads back from its code.
* `recoverFromCodes_generateRecoveryCodes` — recovering from codes is reconstructing from shares.
-/

namespace PqcGateway

/-! ## Writing and reading a code -/

/-- The recovery code of one share. -/
def recoveryCode (share : Share) : String :=
  String.ofList (Text.hexPair share.id) ++ "-" ++ hexEncode share.data

/-- Generate recovery codes from shares. -/
def generateRecoveryCodes (shares : List Share) : List String := shares.map recoveryCode

/-- The byte whose two digits start at `i`.  The slice panics past the end of the text. -/
def parseHexPair (dataHex : String) (i : ℕ) : Fallible UInt8 := do
  let pair ← Text.slice dataHex i (i + 2)
  Fallible.mapErr (fun e => "Invalid hex in recovery code: " ++ e.message)
    (Text.u8FromStrRadix16 pair)

/-- `(0..len).step_by(2)`. -/
def pairOffsets (len : ℕ) : List ℕ := (List.range ((len + 1) / 2)).map (2 * ·)

/-- Parse a recovery code back into a share. -/
def parseRecoveryCode (code : String) : Fallible Share :=
  match Text.splitn2 '-' code with
  | [idHex, dataHex] => do
    let id ← Fallible.mapErr (fun e => "Invalid share ID in recovery code: " ++ e.message)
      (Text.u8FromStrRadix16 idHex)
    let data ← (pairOffsets (Text.byteLen dataHex.toList)).mapM (parseHexPair dataHex)
    pure ⟨id, data⟩
  | _ => throw "Invalid recovery code format (expected 'id-data')"

/-- Recover a secret from recovery codes. -/
def recoverFromCodes (codes : List String) : Fallible (List UInt8) := do
  let shares ← codes.mapM parseRecoveryCode
  reconstructSecret shares

/-! ## Round trip -/

theorem recoveryCode_eq (share : Share) :
    recoveryCode share
      = String.ofList (Text.hexPair share.id ++ '-' :: Text.hexChars share.data) := by
  rw [recoveryCode, hexEncode, ← String.toList_inj]
  simp

/-- The data of a code is read two bytes at a time. -/
theorem mapM_parseHexPair (cs : List Char) :
    (pairOffsets (Text.byteLen cs)).mapM (parseHexPair (String.ofList cs))
      = Text.readPairs (fun e => "Invalid hex in recovery code: " ++ e.message) cs := by
  rw [pairOffsets, List.mapM_map]
  rfl

/-- **A share reads back from its code.** -/
theorem parseRecoveryCode_recoveryCode (share : Share) :
    parseRecoveryCode (recoveryCode share) = pure share := by
  rw [parseRecoveryCode, recoveryCode_eq,
    Text.splitn2_of_notMem (Text.dash_notMem_hexPair share.id)]
  simp only [Text.u8FromStrRadix16_hexPair, Fallible.mapErr_ok, pure_bind, String.toList_ofList,
    mapM_parseHexPair, Text.readPairs_hexChars]

/-- Different shares have different codes. -/
theorem recoveryCode_injective : Function.Injective recoveryCode := fun s t hst => by
  have := parseRecoveryCode_recoveryCode s
  rw [hst, parseRecoveryCode_recoveryCode t] at this
  exact (Except.ok.inj (Except.ok.inj this)).symm

/-- **Recovering from the codes of shares is reconstructing from the shares.** -/
theorem recoverFromCodes_generateRecoveryCodes (shares : List Share) :
    recoverFromCodes (generateRecoveryCodes shares) = liftM (reconstructSecret shares) := by
  have hparse : (generateRecoveryCodes shares).mapM parseRecoveryCode = pure shares := by
    have hback : ∀ s ∈ shares, (parseRecoveryCode ∘ recoveryCode) s = pure (id s) := fun s _ => by
      rw [Function.comp_apply, parseRecoveryCode_recoveryCode, id]
    rw [generateRecoveryCodes, List.mapM_map, List.mapM_eq_pure hback, List.map_id]
  rw [recoverFromCodes, hparse, pure_bind]

/-! ## The shares of one split

Any `threshold` of them give the secret back, and so do any `threshold` of their codes. -/

/-- `out` is a split of the secret, for some random bytes. -/
structure IsSharing (config : SharingConfig) (secret : List UInt8) (out : List Share) : Prop where
  one_le : 1 ≤ config.threshold.toNat
  nonempty : secret ≠ []
  split : ∃ rng, splitSecret rng secret config = .ok out

/-- Every secret splits under a threshold of at least one. -/
theorem exists_isSharing {config : SharingConfig} {secret : List UInt8}
    (ht : 1 ≤ config.threshold.toNat) (hsecret : secret ≠ []) (rng : OsRng) :
    ∃ out, splitSecret rng secret config = .ok out ∧ IsSharing config secret out :=
  have h : splitSecret rng secret config = .ok _ := splitSecret_eq hsecret ht
  ⟨_, h, ht, hsecret, rng, h⟩

/-- A split that returned had something to split, and a threshold. -/
theorem isSharing_of_splitSecret {config : SharingConfig} {secret : List UInt8} {out : List Share}
    {rng : OsRng} (h : splitSecret rng secret config = .ok out) : IsSharing config secret out := by
  obtain ⟨_, hassert, hloop⟩ := Checked.bind_eq_ok.mp h
  have hsecret : secret ≠ [] := Checked.assert_eq_ok.mp hassert
  obtain ⟨b, rest, rfl⟩ := List.exists_cons_of_ne_nil hsecret
  obtain ⟨n, hsub, -⟩ := Checked.bind_eq_ok.mp hloop
  exact ⟨Checked.le_of_checkedSub_eq_ok hsub, hsecret, rng, h⟩

namespace IsSharing

variable {config : SharingConfig} {secret : List UInt8} {out shares : List Share}

theorem exists_shareOf (h : IsSharing config secret out) :
    ∃ rng, out = (shareIds config).map (shareOf rng config secret) := by
  obtain ⟨rng, hout⟩ := h.split
  rw [splitSecret_eq h.nonempty h.one_le] at hout
  exact ⟨rng, (Except.ok.inj hout).symm⟩

/-- The shares carry the indices `1..=total_shares`. -/
theorem map_id (h : IsSharing config secret out) : out.map Share.id = shareIds config := by
  obtain ⟨rng, rfl⟩ := h.exists_shareOf
  simp [shareOf, Function.comp_def]

/-- Every share is as long as the secret. -/
theorem length_data (h : IsSharing config secret out) {share : Share} (hshare : share ∈ out) :
    share.data.length = secret.length := by
  obtain ⟨rng, rfl⟩ := h.exists_shareOf
  obtain ⟨id, -, rfl⟩ := List.mem_map.mp hshare
  exact length_shareOf_data id

/-- All recovery codes are different. -/
theorem nodup_generateRecoveryCodes (h : IsSharing config secret out) :
    (generateRecoveryCodes out).Nodup := by
  have hids : (out.map Share.id).Nodup := h.map_id ▸ nodup_shareIds config
  exact (hids.of_map _).map recoveryCode_injective

/-- There are as many recovery codes as shares. -/
theorem length_generateRecoveryCodes (h : IsSharing config secret out) :
    (generateRecoveryCodes out).length = config.totalShares.toNat := by
  have hlen := congrArg List.length h.map_id
  simpa [generateRecoveryCodes, shareIds] using hlen

/-- Different shares have different indices. -/
theorem nodup_map_id (h : IsSharing config secret out) (hsub : shares ⊆ out)
    (hshares : shares.Nodup) : (shares.map Share.id).Nodup := by
  refine hshares.map_on fun s hs t ht hst => ?_
  have hnodup : (out.map Share.id).Nodup := h.map_id ▸ nodup_shareIds config
  exact List.inj_on_of_nodup_map hnodup (hsub hs) (hsub ht) hst

/-- Any `threshold` different shares reconstruct the secret. -/
theorem reconstructSecret (h : IsSharing config secret out) (hsub : shares ⊆ out)
    (hshares : shares.Nodup) (hlen : config.threshold.toNat ≤ shares.length) :
    reconstructSecret shares = .ok secret := by
  have hids := h.nodup_map_id hsub hshares
  obtain ⟨rng, rfl⟩ := h.exists_shareOf
  have hshares : ∀ s ∈ shares, s = shareOf rng config secret s.id := fun s hs => by
    obtain ⟨id, -, rfl⟩ := List.mem_map.mp (hsub hs)
    rfl
  exact reconstructSecret_of_shareOf h.one_le hshares hids hlen

/-- A list of codes of the shares is the codes of a list of the shares. -/
theorem exists_shares_of_codes {codes : List String} (hsub : codes ⊆ generateRecoveryCodes out) :
    ∃ shares ⊆ out, codes = generateRecoveryCodes shares := by
  induction codes with
  | nil => exact ⟨[], List.nil_subset out, rfl⟩
  | cons code codes ih =>
    obtain ⟨hcode, hcodes⟩ := List.cons_subset.mp hsub
    obtain ⟨shares, hshares, rfl⟩ := ih hcodes
    obtain ⟨share, hshare, rfl⟩ := List.mem_map.mp hcode
    exact ⟨share :: shares, List.cons_subset.mpr ⟨hshare, hshares⟩, rfl⟩

/-- **Any `threshold` different recovery codes recover the secret.** -/
theorem recoverFromCodes (h : IsSharing config secret out) {codes : List String}
    (hsub : codes ⊆ generateRecoveryCodes out) (hcodes : codes.Nodup)
    (hlen : config.threshold.toNat ≤ codes.length) : recoverFromCodes codes = pure secret := by
  obtain ⟨shares, hshares, rfl⟩ := exists_shares_of_codes hsub
  rw [recoverFromCodes_generateRecoveryCodes,
    h.reconstructSecret hshares (hcodes.of_map _) (by simpa [generateRecoveryCodes] using hlen),
    Fallible.liftM_ok]

end IsSharing

end PqcGateway

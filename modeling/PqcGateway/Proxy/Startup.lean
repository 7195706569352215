import PqcGateway.Proxy.ClientChoice
import PqcGateway.Response.SeedHex

/-!
# Proxy/Startup — which validated configurations start

`validate` looks at the routes.  The threshold settings reach the assertions of `SharingConfig::new`
unchecked, and the text of `GATEWAY_SIGNING_KEY` reaches slices that panic: a validated
configuration starts (`ValidatedStarts`) exactly where neither happens (`validatedStarts_iff`).

* `exists_fromEnv_iff` — a signing key is made unless the digits in the environment do not end.
* `overdrawn_panics` — a validated configuration that needs more shares than there are.
-/

namespace PqcGateway

/-- The environment variables that the gateway is started with. -/
structure StartEnv where
  gatewaySigningKey : Option String
  pqcSignatureMode : Option String

/-- What the crates and the system draw for the keys: an ECDSA key beside a seed that is read, a
pair of keys that is generated, and the first versioned key. -/
structure KeyDraws (X : HandlerCrates) where
  besideSeed : X.signing.SigningKey
  ecdsa : X.signing.SigningKey
  mlDsa : X.mlDsa.SigningKey
  start : StartDraw X.mlDsa

section

variable (X : HandlerCrates)

/-- `ProxyState::new` with the key that signs responses. -/
def startGateway (env : StartEnv) (draws : KeyDraws X) (config : GatewayConfig) :
    Checked (SignatureKeyManager X.signatures × ProxyState X.tls) := do
  let signatureKeyManager ← SignatureKeyManager.fromEnv X.signatures draws.besideSeed draws.ecdsa
    draws.mlDsa env.gatewaySigningKey
  let state ← ProxyState.new X.proxy env.pqcSignatureMode draws.start config
  pure (signatureKeyManager, state)

/-- **A validated configuration starts**, without a panic. -/
def ValidatedStarts (env : StartEnv) (draws : KeyDraws X) (config : GatewayConfig) : Prop :=
  config.validate = .ok () → ∃ started, startGateway X env draws config = .ok started

end

/-- The environment names no signing key, or one whose pairs of digits end at character
boundaries. -/
def StartEnv.KeyEnds (env : StartEnv) : Prop :=
  ∀ hex, env.gatewaySigningKey = some hex → Text.PairsEnd hex.toList

section

variable {X : HandlerCrates} {env : StartEnv} {draws : KeyDraws X} {config : GatewayConfig}

/-- **A signing key is made** unless the digits of the one in the environment do not end. -/
theorem exists_fromEnv_iff {C : SigningCrates} {ecdsa ecdsa' : C.signing.SigningKey}
    {sk : C.mlDsa.SigningKey} {gatewaySigningKey : Option String} :
    (∃ skm, SignatureKeyManager.fromEnv C ecdsa ecdsa' sk gatewaySigningKey = .ok skm) ↔
      ∀ hex, gatewaySigningKey = some hex → Text.PairsEnd hex.toList := by
  cases gatewaySigningKey with
  | none => exact iff_of_true ⟨_, rfl⟩ (by simp)
  | some hex =>
    simp only [Option.some.injEq, forall_eq']
    rw [← SignatureKeyManager.fromSeedHex_returns_iff ecdsa, SignatureKeyManager.fromEnv]
    rcases SignatureKeyManager.fromSeedHex C ecdsa hex with p | e | skm
    · refine iff_of_false ?_ (by rintro ⟨_, ⟨⟩⟩)
      rintro ⟨_, ⟨⟩⟩
    · exact iff_of_true ⟨_, rfl⟩ ⟨_, rfl⟩
    · exact iff_of_true ⟨_, rfl⟩ ⟨_, rfl⟩

/-- **The gateway starts** if both kinds of keys are made. -/
theorem exists_startGateway_iff : (∃ started, startGateway X env draws config = .ok started) ↔
    env.KeyEnds ∧ (config.threshold.enabled = true →
      SharingConfig.Valid ⟨config.threshold.threshold, config.threshold.totalShares⟩) := by
  have hkey : (∃ skm, SignatureKeyManager.fromEnv X.signatures draws.besideSeed draws.ecdsa
      draws.mlDsa env.gatewaySigningKey = .ok skm) ↔ env.KeyEnds := exists_fromEnv_iff
  have hstate : (∃ state, ProxyState.new X.proxy env.pqcSignatureMode draws.start config
      = .ok state) ↔ _ := ProxyState.starts_iff
  rw [← hkey, ← hstate]
  simp only [startGateway, Checked.bind_eq_ok]
  constructor
  · rintro ⟨started, skm, hskm, state, hstate, -⟩
    exact ⟨⟨skm, hskm⟩, ⟨state, hstate⟩⟩
  · rintro ⟨⟨skm, hskm⟩, ⟨state, hstate⟩⟩
    exact ⟨(skm, state), skm, hskm, state, hstate, rfl⟩

end

/-- **A validated configuration starts** exactly if the signing key of the environment can be read
and the threshold settings, if they are on, are those of a sharing. -/
theorem validatedStarts_iff (X : HandlerCrates) (env : StartEnv) (draws : KeyDraws X)
    (config : GatewayConfig) :
    ValidatedStarts X env draws config ↔
      (config.validate = .ok () → env.KeyEnds ∧ (config.threshold.enabled = true →
        SharingConfig.Valid ⟨config.threshold.threshold, config.threshold.totalShares⟩)) :=
  imp_congr_right fun _ => exists_startGateway_iff

/-! ## Configurations that do not start -/

/-- A configuration with three shares of which five are needed. -/
def overdrawnConfig : GatewayConfig :=
  { minimalConfig [RouteConfig.plain "all" "/" "http://a"] with
    threshold :=
      { ThresholdConfig.default with enabled := true, threshold := 5, totalShares := 3 } }

/-- Plain draws. -/
def plainDraws : KeyDraws (plainHandler plainTls) where
  besideSeed := ([3] : List UInt8)
  ecdsa := ([4] : List UInt8)
  mlDsa := (Vector.replicate 32 9 : Vector UInt8 32)
  start := plainStart

/-- **A validated configuration that panics**: more shares are needed than there are. -/
theorem overdrawn_panics :
    overdrawnConfig.validate = .ok () ∧
      startGateway (plainHandler plainTls) ⟨none, none⟩ plainDraws overdrawnConfig
        = Checked.panicWith "Total shares must be >= threshold" ∧
      ¬ ValidatedStarts (plainHandler plainTls) ⟨none, none⟩ plainDraws overdrawnConfig := by
  have hvalid : overdrawnConfig.validate = .ok () :=
    GatewayConfig.validate_eq_ok.mpr (by
      simp [overdrawnConfig, minimalConfig, RouteConfig.plain, RouteConfig.Valid])
  have hpanic : startGateway (plainHandler plainTls) ⟨none, none⟩ plainDraws overdrawnConfig
      = Checked.panicWith "Total shares must be >= threshold" := rfl
  refine ⟨hvalid, hpanic, fun h => ?_⟩
  obtain ⟨started, hstarted⟩ := h hvalid
  rw [hpanic] at hstarted
  cases hstarted

end PqcGateway

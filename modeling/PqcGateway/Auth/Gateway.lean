import PqcGateway.Auth.Jwt
import PqcGateway.Keys.Validity
import Mathlib.Logic.Function.Basic

/-!
# Auth/Gateway — tokens, response bodies and rotations over one key manager

Requests run concurrently and each takes the manager's lock for one call at a time.
`gatewayMachine` makes every such call a step, so `create_jwt` is two steps (`beginJwt`,
`finishJwt`) and any other call may fall between them.  What the manager signed, and what for, is
kept beside it (`signed`).

* `gateway_run_keyManager` — the manager's part of a run is a run of the manager.
* `gateway_run_traced` — a draft in flight was begun by a call that is still open.
-/

namespace PqcGateway

open KeyVersion VersionedKeyManager

/-! ## Response bodies -/

/-- What the gateway's authentication takes from crates. -/
structure GatewayCrates where
  mlDsa : MlDsa
  sha256 : Sha256
  base64 : Base64
  jwt : JwtCodec
  isHeaderValue : String → Bool

/-- `hyper::HeaderMap`: each name has its values. -/
abbrev HeaderMap : Type := EntryMap String (List String)

/-- Compute SHA-256 digest of data, returned as hex string. -/
def computeDigest (H : Sha256) (data : List UInt8) : String := hexEncode (H data).toList

/-- `set_header`: what is no header value is left out. -/
def setHeader (isHeaderValue : String → Bool) (name value : String) (headers : HeaderMap) :
    HeaderMap :=
  if isHeaderValue value then headers.insert name [value] else headers

theorem get_setHeader (isHeaderValue : String → Bool) (name value : String) (headers : HeaderMap)
    (name' : String) :
    (setHeader isHeaderValue name value headers).get name'
      = if name' = name ∧ isHeaderValue value = true then some [value] else headers.get name' := by
  unfold setHeader
  by_cases hvalue : isHeaderValue value = true
  · by_cases hname : name' = name
    · simp [hvalue, hname]
    · simp [hvalue, hname, EntryMap.get_insert_of_ne _ hname]
  · simp [hvalue]

/-- Sign a response body with ML-DSA-65 and attach integrity headers. -/
def signResponseBody (C : GatewayCrates) (mgr : VersionedKeyManager) (body : List UInt8)
    (headers : HeaderMap) : HeaderMap :=
  let digest := computeDigest C.sha256 body
  match mgr.signCurrent C.mlDsa body with
  | none => headers
  | some (kid, sig) =>
    let sigB64 := C.base64.encode sig
    let headers := setHeader C.isHeaderValue "x-pqc-signature" sigB64 headers
    let headers := setHeader C.isHeaderValue "x-pqc-signature-algorithm" "ML-DSA-65" headers
    let headers := setHeader C.isHeaderValue "x-pqc-content-digest" digest headers
    setHeader C.isHeaderValue "x-pqc-key-id" kid headers

/-! ## The gateway -/

/-- A message the manager signed: for a token, or as a response body. -/
inductive Signed (J : JwtCodec)
  | token (draft : JwtDraft J) (kid : String) (sig : List UInt8)
  | body (bytes : List UInt8) (kid : String) (sig : List UInt8)

namespace Signed

variable {J : JwtCodec}

/-- The key that signed it. -/
def kid : Signed J → String
  | .token _ kid _ => kid
  | .body _ kid _ => kid

/-- The bytes that were signed. -/
def message : Signed J → List UInt8
  | .token draft _ _ => Text.asBytes draft.signingInput
  | .body bytes _ _ => bytes

/-- The signature returned. -/
def sig : Signed J → List UInt8
  | .token _ _ sig => sig
  | .body _ _ sig => sig

end Signed

/-- The key manager, the tokens begun and not finished, and what was signed so far. -/
structure Gateway (J : JwtCodec) where
  keyManager : VersionedKeyManager
  inFlight : ℕ → Option (JwtDraft J)
  signed : List (Signed J)

/-- Nothing in flight, nothing signed. -/
def Gateway.start {J : JwtCodec} (mgr : VersionedKeyManager) : Gateway J where
  keyManager := mgr
  inFlight _ := none
  signed := []

variable (C : GatewayCrates)

/-- One step of a concurrent request: `id` names the `create_jwt` call it belongs to. -/
inductive GatewayCall
  | beginJwt (id : ℕ) (request : TokenRequest) (now : ℕ) (jti : String)
  | finishJwt (id : ℕ)
  | rotate (draw : RotateDraw C.mlDsa)
  | signBody (body : List UInt8) (headers : HeaderMap)

/-- What it answers. -/
inductive GatewayAnswer
  | begun
  | finished (token : Option String)
  | rotated (kid : String)
  | bodySigned (headers : HeaderMap)

namespace Gateway

/-- `create_jwt` up to the second lock.  A panic or an unserializable claim ends this call alone. -/
def beginJwt (id : ℕ) (request : TokenRequest) (now : ℕ) (jti : String) (g : Gateway C.jwt) :
    Gateway C.jwt :=
  let draft? := (draftJwt C.jwt request now jti g.keyManager.currentKid).toOption.join
  { g with inFlight := Function.update g.inFlight id draft? }

/-- `create_jwt` from the second lock on.  The kid that signed is dropped. -/
def finishJwt (id : ℕ) (g : Gateway C.jwt) : Gateway C.jwt × Option String :=
  match g.inFlight id with
  | none => (g, none)
  | some draft =>
    let g := { g with inFlight := Function.update g.inFlight id none }
    match draft.sign C.mlDsa g.keyManager with
    | none => (g, none)
    | some (kid, sig) =>
      ({ g with signed := g.signed ++ [.token draft kid sig] }, some (draft.token sig))

/-- `sign_response_body`. -/
def signBody (body : List UInt8) (headers : HeaderMap) (g : Gateway C.jwt) :
    Gateway C.jwt × HeaderMap :=
  let headers := signResponseBody C g.keyManager body headers
  match g.keyManager.signCurrent C.mlDsa body with
  | none => (g, headers)
  | some (kid, sig) => ({ g with signed := g.signed ++ [.body body kid sig] }, headers)

end Gateway

/-- **The gateway**, one locked call at a time. -/
def gatewayMachine : Machine (Gateway C.jwt) (GatewayCall C) GatewayAnswer where
  step g
    | .beginJwt id request now jti => pure (g.beginJwt C id request now jti, .begun)
    | .finishJwt id =>
      let (g, token) := g.finishJwt C id
      pure (g, .finished token)
    | .rotate draw => do
      let (keyManager, kid) ← g.keyManager.rotate C.mlDsa C.sha256 draw
      pure ({ g with keyManager }, .rotated kid)
    | .signBody body headers =>
      let (g, headers) := g.signBody C body headers
      pure (g, .bodySigned headers)

variable {C}

namespace GatewayCall

/-- The call is a step of the `create_jwt` call `id`. -/
def IsOf (id : ℕ) : GatewayCall C → Prop
  | .beginJwt id' _ _ _ => id' = id
  | .finishJwt id' => id' = id
  | .rotate _ => False
  | .signBody _ _ => False

/-- The rotation of the manager that the call is, if it is one. -/
def keyCall : GatewayCall C → Option (KeyCall C.mlDsa)
  | .rotate draw => some (.rotate draw)
  | _ => none

/-- The call is a rotation. -/
def IsRotate (call : GatewayCall C) : Prop := call.keyCall ≠ none

end GatewayCall

/-! ## What a step does

Only `rotate` moves the key manager, and only `finishJwt` and `signBody` sign. -/

section Step

variable {g g' : Gateway C.jwt} {call : GatewayCall C} {answer : GatewayAnswer}

theorem gateway_step_finishJwt (id : ℕ) : (gatewayMachine C).step g (.finishJwt id)
    = .ok ((g.finishJwt C id).1, .finished (g.finishJwt C id).2) := rfl

theorem gateway_step_signBody (body : List UInt8) (headers : HeaderMap) :
    (gatewayMachine C).step g (.signBody body headers)
      = .ok ((g.signBody C body headers).1, .bodySigned (g.signBody C body headers).2) := rfl

theorem gateway_step_rotate {draw : RotateDraw C.mlDsa} {keyManager : VersionedKeyManager}
    {kid : String}
    (hrotate : g.keyManager.rotate C.mlDsa C.sha256 draw = .ok (keyManager, kid)) :
    (gatewayMachine C).step g (.rotate draw) = .ok ({ g with keyManager }, .rotated kid) := by
  simp only [gatewayMachine, hrotate, Checked.ok_bind]
  rfl

/-- A step, by the call it answers. -/
theorem gateway_step_cases (h : (gatewayMachine C).step g call = .ok (g', answer)) :
    (∃ id request now jti, call = .beginJwt id request now jti ∧
      g' = g.beginJwt C id request now jti) ∨
    (∃ id, call = .finishJwt id ∧ g' = (g.finishJwt C id).1 ∧
      answer = .finished (g.finishJwt C id).2) ∨
    (∃ draw keyManager kid, call = .rotate draw ∧
      g.keyManager.rotate C.mlDsa C.sha256 draw = .ok (keyManager, kid) ∧
      g' = { g with keyManager }) ∨
    ∃ body headers, call = .signBody body headers ∧ g' = (g.signBody C body headers).1 := by
  cases call with
  | beginJwt id request now jti =>
    obtain ⟨rfl, -⟩ := Prod.mk.inj (Except.ok.inj h)
    exact .inl ⟨id, request, now, jti, rfl, rfl⟩
  | finishJwt id =>
    obtain ⟨rfl, rfl⟩ := Prod.mk.inj (Except.ok.inj h)
    exact .inr (.inl ⟨id, rfl, rfl, rfl⟩)
  | rotate draw =>
    obtain ⟨⟨keyManager, kid⟩, hrotate, h⟩ := Checked.bind_eq_ok.mp h
    obtain ⟨rfl, -⟩ := Prod.mk.inj (Except.ok.inj h)
    exact .inr (.inr (.inl ⟨draw, keyManager, kid, rfl, hrotate, rfl⟩))
  | signBody body headers =>
    obtain ⟨rfl, -⟩ := Prod.mk.inj (Except.ok.inj h)
    exact .inr (.inr (.inr ⟨body, headers, rfl, rfl⟩))

/-- Finishing a token that is in flight, when the manager signs. -/
theorem Gateway.finishJwt_of_sign {id : ℕ} {draft : JwtDraft C.jwt} {kid : String}
    {sig : List UInt8} (hdraft : g.inFlight id = some draft)
    (hsign : draft.sign C.mlDsa g.keyManager = some (kid, sig)) :
    g.finishJwt C id = ({ g with
      inFlight := Function.update g.inFlight id none
      signed := g.signed ++ [.token draft kid sig] }, some (draft.token sig)) := by
  simp only [Gateway.finishJwt, hdraft, hsign]

/-- The token returned, if there is a draft and the manager signs it. -/
theorem Gateway.finishJwt_snd (g : Gateway C.jwt) (id : ℕ) :
    (g.finishJwt C id).2 = (g.inFlight id).bind fun draft =>
      (draft.sign C.mlDsa g.keyManager).map fun signed => draft.token signed.2 := by
  cases hdraft : g.inFlight id with
  | none => simp only [Gateway.finishJwt, hdraft, Option.bind_none]
  | some draft =>
    cases hsign : draft.sign C.mlDsa g.keyManager with
    | none => simp only [Gateway.finishJwt, hdraft, hsign, Option.bind_some, Option.map_none]
    | some signed => simp only [Gateway.finishJwt, hdraft, hsign, Option.bind_some, Option.map_some]

/-- Finishing a token: either that happens, or there is no token and nothing is signed. -/
theorem Gateway.finishJwt_cases (C : GatewayCrates) (g : Gateway C.jwt) (id : ℕ) :
    (g.finishJwt C id = ({ g with inFlight := Function.update g.inFlight id none }, none)) ∨
    ∃ draft kid sig, g.inFlight id = some draft ∧
      draft.sign C.mlDsa g.keyManager = some (kid, sig) ∧
      g.finishJwt C id = ({ g with
        inFlight := Function.update g.inFlight id none
        signed := g.signed ++ [.token draft kid sig] }, some (draft.token sig)) := by
  cases hdraft : g.inFlight id with
  | none =>
    rw [← hdraft, Function.update_eq_self]
    exact .inl (by simp only [Gateway.finishJwt, hdraft])
  | some draft =>
    cases hsign : draft.sign C.mlDsa g.keyManager with
    | none => exact .inl (by simp only [Gateway.finishJwt, hdraft, hsign])
    | some signed =>
      obtain ⟨kid, sig⟩ := signed
      exact .inr ⟨draft, kid, sig, rfl, hsign, Gateway.finishJwt_of_sign hdraft hsign⟩

/-- Whatever comes of it, the call is over and nothing else changes. -/
theorem Gateway.finishJwt_frame (C : GatewayCrates) (g : Gateway C.jwt) (id : ℕ) :
    (g.finishJwt C id).1.keyManager = g.keyManager ∧
      (g.finishJwt C id).1.inFlight = Function.update g.inFlight id none := by
  obtain h | ⟨draft, kid, sig, -, -, h⟩ := g.finishJwt_cases C id <;> rw [h] <;> exact ⟨rfl, rfl⟩

/-- Signing a response body, when the manager signs. -/
theorem Gateway.signBody_of_sign {body : List UInt8} {kid : String} {sig : List UInt8}
    (hsign : g.keyManager.signCurrent C.mlDsa body = some (kid, sig)) (headers : HeaderMap) :
    g.signBody C body headers = ({ g with signed := g.signed ++ [.body body kid sig] },
      signResponseBody C g.keyManager body headers) := by
  simp only [Gateway.signBody, hsign]

/-- Signing a response body: either that happens, or nothing does. -/
theorem Gateway.signBody_cases (C : GatewayCrates) (g : Gateway C.jwt) (body : List UInt8)
    (headers : HeaderMap) : (g.signBody C body headers).1 = g ∨
      ∃ kid sig, g.keyManager.signCurrent C.mlDsa body = some (kid, sig) ∧
        (g.signBody C body headers).1 = { g with signed := g.signed ++ [.body body kid sig] } := by
  cases hsign : g.keyManager.signCurrent C.mlDsa body with
  | none => exact .inl (by simp only [Gateway.signBody, hsign])
  | some signed =>
    obtain ⟨kid, sig⟩ := signed
    exact .inr ⟨kid, sig, rfl, by rw [Gateway.signBody_of_sign hsign]⟩

theorem Gateway.signBody_frame (C : GatewayCrates) (g : Gateway C.jwt) (body : List UInt8)
    (headers : HeaderMap) : (g.signBody C body headers).1.keyManager = g.keyManager ∧
      (g.signBody C body headers).1.inFlight = g.inFlight := by
  obtain h | ⟨kid, sig, -, h⟩ := g.signBody_cases C body headers <;> rw [h] <;> exact ⟨rfl, rfl⟩

/-- **The manager's part of a step** is a rotation or nothing. -/
theorem gateway_step_keyManager (h : (gatewayMachine C).step g call = .ok (g', answer)) :
    ∃ answers, (keyMachine C.mlDsa C.sha256).run g.keyManager call.keyCall.toList
      = .ok (g'.keyManager, answers) := by
  obtain ⟨_, _, _, _, rfl, rfl⟩ | ⟨id, rfl, rfl, -⟩ | ⟨draw, keyManager, kid, rfl, hrotate, rfl⟩ |
    ⟨body, headers, rfl, rfl⟩ := gateway_step_cases h
  · exact ⟨[], rfl⟩
  · exact ⟨[], by rw [(g.finishJwt_frame C id).1]; rfl⟩
  · refine ⟨[.rotated kid], (keyMachine _ _).run_cons_eq_ok.mpr ⟨_, _, _, ?_, rfl, rfl⟩⟩
    simp only [keyMachine, hrotate, Checked.ok_bind]
    rfl
  · exact ⟨[], by rw [(g.signBody_frame C body headers).1]; rfl⟩

/-- A draft in flight has just been begun, or was in flight before. -/
theorem gateway_step_inFlight (h : (gatewayMachine C).step g call = .ok (g', answer)) {id : ℕ}
    {draft : JwtDraft C.jwt} (hdraft : g'.inFlight id = some draft) :
    (∃ request now jti, call = .beginJwt id request now jti ∧
      draftJwt C.jwt request now jti g.keyManager.currentKid = .ok (some draft)) ∨
    (¬ call.IsOf id ∧ g.inFlight id = some draft) := by
  obtain ⟨id', request, now, jti, rfl, rfl⟩ | ⟨id', rfl, rfl, -⟩ | ⟨draw, _, _, rfl, -, rfl⟩ |
    ⟨body, headers, rfl, rfl⟩ := gateway_step_cases h
  · simp only [Gateway.beginJwt] at hdraft
    by_cases hid : id = id'
    · subst hid
      refine .inl ⟨request, now, jti, rfl, ?_⟩
      rw [Function.update_self] at hdraft
      cases hmade : draftJwt C.jwt request now jti g.keyManager.currentKid with
      | error p => simp [hmade, Except.toOption] at hdraft
      | ok draft? => simpa [hmade, Except.toOption] using hdraft
    · rw [Function.update_of_ne hid] at hdraft
      exact .inr ⟨fun h => hid h.symm, hdraft⟩
  · rw [(g.finishJwt_frame C id').2] at hdraft
    by_cases hid : id = id'
    · rw [hid, Function.update_self] at hdraft
      cases hdraft
    · rw [Function.update_of_ne hid] at hdraft
      exact .inr ⟨fun h => hid h.symm, hdraft⟩
  · exact .inr ⟨not_false, hdraft⟩
  · rw [(g.signBody_frame C body headers).2] at hdraft
    exact .inr ⟨not_false, hdraft⟩

/-- What is signed was signed before, or by this step: a token, or a response body. -/
theorem gateway_step_signed (h : (gatewayMachine C).step g call = .ok (g', answer))
    {e : Signed C.jwt} (he : e ∈ g'.signed) : e ∈ g.signed ∨
    (∃ id draft kid sig, g.inFlight id = some draft ∧ e = .token draft kid sig) ∨
    ∃ body headers kid sig, call = .signBody body headers ∧
      g.keyManager.signCurrent C.mlDsa body = some (kid, sig) ∧ e = .body body kid sig := by
  obtain ⟨_, _, _, _, rfl, rfl⟩ | ⟨id, rfl, rfl, -⟩ | ⟨_, _, _, rfl, -, rfl⟩ |
    ⟨body, headers, rfl, rfl⟩ := gateway_step_cases h
  · exact .inl he
  · obtain hfinish | ⟨draft, kid, sig, hdraft, -, hfinish⟩ := g.finishJwt_cases C id <;>
      rw [hfinish] at he
    · exact .inl he
    · rw [List.mem_append, List.mem_singleton] at he
      exact he.imp_right fun he => .inl ⟨id, draft, kid, sig, hdraft, he⟩
  · exact .inl he
  · obtain hbody | ⟨kid, sig, hsign, hbody⟩ := g.signBody_cases C body headers <;>
      rw [hbody] at he
    · exact .inl he
    · rw [List.mem_append, List.mem_singleton] at he
      exact he.imp_right fun he => .inr ⟨body, headers, kid, sig, rfl, hsign, he⟩

end Step

/-! ## What a run does -/

section Run

variable {start g : Gateway C.jwt} {calls : List (GatewayCall C)} {answers : List GatewayAnswer}

/-- The rotations among the calls, as calls of the manager. -/
def keyCalls (calls : List (GatewayCall C)) : List (KeyCall C.mlDsa) :=
  calls.filterMap GatewayCall.keyCall

/-- No rotation among the calls is none among those of the manager. -/
theorem rotations_keyCalls_eq_zero :
    rotations (keyCalls calls) = 0 ↔ ∀ call ∈ calls, ¬ call.IsRotate := by
  simp only [rotations, keyCalls, List.countP_eq_zero, List.mem_filterMap, GatewayCall.IsRotate,
    not_not]
  constructor
  · intro h call hcall
    refine Option.eq_none_iff_forall_ne_some.mpr fun key hkey => ?_
    refine h key ⟨call, hcall, hkey⟩ ?_
    cases call <;> cases hkey
    rfl
  · rintro h key ⟨call, hcall, hkey⟩
    rw [h call hcall] at hkey
    cases hkey

/-- **The manager's part of a run is a run of the manager.** -/
theorem gateway_run_keyManager (hrun : (gatewayMachine C).run start calls = .ok (g, answers)) :
    ∃ keyAnswers, (keyMachine C.mlDsa C.sha256).run start.keyManager (keyCalls calls)
      = .ok (g.keyManager, keyAnswers) := by
  refine (gatewayMachine C).run_history
    (I := fun calls g => ∃ keyAnswers, (keyMachine C.mlDsa C.sha256).run start.keyManager
      (keyCalls calls) = .ok (g.keyManager, keyAnswers)) (h := [])
    (fun done g call g' answer => ?_) ⟨[], rfl⟩ hrun
  rintro ⟨before, hbefore⟩ hstep
  obtain ⟨after, hafter⟩ := gateway_step_keyManager hstep
  have hcalls : keyCalls (done ++ [call]) = keyCalls done ++ call.keyCall.toList := by
    rw [keyCalls, List.filterMap_append]
    cases call <;> rfl
  rw [hcalls]
  exact ⟨before ++ after,
    (keyMachine _ _).run_append_eq_ok.mpr ⟨_, before, after, hbefore, hafter, rfl⟩⟩

/-- **The manager keeps the window** while the gateway runs. -/
theorem gateway_run_tracks {past : List KeyVersion} {cur : KeyVersion}
    (h : Tracks C.mlDsa past cur start.keyManager)
    (hmax : start.keyManager.maxRetainedKeys + 1 < 2 ^ 64)
    (hrun : (gatewayMachine C).run start calls = .ok (g, answers)) :
    ∃ past' cur', TracksFrom C.mlDsa past cur start.keyManager (keyCalls calls) past' cur'
      g.keyManager := by
  obtain ⟨keyAnswers, hkeys⟩ := gateway_run_keyManager hrun
  exact h.run hmax hkeys

/-- Where a draft in flight comes from: a call among `calls` that made it, in the state `g` reached
there, and no later step of `id`. -/
structure BegunBy (start : Gateway C.jwt) (calls : List (GatewayCall C)) (id : ℕ)
    (draft : JwtDraft C.jwt) (pre mid : List (GatewayCall C)) (request : TokenRequest) (now : ℕ)
    (jti : String) (g : Gateway C.jwt) : Prop where
  calls_eq : calls = pre ++ .beginJwt id request now jti :: mid
  open_since : ∀ call ∈ mid, ¬ call.IsOf id
  reached : ∃ answers, (gatewayMachine C).run start pre = .ok (g, answers)
  draft_eq : draftJwt C.jwt request now jti g.keyManager.currentKid = .ok (some draft)

/-- The draft was begun among these calls, and its call is open. -/
def Begun (start : Gateway C.jwt) (calls : List (GatewayCall C)) (id : ℕ)
    (draft : JwtDraft C.jwt) : Prop :=
  ∃ pre mid request now jti g, BegunBy start calls id draft pre mid request now jti g

/-- The draft was made by a `create_jwt` call among these. -/
def MadeAmong (calls : List (GatewayCall C)) (draft : JwtDraft C.jwt) : Prop :=
  ∃ id request now jti kid, .beginJwt id request now jti ∈ calls ∧
    draftJwt C.jwt request now jti kid = .ok (some draft)

theorem Begun.madeAmong {id : ℕ} {draft : JwtDraft C.jwt} (h : Begun start calls id draft) :
    MadeAmong calls draft := by
  obtain ⟨pre, mid, request, now, jti, g, h⟩ := h
  exact ⟨id, request, now, jti, _, by rw [h.calls_eq]; simp, h.draft_eq⟩

/-- Other steps leave the call open. -/
theorem Begun.concat {id : ℕ} {draft : JwtDraft C.jwt} (h : Begun start calls id draft)
    {call : GatewayCall C} (hcall : ¬ call.IsOf id) : Begun start (calls ++ [call]) id draft := by
  obtain ⟨pre, mid, request, now, jti, g, h⟩ := h
  refine ⟨pre, mid ++ [call], request, now, jti, g, ?_, ?_, h.reached, h.draft_eq⟩
  · rw [h.calls_eq, List.append_assoc, List.cons_append]
  · intro other hother
    rw [List.mem_append, List.mem_singleton] at hother
    obtain hother | rfl := hother
    · exact h.open_since other hother
    · exact hcall

/-- **Every draft and every token comes from a call of the run.** -/
structure Traced (start : Gateway C.jwt) (calls : List (GatewayCall C))
    (g : Gateway C.jwt) : Prop where
  reached : ∃ answers, (gatewayMachine C).run start calls = .ok (g, answers)
  in_flight : ∀ id draft, g.inFlight id = some draft → Begun start calls id draft
  made : ∀ draft kid sig, .token draft kid sig ∈ g.signed → MadeAmong calls draft

theorem Traced.step (h : Traced start calls g) {call : GatewayCall C} {g' : Gateway C.jwt}
    {answer : GatewayAnswer} (hstep : (gatewayMachine C).step g call = .ok (g', answer)) :
    Traced start (calls ++ [call]) g' where
  reached := by
    obtain ⟨answers, hrun⟩ := h.reached
    exact ⟨_, (gatewayMachine C).run_concat hrun hstep⟩
  in_flight id draft hdraft := by
    obtain ⟨request, now, jti, rfl, hmade⟩ | ⟨hother, hdraft⟩ := gateway_step_inFlight hstep hdraft
    · exact ⟨calls, [], request, now, jti, g, rfl, by simp, h.reached, hmade⟩
    · exact (h.in_flight id draft hdraft).concat hother
  made draft kid sig hsigned := by
    have hmade : MadeAmong calls draft := by
      obtain hsigned | ⟨id, _, _, _, hdraft, he⟩ | ⟨_, _, _, _, -, -, he⟩ :=
        gateway_step_signed hstep hsigned
      · exact h.made draft kid sig hsigned
      · obtain ⟨rfl, -, -⟩ := Signed.token.inj he
        exact (h.in_flight id draft hdraft).madeAmong
      · cases he
    obtain ⟨id, request, now, jti, kid, hmem, hmade⟩ := hmade
    exact ⟨id, request, now, jti, kid, List.mem_append_left _ hmem, hmade⟩

theorem traced_start (mgr : VersionedKeyManager) :
    Traced (C := C) (.start mgr) [] (.start mgr) where
  reached := ⟨[], rfl⟩
  in_flight _ _ h := nomatch h
  made _ _ _ h := nomatch h

theorem gateway_run_traced {mgr : VersionedKeyManager}
    (hrun : (gatewayMachine C).run (.start mgr) calls = .ok (g, answers)) :
    Traced (.start mgr) calls g :=
  (gatewayMachine C).run_history (I := Traced (.start mgr)) (h := [])
    (fun _ _ _ _ _ h hstep => h.step hstep) (traced_start mgr) hrun

end Run

/-! ## A gateway to compute with -/

/-- Crates whose ML-DSA verifies the accepted messages. -/
abbrev GatewayCrates.plain (accepts : List UInt8 → Bool) : GatewayCrates where
  mlDsa := .plain accepts
  sha256 := headDigest
  base64 := wideBase64
  jwt := plainCodec
  isHeaderValue _ := true

section

variable {accepts : List UInt8 → Bool} {key : KeyVersion}

theorem sign_plain (hpair : IsPair (.plain accepts) key) (message : List UInt8) :
    key.sign (.plain accepts) message = some (key.seed ++ message) := by
  obtain ⟨sk, hseed, -⟩ := hpair
  rw [sign_eq_some, hseed, mlDsaSign, generateMlDsaKeypair, bytes32TryFrom_toList]
  rfl

/-- What a manager of plain keys signs. -/
theorem signCurrent_plain {past : List KeyVersion} {cur : KeyVersion} {mgr : VersionedKeyManager}
    (h : Tracks (.plain accepts) past cur mgr) (message : List UInt8) :
    mgr.signCurrent (.plain accepts) message = some (cur.kid, cur.seed ++ message) :=
  h.signCurrent_eq_some.mpr ⟨rfl, sign_plain h.made_current.pair message⟩

/-- The accepted messages verify, and nothing else. -/
theorem verify_plain_iff (hpair : IsPair (.plain accepts) key) {message sig : List UInt8} :
    key.verify (.plain accepts) message sig = true ↔
      accepts message = true ∧ key.sign (.plain accepts) message = some sig := by
  obtain ⟨sk, hseed, hpublic⟩ := hpair
  rw [sign_eq_some, KeyVersion.verify, mlDsaVerifies, mlDsaVerify, hpublic, mlDsaSign, hseed]
  simp only [generateMlDsaKeypair, bytes32TryFrom_toList]
  simp only [Except.toOption, Option.getD_some, Bool.and_eq_true, beq_iff_eq, Except.ok.injEq]
  exact and_congr_right fun _ => eq_comm

/-- A signature made with another seed does not verify. -/
theorem verify_plain_of_ne (hpair : IsPair (.plain accepts) key) {seed : List UInt8}
    (hne : key.seed ≠ seed) (message : List UInt8) :
    key.verify (.plain accepts) message (seed ++ message) = false := by
  rw [← Bool.not_eq_true, verify_plain_iff hpair, sign_plain hpair, Option.some.injEq]
  exact fun h => hne (List.append_cancel_right h.2)

/-- The draw of the manager's first key. -/
def firstDraw (accepts : List UInt8 → Bool) : KeyDraw (.plain accepts) where
  signingKey := (Vector.replicate 32 7 : Vector UInt8 32)
  now := 0

/-- The kid of that key. -/
abbrev firstKid : String := "mldsa-v1-07070707"

/-- A manager to run: its first key is known. -/
theorem new_firstDraw (accepts : List UInt8 → Bool) :
    ∃ mgr cur, VersionedKeyManager.new (.plain accepts) headDigest 5 (firstDraw accepts) = .ok mgr ∧
      Tracks (.plain accepts) [] cur mgr ∧ mgr.currentKid = firstKid ∧
      mgr.maxRetainedKeys = 5 ∧ cur.seed = (Vector.replicate 32 7).toList := by
  obtain ⟨mgr, cur, hnew, h, hmax, hseed⟩ :=
    new_tracks (.plain accepts) headDigest 5 (firstDraw accepts)
  refine ⟨mgr, cur, hnew, h, ?_, hmax, hseed⟩
  have hslice : Text.slice (keyFingerprint headDigest (Vector.replicate 32 (7 : UInt8)).toList) 0 8
      = .ok "07070707" := by decide
  have hkid : "mldsa-v" ++ toString 1 ++ "-" ++ "07070707" = firstKid := by decide
  have hmap : (VersionedKeyManager.new (.plain accepts) headDigest 5 (firstDraw accepts)).map
      currentKid = .ok firstKid := by
    rw [VersionedKeyManager.new, KeyVersion.new]
    simp only [generateMlDsaKeypair, firstDraw, id, hslice, Checked.ok_bind]
    exact congrArg Except.ok hkid
  rw [hnew] at hmap
  exact Except.ok.inj hmap

end

/-- What an honest caller asks for. -/
def plainRequest : TokenRequest where
  sub := "alice"
  roles := ["reader"]
  issuer := "gateway"
  audience := "clients"
  ttlSeconds := 900

/-- The draft of these claims, in the codec to compute with. -/
def draftOf (claims : JwtClaims) : JwtDraft plainCodec where
  header := ⟨"ML-DSA-65", "JWT", claims.kid⟩
  claims
  headerBytes := _
  claimsBytes := _
  alg_eq := rfl
  headerToVec_eq := rfl
  claimsToVec_eq := rfl

/-- The draft made for the request at time 100. -/
def plainDraft : JwtDraft plainCodec :=
  draftOf
    { sub := "alice"
      iss := "gateway"
      aud := "clients"
      exp := 1000
      iat := 100
      jti := "id-1"
      roles := ["reader"]
      kid := firstKid
      alg := "ML-DSA-65" }

theorem inFlight_plainDraft {accepts : List UInt8 → Bool} {mgr : VersionedKeyManager}
    (hkid : mgr.currentKid = firstKid) :
    ((Gateway.start mgr).beginJwt (.plain accepts) 0 plainRequest 100 "id-1").inFlight 0
      = some plainDraft := by
  simp only [Gateway.beginJwt, Gateway.start, hkid, Function.update_self]
  rfl

end PqcGateway

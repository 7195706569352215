import PqcGateway.Auth.Middleware
import PqcGateway.Keys.Invariant

/-!
# Auth/BodyIntegrity — a request body and the headers that vouch for it

`bodyIntegrityMiddleware` reads the body of a request with an integrity header and compares it with
the first value of each header, as far as that is text.  A body that cannot be read is replaced by
an empty one, and a value that is not looked at is not compared: the middleware fails closed
(`FailsClosed`) exactly where the body is read and the values that it ignores are right, or one that
it looks at is wrong (`failsClosed_iff`).

* `digest_failsClosed` — with the right digest, a body that is read keeps it closed.
* `unread_body_passed_on` — a body that cannot be read is passed on as an empty one, and a second
  digest is not compared.
-/

namespace PqcGateway

open VersionedKeyManager

/-! ## Headers -/

/-- The values of the name, in order. -/
def HeaderMap.values (headers : HeaderMap) (name : String) : List String :=
  (headers.get name).getD []

/-- `HeaderMap::contains_key`. -/
def HeaderMap.containsKey (headers : HeaderMap) (name : String) : Bool :=
  !(headers.values name).isEmpty

/-- `get_header`: the first value of the name, if it is text. -/
def getHeader (headers : HeaderMap) (name : String) : Option String :=
  (headers.first name).bind headerToStr

/-- The values that `getHeader` does not give. -/
def ignoredValues (headers : HeaderMap) (name : String) : List String :=
  if (getHeader headers name).isSome then (headers.values name).tail else headers.values name

/-- **A value is looked at or ignored.** -/
theorem forall_mem_values_iff {headers : HeaderMap} {name : String} {right : String → Prop} :
    (∀ value ∈ headers.values name, right value) ↔
      (∀ value, getHeader headers name = some value → right value) ∧
        ∀ value ∈ ignoredValues headers name, right value := by
  have hfirst : headers.first name = (headers.values name).head? := by
    rw [HeaderMap.first, HeaderMap.values]
    cases headers.get name <;> rfl
  rw [ignoredValues]
  cases hget : getHeader headers name with
  | none => simp
  | some text =>
    obtain ⟨value, hvalue, htext⟩ := Option.bind_eq_some_iff.mp hget
    obtain rfl := headerToStr_eq_some htext
    rw [hfirst] at hvalue
    obtain ⟨rest, hrest⟩ := List.head?_eq_some_iff.mp hvalue
    simp [hrest]

/-! ## The middleware -/

/-- Result of integrity verification. -/
inductive IntegrityResult
  | valid
  | digestMismatch (expected computed : String)
  | invalidSignature (message : String)
deriving DecidableEq, Repr

/-- A request: its headers, and what reading its body comes to. -/
structure BodyRequest where
  headers : HeaderMap
  body : Except String (List UInt8)

/-- What becomes of the request: it is passed on, or answered with a status and an error. -/
inductive IntegrityOutcome
  | next (req : BodyRequest)
  | rejected (status : ℕ) (error : String)

section

variable (C : GatewayCrates)

/-- Check the signature if provided. -/
def verifyRequestSignature (mgr : VersionedKeyManager) (body : List UInt8) (headers : HeaderMap) :
    IntegrityResult :=
  match getHeader headers "x-pqc-request-signature" with
  | some sigB64 =>
    let kid := (getHeader headers "x-pqc-key-id").getD ""
    match C.base64.decode sigB64 with
    | none => .invalidSignature "bad base64"
    | some sigBytes =>
      if mgr.verifyByKid C.mlDsa kid body sigBytes then .valid
      else .invalidSignature "signature verification failed"
  | none => .valid

/-- Verify request body integrity headers: the digest first, then the signature. -/
def verifyRequestIntegrity (mgr : VersionedKeyManager) (body : List UInt8) (headers : HeaderMap) :
    IntegrityResult :=
  match getHeader headers "x-pqc-content-digest" with
  | some digestVal =>
    let computed := computeDigest C.sha256 body
    if computed ≠ digestVal then .digestMismatch digestVal computed
    else verifyRequestSignature C mgr body headers
  | none => verifyRequestSignature C mgr body headers

/-- One of the two integrity headers is present. -/
def hasIntegrityHeaders (headers : HeaderMap) : Bool :=
  headers.containsKey "x-pqc-content-digest" || headers.containsKey "x-pqc-request-signature"

/-- Verify request body integrity when integrity headers are present. -/
def bodyIntegrityMiddleware (mgr : VersionedKeyManager) (req : BodyRequest) : IntegrityOutcome :=
  if hasIntegrityHeaders req.headers then
    match req.body with
    | .error _ => .next { req with body := .ok [] }
    | .ok bodyBytes =>
      match verifyRequestIntegrity C mgr bodyBytes req.headers with
      | .valid => .next { req with body := .ok bodyBytes }
      | .digestMismatch _ _ =>
        .rejected 400 "request body integrity check failed: digest mismatch"
      | .invalidSignature message =>
        .rejected 400 ("request body integrity check failed: " ++ message)
  else .next req

/-! ## What the headers vouch for

`Intact` is said of all values of a header; the middleware looks at the first. -/

/-- The value is a signature of the body under the key that the headers name. -/
def SignatureRight (mgr : VersionedKeyManager) (headers : HeaderMap) (body : List UInt8)
    (value : String) : Prop :=
  ∃ sig kid, C.base64.decode value = some sig ∧ getHeader headers "x-pqc-key-id" = some kid ∧
    mgr.verifyByKid C.mlDsa kid body sig = true

/-- Every digest and every signature presented is the body's. -/
structure Intact (mgr : VersionedKeyManager) (headers : HeaderMap) (body : List UInt8) : Prop where
  digests : ∀ value ∈ headers.values "x-pqc-content-digest", value = computeDigest C.sha256 body
  signatures : ∀ value ∈ headers.values "x-pqc-request-signature",
    SignatureRight C mgr headers body value

/-- **The middleware fails closed**: the request is passed on only with its body, read to its end
and intact. -/
def FailsClosed (mgr : VersionedKeyManager) (req : BodyRequest) : Prop :=
  ∀ req', bodyIntegrityMiddleware C mgr req = .next req' →
    ∃ body, req.body = .ok body ∧ req'.body = .ok body ∧ Intact C mgr req.headers body

/-- A value that is looked at is not the body's. -/
def ReadWrong (mgr : VersionedKeyManager) (headers : HeaderMap) (body : List UInt8) : Prop :=
  (∃ value, getHeader headers "x-pqc-content-digest" = some value ∧
    value ≠ computeDigest C.sha256 body) ∨
  ∃ value, getHeader headers "x-pqc-request-signature" = some value ∧
    ¬ SignatureRight C mgr headers body value

/-- The values that are not looked at are the body's. -/
structure IgnoredRight (mgr : VersionedKeyManager) (headers : HeaderMap) (body : List UInt8) :
    Prop where
  digests : ∀ value ∈ ignoredValues headers "x-pqc-content-digest",
    value = computeDigest C.sha256 body
  signatures : ∀ value ∈ ignoredValues headers "x-pqc-request-signature",
    SignatureRight C mgr headers body value

end

section

variable {C : GatewayCrates} {mgr : VersionedKeyManager} {headers : HeaderMap} {body : List UInt8}
  {req : BodyRequest} {value : String}

/-- **No key is held under the empty name**, after any run. -/
theorem get_empty_kid {m : ℕ} {mgr₀ : VersionedKeyManager} {calls : List (KeyCall C.mlDsa)}
    {answers : List KeyAnswer} (hstart : Started C.mlDsa C.sha256 m mgr₀)
    (hrun : (keyMachine C.mlDsa C.sha256).run mgr₀ calls = .ok (mgr, answers)) :
    mgr.keys.get "" = none := by
  obtain ⟨cur₀, h₀, -⟩ := started_tracks hstart
  obtain ⟨past, cur, h⟩ := h₀.run_of_ok hrun
  by_contra hsome
  obtain ⟨key, hget⟩ := Option.ne_none_iff_exists'.mp hsome
  obtain ⟨hheld, hempty⟩ := h.toTracks.get_eq_some.mp hget
  obtain ⟨made, hmade, hkid⟩ := exists_made_of_mem_heldKeys hheld
  obtain ⟨i, hi⟩ := List.getElem?_of_mem hmade
  obtain ⟨tail, htail⟩ := (h.toTracks.made i made hi).kid_eq
  rw [← hkid, ← hempty] at htail
  cases htail

/-- Verification under the name that is given, or else under the empty one. -/
theorem signatureRight_iff (hkid : mgr.keys.get "" = none) :
    SignatureRight C mgr headers body value ↔ ∃ sig, C.base64.decode value = some sig ∧
      mgr.verifyByKid C.mlDsa ((getHeader headers "x-pqc-key-id").getD "") body sig = true := by
  rw [SignatureRight]
  cases getHeader headers "x-pqc-key-id" with
  | some kid => simp
  | none => simp [verifyByKid, hkid]

theorem verifyRequestSignature_eq_valid (hkid : mgr.keys.get "" = none) :
    verifyRequestSignature C mgr body headers = .valid ↔
      ∀ value, getHeader headers "x-pqc-request-signature" = some value →
        SignatureRight C mgr headers body value := by
  rw [verifyRequestSignature]
  cases getHeader headers "x-pqc-request-signature" with
  | none => simp
  | some sigB64 =>
    simp only [Option.some.injEq, forall_eq', signatureRight_iff hkid]
    cases C.base64.decode sigB64 <;> simp

/-- **The check passes** exactly if every value that is looked at is the body's. -/
theorem verifyRequestIntegrity_eq_valid (hkid : mgr.keys.get "" = none) :
    verifyRequestIntegrity C mgr body headers = .valid ↔ ¬ ReadWrong C mgr headers body := by
  rw [ReadWrong, not_or, not_exists, not_exists, verifyRequestIntegrity]
  simp only [not_and, not_not]
  rw [← verifyRequestSignature_eq_valid hkid]
  cases getHeader headers "x-pqc-content-digest" with
  | none => simp
  | some digestVal =>
    simp only [Option.some.injEq, forall_eq']
    by_cases hdigest : computeDigest C.sha256 body = digestVal
    · rw [if_neg (not_not.mpr hdigest)]
      exact (and_iff_right hdigest.symm).symm
    · rw [if_pos hdigest]
      exact iff_of_false (by simp) fun h => hdigest h.1.symm

/-- The body is intact if the values that are looked at are right and those that are not. -/
theorem intact_iff : Intact C mgr headers body ↔
    ¬ ReadWrong C mgr headers body ∧ IgnoredRight C mgr headers body := by
  rw [ReadWrong, not_or, not_exists, not_exists]
  simp only [not_and, not_not]
  constructor
  · rintro ⟨hdigests, hsignatures⟩
    obtain ⟨hdigest, hignored⟩ := forall_mem_values_iff.mp hdigests
    obtain ⟨hsignature, hignored'⟩ := forall_mem_values_iff.mp hsignatures
    exact ⟨⟨hdigest, hsignature⟩, hignored, hignored'⟩
  · rintro ⟨⟨hdigest, hsignature⟩, hignored, hignored'⟩
    exact ⟨forall_mem_values_iff.mpr ⟨hdigest, hignored⟩,
      forall_mem_values_iff.mpr ⟨hsignature, hignored'⟩⟩

/-- **A body that is read is passed on** exactly if the check passes. -/
theorem middleware_of_body (hpresent : hasIntegrityHeaders req.headers = true)
    (hbody : req.body = .ok body) {req' : BodyRequest} :
    bodyIntegrityMiddleware C mgr req = .next req' ↔
      verifyRequestIntegrity C mgr body req.headers = .valid ∧ req' = req := by
  have hsame : ({ req with body := .ok body } : BodyRequest) = req := by rw [← hbody]
  simp only [bodyIntegrityMiddleware, if_pos hpresent, hbody]
  cases verifyRequestIntegrity C mgr body req.headers <;> simp [hsame, eq_comm]

/-- **The middleware fails closed** exactly if the body is read, and what the middleware ignores is
right or something that it looks at is wrong. -/
theorem failsClosed_iff {m : ℕ} {mgr₀ : VersionedKeyManager} {calls : List (KeyCall C.mlDsa)}
    {answers : List KeyAnswer} (hstart : Started C.mlDsa C.sha256 m mgr₀)
    (hrun : (keyMachine C.mlDsa C.sha256).run mgr₀ calls = .ok (mgr, answers))
    (hpresent : hasIntegrityHeaders req.headers = true) :
    FailsClosed C mgr req ↔ ∃ body, req.body = .ok body ∧
      (IgnoredRight C mgr req.headers body ∨ ReadWrong C mgr req.headers body) := by
  have hkid := get_empty_kid hstart hrun
  cases hbody : req.body with
  | error e =>
    have hopen : bodyIntegrityMiddleware C mgr req = .next { req with body := .ok [] } := by
      rw [bodyIntegrityMiddleware, if_pos hpresent, hbody]
    refine iff_of_false (fun h => ?_) (by simp)
    obtain ⟨body, hread, -⟩ := h _ hopen
    rw [hbody] at hread
    cases hread
  | ok body =>
    have hpassed : FailsClosed C mgr req ↔
        (¬ ReadWrong C mgr req.headers body → Intact C mgr req.headers body) := by
      rw [← verifyRequestIntegrity_eq_valid hkid]
      constructor
      · intro h hvalid
        obtain ⟨body', hread, -, hintact⟩ := h req ((middleware_of_body hpresent hbody).mpr
          ⟨hvalid, rfl⟩)
        obtain rfl := Except.ok.inj (hbody.symm.trans hread)
        exact hintact
      · intro h req' hnext
        obtain ⟨hvalid, rfl⟩ := (middleware_of_body hpresent hbody).mp hnext
        exact ⟨body, hbody, hbody, h hvalid⟩
    rw [hpassed, intact_iff]
    simp only [Except.ok.injEq, exists_eq_left']
    rw [or_comm, or_iff_not_imp_left]
    exact forall_congr' fun hright => and_iff_right hright

end

/-! ## Requests that get through

A digest header with a body that arrives, and one with a body that does not. -/

/-- A manager with one key. -/
theorem exists_plain_started (accepts : List UInt8 → Bool) :
    ∃ mgr, Started (.plain accepts) headDigest 5 mgr := by
  obtain ⟨mgr, -, hnew, -⟩ := new_firstDraw accepts
  exact ⟨mgr, .inl ⟨_, hnew⟩⟩

/-- A request whose digest header has these values. -/
def digestRequest (values : List String) (body : Except String (List UInt8)) : BodyRequest where
  headers := EntryMap.new.insert "x-pqc-content-digest" values
  body := body

/-- A request with the right digest. -/
theorem digest_failsClosed :
    ∃ mgr, Started plainDsa headDigest 5 mgr ∧
      FailsClosed (.plain fun _ => true) mgr
        (digestRequest [computeDigest headDigest [1]] (.ok [1])) := by
  obtain ⟨mgr, hstart⟩ := exists_plain_started fun _ => true
  have hrun : (keyMachine plainDsa headDigest).run mgr [] = .ok (mgr, []) := rfl
  have hunsigned : ignoredValues
      (digestRequest [computeDigest headDigest [1]] (.ok [1])).headers "x-pqc-request-signature"
        = [] := by decide
  refine ⟨mgr, hstart, (failsClosed_iff (C := .plain fun _ => true) hstart hrun (by decide)).mpr
    ⟨[1], rfl, .inl ⟨by decide, fun value hvalue => ?_⟩⟩⟩
  rw [hunsigned] at hvalue
  cases hvalue

/-- **A body that cannot be read is passed on as an empty one**, and a second digest is not
compared. -/
theorem unread_body_passed_on :
    ∃ mgr, Started plainDsa headDigest 5 mgr ∧
      let C : GatewayCrates := .plain fun _ => true
      let unread := digestRequest [computeDigest headDigest [1]] (.error "connection reset")
      let twice := digestRequest [computeDigest headDigest [1], "00"] (.ok [1])
      bodyIntegrityMiddleware C mgr unread = .next { unread with body := .ok [] } ∧
        ¬ FailsClosed C mgr unread ∧
        bodyIntegrityMiddleware C mgr twice = .next twice ∧ ¬ FailsClosed C mgr twice := by
  obtain ⟨mgr, hstart⟩ := exists_plain_started fun _ => true
  refine ⟨mgr, hstart, rfl, fun h => ?_, rfl, fun h => ?_⟩
  · obtain ⟨body, hread, -⟩ := h _ rfl
    cases hread
  · obtain ⟨body, hread, -, hintact⟩ := h _ rfl
    obtain rfl := Except.ok.inj hread
    exact absurd (hintact.digests "00" (by decide)) (by decide)

end PqcGateway

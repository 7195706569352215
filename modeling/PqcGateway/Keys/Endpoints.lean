import PqcGateway.Auth.Issuance
import PqcGateway.Machinery.Jobs

/-!
# Keys/Endpoints — the admin endpoints of the key manager

`/auth/token`, `/auth/rotate-keys` and `/admin/keys` ask the key manager several questions, and each
takes the lock for itself.  Requests to them run at the same time (`keyServer`), so a rotation may
come between any two questions of another request.

* `token_endpoint` — whose key a token response names, and how long its token is accepted.
* `rotate_endpoint` — no two rotations answer the same key.
* `keys_endpoint` — what a listing of the keys shows.
-/

namespace PqcGateway

open KeyVersion VersionedKeyManager

/-! ## The handlers -/

/-- `serde_json::Value`, as far as the handlers tell values apart. -/
inductive JsonValue
  | string (s : String)
  | array (items : List JsonValue)
  | object (fields : List (String × JsonValue))
  | other

namespace JsonValue

def get (key : String) : JsonValue → Option JsonValue
  | object fields => fields.lookup key
  | _ => none

def asStr : JsonValue → Option String
  | string s => some s
  | _ => none

def asArray : JsonValue → Option (List JsonValue)
  | array items => some items
  | _ => none

end JsonValue

/-- A question to the key manager, under one lock. -/
inductive KeyQuery
  | currentKid
  | signCurrent (data : List UInt8)
  | rotate
  | keyCount
  | keyInfo
deriving DecidableEq

/-- The answer. -/
abbrev KeyQuery.Answer : KeyQuery → Type
  | .currentKid => String
  | .signCurrent _ => Option (String × List UInt8)
  | .rotate => String
  | .keyCount => ℕ
  | .keyInfo => List (String × ℕ × Bool)

/-- A request to one of the endpoints.  A token request comes with what `create_jwt` reads off the
clock and draws. -/
inductive KeyRequest
  | token (body : JsonValue) (now : ℕ) (jti : String)
  | rotateKeys
  | keys

/-- The response. -/
inductive KeyResponse
  | token (token : String) (kid : String)
  | failed
  | rotated (newKid : String) (totalKeys : ℕ)
  | keys (currentKid : String) (totalKeys : ℕ) (keys : List (String × ℕ × Bool))

/-- What a token request asks for. -/
def tokenRequest (issuer audience : String) (body : JsonValue) : TokenRequest where
  sub := ((body.get "sub").bind JsonValue.asStr).getD "anonymous"
  roles := (((body.get "roles").bind JsonValue.asArray).map fun items =>
    items.filterMap JsonValue.asStr).getD []
  issuer
  audience
  ttlSeconds := 3600

section

variable (J : JwtCodec) (issuer audience : String)

/-- `/auth/token`: `create_jwt`, and then the current kid for the response. -/
def authToken (body : JsonValue) (now : ℕ) (jti : String) :
    Program KeyQuery.Answer (Checked KeyResponse) := do
  let kid ← Program.call .currentKid
  match draftJwt J (tokenRequest issuer audience body) now jti kid with
  | .error panicked => pure (.error panicked)
  | .ok none => pure (.ok .failed)
  | .ok (some draft) =>
    let signed : Option (String × List UInt8) ←
      Program.call (KeyQuery.signCurrent (Text.asBytes draft.signingInput))
    match signed with
    | none => pure (.ok .failed)
    | some (_, sig) =>
      let kid ← Program.call .currentKid
      pure (.ok (.token (draft.token sig) kid))

/-- `/auth/rotate-keys`. -/
def authRotateKeys : Program KeyQuery.Answer (Checked KeyResponse) := do
  let newKid ← Program.call .rotate
  let totalKeys ← Program.call .keyCount
  pure (.ok (.rotated newKid totalKeys))

/-- `/admin/keys`. -/
def adminKeys : Program KeyQuery.Answer (Checked KeyResponse) := do
  let info ← Program.call .keyInfo
  let currentKid ← Program.call .currentKid
  let totalKeys ← Program.call .keyCount
  pure (.ok (.keys currentKid totalKeys info))

/-- The handler of a request. -/
def keyHandler : KeyRequest → Program KeyQuery.Answer (Checked KeyResponse)
  | .token body now jti => authToken J issuer audience body now jti
  | .rotateKeys => authRotateKeys
  | .keys => adminKeys

end

/-- The manager's answer to a question. -/
def answerQuery (D : MlDsa) (H : Sha256) (draw : RotateDraw D) (query : KeyQuery)
    (mgr : VersionedKeyManager) : Checked (VersionedKeyManager × query.Answer) :=
  match query with
  | .currentKid => pure (mgr, mgr.currentKid)
  | .signCurrent data => pure (mgr, mgr.signCurrent D data)
  | .rotate => mgr.rotate D H draw
  | .keyCount => pure (mgr, mgr.keys.len)
  | .keyInfo =>
    pure (mgr, (mgr.keys.iter draw.order).map fun (_, k) => (k.kid, k.version, k.active))

/-- **The endpoints**, over one key manager. -/
def keyServer (D : MlDsa) (H : Sha256) (J : JwtCodec) (issuer audience : String) :
    Server KeyRequest VersionedKeyManager (RotateDraw D) Empty KeyQuery.Answer
      (Checked KeyResponse) where
  code := keyHandler J issuer audience
  serve := answerQuery D H
  move := nofun

/-- What is reported of the endpoints. -/
abbrev KeyReport (D : MlDsa) : Type := JobReport (RotateDraw D) Empty KeyQuery.Answer

/-! ## What a finished request asked

A handler that has returned has made its calls in one order, and its response is made of the
answers. -/

section

variable {J : JwtCodec} {issuer audience : String} {trace : List (Exchange KeyQuery.Answer)}

/-- **A token response** was drafted for the first kid, and signed before the last one was read. -/
theorem runs_authToken {body : JsonValue} {now : ℕ} {jti token kid : String}
    (h : (authToken J issuer audience body now jti).Runs trace (.ok (.token token kid))) :
    ∃ named draft signer sig,
      draftJwt J (tokenRequest issuer audience body) now jti named = .ok (some draft) ∧
      trace = [⟨.currentKid, named⟩,
        ⟨.signCurrent (Text.asBytes draft.signingInput), some (signer, sig)⟩,
        ⟨.currentKid, kid⟩] ∧ token = draft.token sig := by
  obtain ⟨named, rest, rfl, hdrafted⟩ := Program.runs_call_bind_iff.mp h
  split at hdrafted
  · cases (Program.runs_pure_iff.mp hdrafted).2
  · cases Except.ok.inj (Program.runs_pure_iff.mp hdrafted).2
  · rename_i draft hdraft
    obtain ⟨signed, rest, rfl, hsigned⟩ := Program.runs_call_bind_iff.mp hdrafted
    split at hsigned
    · cases Except.ok.inj (Program.runs_pure_iff.mp hsigned).2
    · obtain ⟨current, rest, rfl, hdone⟩ := Program.runs_call_bind_iff.mp hsigned
      obtain ⟨rfl, hresponse⟩ := Program.runs_pure_iff.mp hdone
      obtain ⟨rfl, rfl⟩ := KeyResponse.token.inj (Except.ok.inj hresponse)
      exact ⟨named, draft, _, _, hdraft, rfl, rfl⟩

theorem runs_authRotateKeys {newKid : String} {totalKeys : ℕ}
    (h : authRotateKeys.Runs trace (.ok (.rotated newKid totalKeys))) :
    trace = [⟨.rotate, newKid⟩, ⟨.keyCount, totalKeys⟩] := by
  obtain ⟨kid, rest, rfl, hrotated⟩ := Program.runs_call_bind_iff.mp h
  obtain ⟨count, rest, rfl, hcounted⟩ := Program.runs_call_bind_iff.mp hrotated
  obtain ⟨rfl, hresponse⟩ := Program.runs_pure_iff.mp hcounted
  obtain ⟨rfl, rfl⟩ := KeyResponse.rotated.inj (Except.ok.inj hresponse)
  rfl

theorem runs_adminKeys {currentKid : String} {totalKeys : ℕ} {keys : List (String × ℕ × Bool)}
    (h : adminKeys.Runs trace (.ok (.keys currentKid totalKeys keys))) :
    trace = [⟨.keyInfo, keys⟩, ⟨.currentKid, currentKid⟩, ⟨.keyCount, totalKeys⟩] := by
  obtain ⟨info, rest, rfl, hlisted⟩ := Program.runs_call_bind_iff.mp h
  obtain ⟨kid, rest, rfl, hread⟩ := Program.runs_call_bind_iff.mp hlisted
  obtain ⟨count, rest, rfl, hcounted⟩ := Program.runs_call_bind_iff.mp hread
  obtain ⟨rfl, hresponse⟩ := Program.runs_pure_iff.mp hcounted
  obtain ⟨rfl, rfl, rfl⟩ := KeyResponse.keys.inj (Except.ok.inj hresponse)
  rfl

end

/-! ## The manager's part of a run -/

/-- The exchange is a rotation. -/
def isRotation : Exchange KeyQuery.Answer → Bool
  | ⟨.rotate, _⟩ => true
  | _ => false

/-- How many rotations were reported. -/
def rotationsIn {D : MlDsa} (reports : List (KeyReport D)) : ℕ := (served reports).countP isRotation

/-- The calls of the manager that a report makes, with their answers. -/
def managerCalls {D : MlDsa} : KeyReport D → List (KeyCall D × KeyAnswer)
  | .served _ draw ⟨.rotate, kid⟩ => [(.rotate draw, .rotated kid)]
  | .served _ _ ⟨.signCurrent data, signed⟩ => [(.signCurrent data, .signed signed)]
  | _ => []

section

variable {D : MlDsa} {H : Sha256} {J : JwtCodec} {issuer audience : String}
  {s t : Jobs KeyRequest VersionedKeyManager KeyQuery.Answer (Checked KeyResponse)}
  {events : List (JobEvent KeyRequest (RotateDraw D) Empty)} {reports : List (KeyReport D)}
  {past : List KeyVersion} {cur : KeyVersion}

theorem rotations_managerCalls (reports : List (KeyReport D)) :
    rotations ((reports.flatMap managerCalls).map Prod.fst) = rotationsIn reports := by
  refine Server.countP_calls rfl ?_ nofun reports
  rintro id draw ⟨query, answer⟩
  cases query <;> rfl

/-- **The manager moves by its own calls**, whatever the requests do. -/
theorem run_manager
    (hrun : (keyServer D H J issuer audience).machine.run s events = .ok (t, reports)) :
    (keyMachine D H).run s.shared ((reports.flatMap managerCalls).map Prod.fst)
      = .ok (t.shared, (reports.flatMap managerCalls).map Prod.snd) := by
  have hidle : managerCalls (.idle : KeyReport D) = [] := rfl
  refine Server.run_component (keyMachine D H) (π := id) hidle ?_ nofun hrun
  rintro id draw query mgr mgr' answer hserve
  cases query with
  | rotate =>
    refine (keyMachine D H).run_cons_eq_ok.mpr ⟨mgr', .rotated answer, [], ?_, rfl, rfl⟩
    exact Checked.bind_eq_ok.mpr ⟨(mgr', answer), hserve, rfl⟩
  | signCurrent data =>
    obtain ⟨rfl, rfl⟩ := Prod.mk.inj (Except.ok.inj hserve)
    rfl
  | _ =>
    obtain ⟨rfl, -⟩ := Prod.mk.inj (Except.ok.inj hserve)
    rfl

/-- The window of keys moves on by the rotations that are reported. -/
theorem run_window (h : Tracks D past cur s.shared)
    (hrun : (keyServer D H J issuer audience).machine.run s events = .ok (t, reports)) :
    ∃ past' cur', TracksFrom D past cur s.shared ((reports.flatMap managerCalls).map Prod.fst)
      past' cur' t.shared ∧ past'.length = past.length + rotationsIn reports := by
  obtain ⟨past', cur', h'⟩ := h.run_of_ok (run_manager hrun)
  exact ⟨past', cur', h', by rw [h'.length_eq, rotations_managerCalls]⟩

@[simp] theorem rotationsIn_append (reports reports' : List (KeyReport D)) :
    rotationsIn (reports ++ reports') = rotationsIn reports + rotationsIn reports' := by
  rw [rotationsIn, served_append, List.countP_append]
  rfl

@[simp] theorem rotationsIn_served (id : ℕ) (draw : RotateDraw D) (e : Exchange KeyQuery.Answer)
    (reports : List (KeyReport D)) : rotationsIn (.served id draw e :: reports)
      = (if isRotation e then 1 else 0) + rotationsIn reports := by
  rw [← List.singleton_append, rotationsIn_append, rotationsIn, served_served,
    List.countP_singleton]

/-- **Where a question is answered**: by the manager that holds the window of then. -/
theorem window_at (h : Tracks D past cur s.shared) {before after : List (KeyReport D)} {id : ℕ}
    {draw : RotateDraw D} {query : KeyQuery} {answer : query.Answer}
    (hrun : (keyServer D H J issuer audience).machine.run s events
      = .ok (t, before ++ .served id draw ⟨query, answer⟩ :: after)) :
    ∃ s' past' cur' events' mgr',
      TracksFrom D past cur s.shared ((before.flatMap managerCalls).map Prod.fst) past' cur'
        s'.shared ∧
      past'.length = past.length + rotationsIn before ∧
      answerQuery D H draw query s'.shared = .ok (mgr', answer) ∧
      (keyServer D H J issuer audience).machine.run s' events'
        = .ok (t, .served id draw ⟨query, answer⟩ :: after) := by
  obtain ⟨events₁, event, events₂, s', s'', -, hbefore, hstep, hafter⟩ :=
    (keyServer D H J issuer audience).machine.run_split hrun
  obtain ⟨past', cur', h', hlength⟩ := run_window h hbefore
  exact ⟨s', past', cur', event :: events₂, s''.shared, h', hlength, Server.step_served hstep,
    Machine.run_cons_eq_ok _ |>.mpr ⟨s'', _, _, hstep, hafter, rfl⟩⟩

/-- The current kid, when it was asked for. -/
theorem Tracks.eq_currentKid {mgr mgr' : VersionedKeyManager} {draw : RotateDraw D} {kid : String}
    (h : Tracks D past cur mgr)
    (hanswer : answerQuery D H draw .currentKid mgr = .ok (mgr', kid)) : kid = cur.kid := by
  obtain ⟨-, rfl⟩ := Prod.mk.inj (Except.ok.inj hanswer)
  exact h.current

/-- The three questions of a token request, and what came between them. -/
structure TokenOrder (id : ℕ) (reports before reading signing after : List (KeyReport D))
    (read : ReadToken) (signer kid : String) : Prop where
  order : ∃ draw₁ draw₂ draw₃ data, reports = before ++
    .served id draw₁ ⟨.currentKid, read.header.kid⟩ :: (reading ++
      .served id draw₂ ⟨.signCurrent data, some (signer, read.signature)⟩ :: (signing ++
        .served id draw₃ ⟨.currentKid, kid⟩ :: after))

end

/-! ## Tokens -/

section

variable {D : MlDsa} {H : Sha256} {J : JwtCodec} {issuer audience : String}
  {t : Jobs KeyRequest VersionedKeyManager KeyQuery.Answer (Checked KeyResponse)}
  {events : List (JobEvent KeyRequest (RotateDraw D) Empty)} {reports : List (KeyReport D)}
  {mgr₀ : VersionedKeyManager} {m id : ℕ}
  {job : Job KeyRequest KeyQuery.Answer (Checked KeyResponse)}

/-- A request that was answered has run its handler. -/
theorem run_answered_request
    (hrun : (keyServer D H J issuer audience).machine.run (Server.start mgr₀) events
      = .ok (t, reports)) (hjob : t.jobs[id]? = some job) {response : Checked KeyResponse}
    (hanswer : job.answer? = some response) :
    (keyHandler J issuer audience job.request).Runs
      (reports.filterMap (JobReport.exchangeOf? id)) response := by
  obtain ⟨htrace, hruns⟩ := Server.runs_of_answer hrun hjob hanswer
  rwa [← htrace]

/-- **A token names the key that signed it** if no rotation came between, and the response names
the same key if none came until it was written. -/
theorem token_endpoint (hD : D.Lawful) (hJ : J.Lawful) (hstart : Started D H m mgr₀)
    (hrun : (keyServer D H J issuer audience).machine.run (Server.start mgr₀) events
      = .ok (t, reports)) (hjob : t.jobs[id]? = some job) {body : JsonValue} {now : ℕ}
    {jti token kid : String} (hrequest : job.request = .token body now jti)
    (hanswer : job.answer? = some (.ok (.token token kid))) :
    ∃ before reading signing after read signer,
      TokenOrder id reports before reading signing after read signer kid ∧
      readToken J token = some read ∧
      (read.header.kid = signer ↔ rotationsIn reading = 0) ∧
      (read.header.kid = kid ↔ rotationsIn (reading ++ signing) = 0) ∧
      (rotationsIn reading = 0 → rotationsIn (signing ++ after) ≤ m → ∀ time ≤ now + 3600,
        verifyJwt D J t.shared token issuer audience time = .ok read.claims) := by
  have hruns := run_answered_request hrun hjob hanswer
  rw [hrequest, keyHandler] at hruns
  obtain ⟨named, draft, signer, sig, hdraft, htrace, rfl⟩ := runs_authToken hruns
  obtain ⟨before, draw₁, rest₁, rfl, hrest₁⟩ := Server.exists_served htrace
  obtain ⟨reading, draw₂, rest₂, rfl, hrest₂⟩ := Server.exists_served hrest₁
  obtain ⟨signing, draw₃, after, rfl, -⟩ := Server.exists_served hrest₂
  obtain ⟨hnamed, hiss, haud, hexp, -, -⟩ := draftJwt_eq_ok hdraft
  obtain ⟨cur₀, h₀, hmax₀⟩ := started_tracks hstart
  obtain ⟨s₁, past₁, cur₁, _, _, h₁, -, hasked₁, hrun₁⟩ := window_at h₀ hrun
  have hrun₃ := hrun₁
  rw [← List.cons_append] at hrun₁
  obtain ⟨s₂, past₂, cur₂, _, _, h₂, hlength₂, hasked₂, hrun₂⟩ := window_at h₁.toTracks hrun₁
  simp only [← List.cons_append, ← List.append_assoc] at hrun₃
  obtain ⟨s₃, past₃, cur₃, _, _, h₃, hlength₃, hasked₃, -⟩ := window_at h₁.toTracks hrun₃
  obtain ⟨past₄, cur₄, h₄, hlength₄⟩ := run_window h₂.toTracks hrun₂
  -- the first question was answered with the first key's name, and so on
  obtain rfl := h₁.toTracks.eq_currentKid hasked₁
  obtain rfl := h₃.toTracks.eq_currentKid hasked₃
  obtain ⟨-, hsign⟩ := Prod.mk.inj (Except.ok.inj hasked₂)
  obtain ⟨rfl, hsig⟩ := h₂.toTracks.signCurrent_eq_some.mp hsign
  have hreading := h₂.kid_eq_iff
  have hsigning := h₃.kid_eq_iff
  rw [rotations_managerCalls] at hreading hsigning
  simp only [rotationsIn_append, rotationsIn_served, isRotation] at hreading hsigning hlength₄
  refine ⟨before, reading, signing, after, ⟨draft.header, draft.claims, draft.signingInput, sig⟩,
    cur₂.kid, ⟨draw₁, draw₂, draw₃, _, by rw [hnamed]⟩, readToken_token hJ draft sig, ?_, ?_, ?_⟩
  · rw [hnamed]
    simpa using hreading
  · rw [hnamed]
    simpa using hsigning
  · intro hnone hmax time htime
    have hretained : t.shared.maxRetainedKeys = m := by
      rw [h₄.max_eq, h₂.max_eq, h₁.max_eq, ← hmax₀]
      rfl
    have hlength : past₄.length ≤ past₂.length + t.shared.maxRetainedKeys := by
      simp only [rotationsIn_append] at hmax
      rw [hretained, hlength₄]
      simp
      omega
    obtain ⟨key, hget, -⟩ := h₄.get_recent h₄.getElem?_length hlength
    have hverify := h₄.verifyByKid_of_get hD h₂.made_current.pair hsig hget
    rw [← hreading.mpr (by simpa using hnone), ← hnamed] at hverify
    have htoken := verifyJwt_token hJ hverify (htime.trans_eq hexp.symm)
    rwa [hiss, haud] at htoken

end

/-! ## Rotations

The key that a rotation makes has the next version, and its version is in its kid. -/

section

variable {D : MlDsa} {H : Sha256} {J : JwtCodec} {issuer audience : String}
  {s t : Jobs KeyRequest VersionedKeyManager KeyQuery.Answer (Checked KeyResponse)}
  {events : List (JobEvent KeyRequest (RotateDraw D) Empty)} {reports : List (KeyReport D)}
  {past : List KeyVersion} {cur : KeyVersion} {mgr₀ : VersionedKeyManager} {m id : ℕ}
  {job : Job KeyRequest KeyQuery.Answer (Checked KeyResponse)}

/-- The kid that a rotation answers is the current one. -/
theorem currentKid_of_rotate {mgr mgr' : VersionedKeyManager} {draw : RotateDraw D} {kid : String}
    (h : mgr.rotate D H draw = .ok (mgr', kid)) : mgr'.currentKid = kid := by
  obtain ⟨next, -, h⟩ := Checked.bind_eq_ok.mp h
  obtain ⟨newKey, -, h⟩ := Checked.bind_eq_ok.mp h
  obtain ⟨shared, -, h⟩ := Checked.bind_eq_ok.mp h
  obtain ⟨keys, -, h⟩ := Checked.bind_eq_ok.mp h
  obtain ⟨rfl, rfl⟩ := Prod.mk.inj (Except.ok.inj h)
  rfl

/-- **After a rotation** the window ends with the key that it answered. -/
theorem rotated_at (h : Tracks D past cur s.shared) {before after : List (KeyReport D)}
    {draw : RotateDraw D} {kid : String}
    (hrun : (keyServer D H J issuer audience).machine.run s events
      = .ok (t, before ++ .served id draw ⟨.rotate, kid⟩ :: after)) :
    ∃ s' past' cur' events', Tracks D past' cur' s'.shared ∧ cur'.kid = kid ∧
      past'.length = past.length + rotationsIn before + 1 ∧ cur.kid ≠ kid ∧
      s'.shared.maxRetainedKeys = s.shared.maxRetainedKeys ∧
      (keyServer D H J issuer audience).machine.run s' events' = .ok (t, after) := by
  obtain ⟨events₁, event, events₂, s₁, s₂, -, hbefore, hstep, hafter⟩ :=
    (keyServer D H J issuer audience).machine.run_split hrun
  obtain ⟨past', cur', h', hlength⟩ := run_window h (Machine.run_concat _ hbefore hstep)
  have hkid : s₂.shared.currentKid = kid := currentKid_of_rotate (Server.step_served hstep)
  have hrotations : rotationsIn (before ++ [.served id draw ⟨.rotate, kid⟩])
      = rotationsIn before + 1 := by
    rw [rotationsIn_append, rotationsIn_served]
    rfl
  have hdiffers := h'.kid_eq_iff
  rw [rotations_managerCalls, hrotations] at hdiffers
  have hcur : cur'.kid = kid := h'.current.symm.trans hkid
  refine ⟨s₂, past', cur', events₂, h'.toTracks, hcur, ?_, fun heq => ?_, h'.max_eq, hafter⟩
  · rw [hlength, hrotations, Nat.add_assoc]
  · exact absurd (hdiffers.mp (heq.trans hcur.symm)) (Nat.succ_ne_zero _)

/-- Rotations answer different kids. -/
theorem rotated_ne (h : Tracks D past cur s.shared) {before middle after : List (KeyReport D)}
    {draw draw' : RotateDraw D} {id' : ℕ} {kid kid' : String}
    (hrun : (keyServer D H J issuer audience).machine.run s events
      = .ok (t, before ++ .served id draw ⟨.rotate, kid⟩ ::
          (middle ++ .served id' draw' ⟨.rotate, kid'⟩ :: after))) : kid ≠ kid' := by
  obtain ⟨s₁, past₁, cur₁, events₁, h₁, rfl, -, -, -, hrun₁⟩ := rotated_at h hrun
  obtain ⟨-, -, -, -, -, -, -, hne, -, -⟩ := rotated_at h₁ hrun₁
  exact hne

/-- How many keys the window holds. -/
theorem Tracks.len_keys {mgr : VersionedKeyManager} (h : Tracks D past cur mgr) :
    mgr.keys.len = min past.length mgr.maxRetainedKeys + 1 := by
  rw [h.keys.len, List.length_map, heldKeys, List.length_append, List.length_map,
    List.length_drop, List.length_singleton]
  omega

/-- The number of keys, when it was asked for. -/
theorem eq_keyCount (h : Tracks D past cur s.shared) {before after : List (KeyReport D)}
    {draw : RotateDraw D} {count : ℕ}
    (hrun : (keyServer D H J issuer audience).machine.run s events
      = .ok (t, before ++ .served id draw ⟨.keyCount, count⟩ :: after)) :
    count = min (past.length + rotationsIn before) s.shared.maxRetainedKeys + 1 := by
  obtain ⟨s', past', cur', _, _, h', hlength, hasked, -⟩ := window_at h hrun
  obtain ⟨-, rfl⟩ := Prod.mk.inj (Except.ok.inj hasked)
  rw [h'.toTracks.len_keys, hlength, h'.max_eq]

/-- **No two rotations answer the same key**, and each tells how many keys there were right after:
as many as were made until the count was read, up to the retained ones and the current one. -/
theorem rotate_endpoint (hstart : Started D H m mgr₀)
    (hrun : (keyServer D H J issuer audience).machine.run (Server.start mgr₀) events
      = .ok (t, reports)) (hjob : t.jobs[id]? = some job) {newKid : String} {totalKeys : ℕ}
    (hrequest : job.request = .rotateKeys)
    (hanswer : job.answer? = some (.ok (.rotated newKid totalKeys))) :
    (∃ before counting after draw draw', reports = before ++
      .served id draw ⟨.rotate, newKid⟩ :: (counting ++
        .served id draw' ⟨.keyCount, totalKeys⟩ :: after) ∧
      totalKeys = min (rotationsIn before + 1 + rotationsIn counting) m + 1) ∧
    newKid ≠ mgr₀.currentKid ∧
    ∀ id' job' newKid' totalKeys', id' ≠ id → t.jobs[id']? = some job' →
      job'.request = .rotateKeys → job'.answer? = some (.ok (.rotated newKid' totalKeys')) →
      newKid' ≠ newKid := by
  have hparts : ∀ {id job newKid totalKeys}, t.jobs[id]? = some job →
      job.request = KeyRequest.rotateKeys →
      job.answer? = some (.ok (.rotated newKid totalKeys)) →
      ∃ before counting after draw draw', reports = before ++
        .served id draw ⟨.rotate, newKid⟩ :: (counting ++
          .served id draw' ⟨.keyCount, totalKeys⟩ :: after) := by
    intro id job newKid totalKeys hjob hrequest hanswer
    have hruns := run_answered_request hrun hjob hanswer
    rw [hrequest, keyHandler] at hruns
    obtain ⟨before, draw, rest, hreports, hrest⟩ :=
      Server.exists_served (runs_authRotateKeys hruns)
    obtain ⟨counting, draw', after, rfl, -⟩ := Server.exists_served hrest
    exact ⟨before, counting, after, draw, draw', hreports⟩
  obtain ⟨before, counting, after, draw, draw', hreports⟩ := hparts hjob hrequest hanswer
  obtain ⟨cur₀, h₀, hmax₀⟩ := started_tracks hstart
  rw [hreports] at hrun
  obtain ⟨s₁, past₁, cur₁, events₁, h₁, -, hlength, hne, hmax₁, hrun₁⟩ := rotated_at h₀ hrun
  refine ⟨⟨before, counting, after, draw, draw', hreports, ?_⟩, ?_, ?_⟩
  · rw [eq_keyCount h₁ hrun₁, hlength, hmax₁]
    simp only [List.length_nil, Nat.zero_add, Server.start, hmax₀]
  · rw [h₀.current]
    exact hne.symm
  · rintro id' job' newKid' totalKeys' hid hjob' hrequest' hanswer'
    obtain ⟨before', counting', after', draw₁, draw₂, hreports'⟩ := hparts hjob' hrequest' hanswer'
    rw [hreports] at hreports'
    have hdistinct : (.served id draw ⟨.rotate, newKid⟩ : KeyReport D)
        ≠ .served id' draw₁ ⟨.rotate, newKid'⟩ := fun heq => hid (JobReport.served.inj heq).1.symm
    obtain ⟨middle, hmiddle⟩ | ⟨middle, hmiddle⟩ := List.split_cases hdistinct hreports'
    · rw [hmiddle] at hrun
      exact (rotated_ne h₀ hrun).symm
    · rw [hreports', hmiddle] at hrun
      exact rotated_ne h₀ hrun

/-- What `/admin/keys` shows of a key. -/
def KeyVersion.info (key : KeyVersion) : String × ℕ × Bool := (key.kid, key.version, key.active)

/-- **The versions held**, oldest first, and which is active. -/
theorem Tracks.map_heldKeys {mgr : VersionedKeyManager} (h : Tracks D past cur mgr) (max : ℕ) :
    (heldKeys max past cur).map (fun key => (key.version, key.active))
      = (List.range' (past.length + 1 - min past.length max) (min past.length max + 1)).map
          fun v => (v, decide (v = past.length + 1)) := by
  have hlength : (heldKeys max past cur).length = min past.length max + 1 := by
    rw [heldKeys, List.length_append, List.length_map, List.length_drop, List.length_singleton]
    omega
  refine List.ext_getElem (by simp [hlength]) fun i hi hi' => ?_
  rw [List.length_map, hlength] at hi
  simp only [List.getElem_map, List.getElem_range', Nat.one_mul]
  obtain hlt | hge := Nat.lt_or_ge i (min past.length max)
  · have hplace : past.length - max + i < past.length := by omega
    have hold : (heldKeys max past cur)[i] = past[past.length - max + i].retire := by
      simp only [heldKeys]
      rw [List.getElem_append_left (by simp; omega), List.getElem_map, List.getElem_drop]
    have hfresh := h.made_past (List.getElem?_eq_getElem hplace)
    rw [hold, retire_version, retire_active, hfresh.version_eq, Prod.mk.injEq]
    exact ⟨by omega, (decide_eq_false (by omega)).symm⟩
  · have hcur : (heldKeys max past cur)[i] = cur := by
      simp only [heldKeys]
      rw [List.getElem_append_right (by simp; omega), List.getElem_singleton]
    rw [hcur, h.made_current.version_eq, h.made_current.active, Prod.mk.injEq]
    exact ⟨by omega, (decide_eq_true (by omega)).symm⟩

/-- The keys, when they were listed. -/
theorem Tracks.keyInfo_perm {mgr mgr' : VersionedKeyManager} {draw : RotateDraw D}
    {keys : List (String × ℕ × Bool)} (h : Tracks D past cur mgr)
    (hanswer : answerQuery D H draw .keyInfo mgr = .ok (mgr', keys)) :
    keys.Perm ((heldKeys mgr.maxRetainedKeys past cur).map KeyVersion.info) := by
  obtain ⟨-, rfl⟩ := Prod.mk.inj (Except.ok.inj hanswer)
  have hperm := (h.keys.iter draw.order).map fun e => KeyVersion.info e.2
  rwa [List.map_map] at hperm

/-- **A listing shows one state of the keys**: the last versions made by then, without a gap, of
which the last is active.  The current kid beside it names that key exactly if no rotation came in
between, and the count is the count of then. -/
theorem keys_endpoint (hstart : Started D H m mgr₀)
    (hrun : (keyServer D H J issuer audience).machine.run (Server.start mgr₀) events
      = .ok (t, reports)) (hjob : t.jobs[id]? = some job) {currentKid : String} {totalKeys : ℕ}
    {keys : List (String × ℕ × Bool)} (hrequest : job.request = .keys)
    (hanswer : job.answer? = some (.ok (.keys currentKid totalKeys keys))) :
    ∃ before listing counting after draw₁ draw₂ draw₃, reports = before ++
      .served id draw₁ ⟨.keyInfo, keys⟩ :: (listing ++
        .served id draw₂ ⟨.currentKid, currentKid⟩ :: (counting ++
          .served id draw₃ ⟨.keyCount, totalKeys⟩ :: after)) ∧
      (keys.map Prod.fst).Nodup ∧
      (keys.map Prod.snd).Perm ((List.range' (rotationsIn before + 1 - min (rotationsIn before) m)
        (min (rotationsIn before) m + 1)).map fun v => (v, decide (v = rotationsIn before + 1))) ∧
      (∀ kid version, (kid, version, true) ∈ keys →
        (kid = currentKid ↔ rotationsIn listing = 0)) ∧
      totalKeys = min (rotationsIn (before ++ listing ++ counting)) m + 1 := by
  have hruns := run_answered_request hrun hjob hanswer
  rw [hrequest, keyHandler] at hruns
  obtain ⟨before, draw₁, rest₁, rfl, hrest₁⟩ := Server.exists_served (runs_adminKeys hruns)
  obtain ⟨listing, draw₂, rest₂, rfl, hrest₂⟩ := Server.exists_served hrest₁
  obtain ⟨counting, draw₃, after, rfl, -⟩ := Server.exists_served hrest₂
  obtain ⟨cur₀, h₀, hmax₀⟩ := started_tracks hstart
  obtain ⟨s₁, past₁, cur₁, _, _, h₁, hlength₁, hasked₁, hrun₁⟩ := window_at h₀ hrun
  have hmax₁ : s₁.shared.maxRetainedKeys = m := h₁.max_eq.trans hmax₀
  rw [← List.cons_append] at hrun₁
  obtain ⟨s₂, past₂, cur₂, _, _, h₂, -, hasked₂, -⟩ := window_at h₁.toTracks hrun₁
  simp only [← List.cons_append, ← List.append_assoc] at hrun
  have hcount := eq_keyCount h₀ hrun
  have hcurrent := h₂.toTracks.eq_currentKid hasked₂
  have hnone := h₂.kid_eq_iff
  rw [rotations_managerCalls] at hnone
  simp only [rotationsIn_append, rotationsIn_served, isRotation] at hcount hnone
  have hperm := h₁.toTracks.keyInfo_perm hasked₁
  have hlisted := h₁.toTracks.map_heldKeys m
  rw [List.length_nil, Nat.zero_add] at hlength₁
  rw [hlength₁] at hlisted
  rw [hmax₁] at hperm
  refine ⟨before, listing, counting, after, draw₁, draw₂, draw₃, rfl, ?_, ?_, ?_, ?_⟩
  · have hkids := h₁.toTracks.keys.nodup
    rw [hmax₁, List.map_map] at hkids
    have hfirst := hperm.map Prod.fst
    rw [List.map_map] at hfirst
    exact hfirst.nodup_iff.mpr hkids
  · rw [← hlisted]
    have hrest := hperm.map Prod.snd
    rwa [List.map_map] at hrest
  · intro kid version hmem
    obtain ⟨key, hkey, hinfo⟩ := List.mem_map.mp (hperm.mem_iff.mp hmem)
    obtain ⟨rfl, hinfo⟩ := Prod.mk.inj hinfo
    obtain ⟨-, hactive⟩ := Prod.mk.inj hinfo
    obtain rfl | ⟨i, old, -, -, rfl⟩ := mem_heldKeys.mp hkey
    · rw [hcurrent]
      simpa using hnone
    · cases hactive
  · rw [hcount]
    simp [Server.start, hmax₀, Nat.add_assoc]

end

/-! ## Requests that are answered -/

/-- The endpoints with the crates to compute with. -/
abbrev plainKeyServer : Server KeyRequest VersionedKeyManager (RotateDraw plainDsa) Empty
    KeyQuery.Answer (Checked KeyResponse) :=
  keyServer plainDsa headDigest plainCodec "gateway" "clients"

theorem draftJwt_plain (request : TokenRequest) (now : ℕ) (jti kid : String)
    (hexp : now + request.ttlSeconds < 2 ^ 64) :
    ∃ draft, draftJwt plainCodec request now jti kid = .ok (some draft) := by
  rw [draftJwt, Checked.checkedAdd_of_lt hexp]
  exact ⟨_, rfl⟩

/-- A token is issued with no rotation in between, and is accepted. -/
theorem token_endpoint_undisturbed : ∃ mgr events t reports token read,
    Started plainDsa headDigest 5 mgr ∧
    plainKeyServer.machine.run (Server.start mgr) events = .ok (t, reports) ∧
    readToken plainCodec token = some read ∧
    verifyJwt plainDsa plainCodec t.shared token "gateway" "clients" 500 = .ok read.claims := by
  obtain ⟨mgr, cur, hnew, h, hkid, -⟩ := new_firstDraw fun _ => true
  obtain ⟨draft, hdraft⟩ := draftJwt_plain (tokenRequest "gateway" "clients" .other) 100 "id-1"
    firstKid (by decide)
  let sig := cur.seed ++ Text.asBytes draft.signingInput
  have hsign := signCurrent_plain h (Text.asBytes draft.signingInput)
  have hserves : plainKeyServer.Serves mgr [(plainDraw, ⟨.currentKid, firstKid⟩),
      (plainDraw, ⟨.signCurrent (Text.asBytes draft.signingInput), some (cur.kid, sig)⟩),
      (plainDraw, ⟨.currentKid, firstKid⟩)] mgr :=
    ⟨mgr, congrArg Except.ok (Prod.ext rfl hkid), mgr, congrArg Except.ok (Prod.ext rfl hsign),
      mgr, congrArg Except.ok (Prod.ext rfl hkid), rfl⟩
  have hruns : (plainKeyServer.code (.token .other 100 "id-1")).Runs
      [⟨.currentKid, firstKid⟩,
        ⟨.signCurrent (Text.asBytes draft.signingInput), some (cur.kid, sig)⟩,
        ⟨.currentKid, firstKid⟩] (.ok (.token (draft.token sig) firstKid)) := by
    refine Program.runs_call_bind_iff.mpr ⟨firstKid, _, rfl, ?_⟩
    rw [hdraft]
    exact .ask _ (.ask _ (.done _))
  have hrun := Server.run_alone hruns hserves
  obtain ⟨before, reading, signing, after, read, signer, ⟨⟨_, _, _, _, horder⟩⟩, hread, -, -,
    haccepted⟩ := token_endpoint lawful_plainDsa lawful_plainCodec (.inl ⟨_, hnew⟩) hrun
      List.getElem?_cons_zero rfl rfl
  -- nothing was rotated at all
  have hnone := (congrArg rotationsIn horder).symm
  rw [show rotationsIn (.idle :: _) = 0 from rfl] at hnone
  simp only [rotationsIn_append, rotationsIn_served] at hnone
  refine ⟨mgr, _, _, _, _, read, .inl ⟨_, hnew⟩, hrun, hread, haccepted ?_ ?_ 500 (by decide)⟩
  · omega
  · rw [rotationsIn_append]
    omega

/-- Two requests to rotate, turn by turn. -/
def overlappingRotations : List (JobEvent KeyRequest (RotateDraw plainDsa) Empty) :=
  [.start .rotateKeys, .start .rotateKeys, .advance 0 plainDraw, .advance 1 plainDraw,
    .advance 0 plainDraw, .advance 1 plainDraw]

/-- Two rotations that overlap answer two new keys, and each counts the keys after both. -/
theorem rotate_endpoint_overlapping : ∃ mgr t reports job job' newKid newKid',
    Started plainDsa headDigest 5 mgr ∧
    plainKeyServer.machine.run (Server.start mgr) overlappingRotations = .ok (t, reports) ∧
    t.jobs = [job, job'] ∧ job.answer? = some (.ok (.rotated newKid 3)) ∧
    job'.answer? = some (.ok (.rotated newKid' 3)) ∧
    newKid ≠ mgr.currentKid ∧ newKid' ≠ mgr.currentKid ∧ newKid' ≠ newKid := by
  obtain ⟨mgr, cur, hnew, h, -, hmax, -⟩ := new_firstDraw fun _ => true
  obtain ⟨mgr₁, new₁, hrotate₁, h₁, hmax₁, -⟩ := rotate_tracks (H := headDigest) h
    (by rw [hmax]; decide) (by rw [h.next]; decide) plainDraw
  have hnext : mgr₁.nextVersion = 3 := h₁.next
  obtain ⟨mgr₂, new₂, hrotate₂, h₂, hmax₂, -⟩ := rotate_tracks (H := headDigest) h₁
    (by rw [hmax₁, hmax]; decide) (by rw [hnext]; decide) plainDraw
  have hcount : mgr₂.keys.len = 3 := by
    rw [h₂.len_keys, hmax₂, hmax₁, hmax]
    rfl
  have hrun : ∃ t reports job job',
      plainKeyServer.machine.run (Server.start mgr) overlappingRotations = .ok (t, reports) ∧
      t.jobs = [job, job'] ∧ job.request = .rotateKeys ∧ job'.request = .rotateKeys ∧
      job.answer? = some (.ok (.rotated new₁.kid mgr₂.keys.len)) ∧
      job'.answer? = some (.ok (.rotated new₂.kid mgr₂.keys.len)) := by
    let M := plainKeyServer.machine
    exact ⟨_, _, _, _, M.run_cons_eq_ok.mpr ⟨_, _, _, rfl, M.run_cons_eq_ok.mpr ⟨_, _, _, rfl,
      M.run_cons_eq_ok.mpr ⟨_, _, _, Server.step_advance rfl rfl rfl hrotate₁,
      M.run_cons_eq_ok.mpr ⟨_, _, _, Server.step_advance rfl rfl rfl hrotate₂,
      M.run_cons_eq_ok.mpr ⟨_, _, _, rfl, M.run_cons_eq_ok.mpr ⟨_, _, _, rfl, M.run_nil _, rfl⟩,
      rfl⟩, rfl⟩, rfl⟩, rfl⟩, rfl⟩, rfl, rfl, rfl, rfl, rfl⟩
  obtain ⟨t, reports, job, job', hrun, hjobs, hrequest, hrequest', hanswer, hanswer'⟩ := hrun
  have hjob : t.jobs[0]? = some job := by rw [hjobs]; rfl
  have hjob' : t.jobs[1]? = some job' := by rw [hjobs]; rfl
  obtain ⟨-, hold, hother⟩ := rotate_endpoint (.inl ⟨_, hnew⟩) hrun hjob hrequest hanswer
  obtain ⟨-, hold', -⟩ := rotate_endpoint (.inl ⟨_, hnew⟩) hrun hjob' hrequest' hanswer'
  exact ⟨mgr, t, reports, job, job', new₁.kid, new₂.kid, .inl ⟨_, hnew⟩, hrun, hjobs,
    hcount ▸ hanswer, hcount ▸ hanswer', hold, hold',
    hother 1 job' _ _ (by decide) hjob' hrequest' hanswer'⟩

/-- A listing with a rotation before its second question: the key that it lists as active is not
the current key that it names. -/
theorem keys_endpoint_overtaken : ∃ mgr t reports job job' keys currentKid,
    Started plainDsa headDigest 5 mgr ∧
    plainKeyServer.machine.run (Server.start mgr)
      [.start .keys, .start .rotateKeys, .advance 0 plainDraw, .advance 1 plainDraw,
        .advance 0 plainDraw, .advance 0 plainDraw] = .ok (t, reports) ∧
    t.jobs = [job, job'] ∧ job.answer? = some (.ok (.keys currentKid 2 keys)) ∧
    keys.map Prod.snd = [(1, true)] ∧
    ∀ kid version, (kid, version, true) ∈ keys → kid ≠ currentKid := by
  obtain ⟨mgr, cur, hnew, h, -, hmax, -⟩ := new_firstDraw fun _ => true
  obtain ⟨mgr₁, new₁, hrotate, h₁, hmax₁, -⟩ := rotate_tracks (H := headDigest) h
    (by rw [hmax]; decide) (by rw [h.next]; decide) plainDraw
  have hcount : mgr₁.keys.len = 2 := by
    rw [h₁.len_keys, hmax₁, hmax]
    rfl
  let listed := (mgr.keys.iter plainDraw.order).map fun (_, k) => (k.kid, k.version, k.active)
  have hrun : ∃ t reports job job', plainKeyServer.machine.run (Server.start mgr)
        [.start .keys, .start .rotateKeys, .advance 0 plainDraw, .advance 1 plainDraw,
          .advance 0 plainDraw, .advance 0 plainDraw] = .ok (t, reports) ∧
      reports = [.idle, .idle, .served 0 plainDraw ⟨.keyInfo, listed⟩,
        .served 1 plainDraw ⟨.rotate, new₁.kid⟩, .served 0 plainDraw ⟨.currentKid, mgr₁.currentKid⟩,
        .served 0 plainDraw ⟨.keyCount, mgr₁.keys.len⟩] ∧
      t.jobs = [job, job'] ∧ job.request = .keys ∧
      job.answer? = some (.ok (.keys mgr₁.currentKid mgr₁.keys.len listed)) := by
    let M := plainKeyServer.machine
    exact ⟨_, _, _, _, M.run_cons_eq_ok.mpr ⟨_, _, _, rfl, M.run_cons_eq_ok.mpr ⟨_, _, _, rfl,
      M.run_cons_eq_ok.mpr ⟨_, _, _, rfl,
      M.run_cons_eq_ok.mpr ⟨_, _, _, Server.step_advance rfl rfl rfl hrotate,
      M.run_cons_eq_ok.mpr ⟨_, _, _, rfl, M.run_cons_eq_ok.mpr ⟨_, _, _, rfl, M.run_nil _, rfl⟩,
      rfl⟩, rfl⟩, rfl⟩, rfl⟩, rfl⟩, rfl, rfl, rfl, rfl⟩
  obtain ⟨t, reports, job, job', hrun, hreports, hjobs, hrequest, hanswer⟩ := hrun
  have hjob : t.jobs[0]? = some job := by rw [hjobs]; rfl
  obtain ⟨before, listing, counting, after, draw₁, _, _, horder, -, hversions, hactive, -⟩ :=
    keys_endpoint (.inl ⟨_, hnew⟩) hrun hjob hrequest hanswer
  rw [hreports] at horder
  -- the two reports before the first question, and what is left after it
  obtain ⟨hbefore, hrest⟩ : rotationsIn before = 0 ∧ rotationsIn listing ≠ 0 := by
    rcases before with _ | ⟨b₀, _ | ⟨b₁, _ | ⟨b₂, before⟩⟩⟩
    · cases (List.cons.inj horder).1
    · cases (List.cons.inj (List.cons.inj horder).2).1
    · obtain ⟨rfl, htail⟩ := List.cons.inj horder
      obtain ⟨rfl, htail'⟩ := List.cons.inj htail
      refine ⟨rfl, ?_⟩
      cases listing with
      | nil => cases (List.cons.inj (List.cons.inj htail').2).1
      | cons report listing =>
        obtain ⟨rfl, -⟩ := List.cons.inj (List.cons.inj htail').2
        rw [← List.singleton_append, rotationsIn_append, rotationsIn_served]
        exact Nat.ne_of_gt (Nat.lt_add_right _ Nat.zero_lt_one)
    · have hlate := congrArg (JobReport.served 0 draw₁ ⟨.keyInfo, listed⟩ ∈ List.drop 3 ·) horder
      simp at hlate
  rw [hbefore] at hversions
  exact ⟨mgr, t, reports, job, job', listed, mgr₁.currentKid, .inl ⟨_, hnew⟩, hrun, hjobs,
    hcount ▸ hanswer, List.perm_singleton.mp hversions, fun kid version hmem =>
      (hactive kid version hmem).not.mpr hrest⟩

end PqcGateway

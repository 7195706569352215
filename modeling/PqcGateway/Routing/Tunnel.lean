import PqcGateway.Machinery.Relay

/-!
# Routing/Tunnel — frames between a client and an upstream

    client ──axumToTungstenite──▸ upstream
           ◂──tungsteniteToAxum──

A WebSocket is tunnelled by two relays over the messages of two libraries.  The conversions keep
what a frame is (`WsFrame`), so in every run each peer is sent a prefix of what was received from
the other (`tunnel_faithful`).
-/

namespace PqcGateway

/-! ## Messages -/

/-- `axum`'s close frame. -/
structure CloseFrame where
  code : UInt16
  reason : String
deriving DecidableEq, Repr

/-- A message of `axum`. -/
inductive WsMessage
  | text (text : String)
  | binary (data : List UInt8)
  | ping (data : List UInt8)
  | pong (data : List UInt8)
  | close (frame : Option CloseFrame)
deriving DecidableEq, Repr

/-- `tungstenite`'s close codes, and their conversions from and to a `u16`. -/
structure CloseCodes where
  Code : Type
  ofU16 : UInt16 → Code
  toU16 : Code → UInt16

/-- The conversions are inverse. -/
structure CloseCodes.Inverse (K : CloseCodes) : Prop where
  toU16_ofU16 : ∀ n, K.toU16 (K.ofU16 n) = n
  ofU16_toU16 : ∀ code, K.ofU16 (K.toU16 code) = code

/-- `tungstenite`'s close frame. -/
structure TungCloseFrame (K : CloseCodes) where
  code : K.Code
  reason : String

/-- A message of `tungstenite`; a raw frame has a header and a payload. -/
inductive TungMessage (K : CloseCodes)
  | text (text : String)
  | binary (data : List UInt8)
  | ping (data : List UInt8)
  | pong (data : List UInt8)
  | close (frame : Option (TungCloseFrame K))
  | frame (header payload : List UInt8)

section

variable (K : CloseCodes)

/-- Convert an axum WebSocket message to a tungstenite message. -/
def axumToTungstenite : WsMessage → Option (TungMessage K)
  | .text text => some (.text text)
  | .binary data => some (.binary data)
  | .ping data => some (.ping data)
  | .pong data => some (.pong data)
  | .close frame => some (.close (frame.map fun f => ⟨K.ofU16 f.code, f.reason⟩))

/-- Convert a tungstenite message to an axum WebSocket message. -/
def tungsteniteToAxum : TungMessage K → Option WsMessage
  | .text text => some (.text text)
  | .binary data => some (.binary data)
  | .ping data => some (.ping data)
  | .pong data => some (.pong data)
  | .close frame => some (.close (frame.map fun f => ⟨K.toU16 f.code, f.reason⟩))
  | .frame _ _ => none

/-! ## The tunnel -/

/-- `forward_client_to_upstream`. -/
def forwardClientToUpstream : RelayCode WsMessage (TungMessage K) String where
  convert := axumToTungstenite K
  receiveError e := "client recv error: " ++ e
  sendError e := "upstream send error: " ++ e

/-- `forward_upstream_to_client`. -/
def forwardUpstreamToClient : RelayCode (TungMessage K) WsMessage String where
  convert := tungsteniteToAxum K
  receiveError e := "upstream recv error: " ++ e
  sendError e := "client send error: " ++ e

/-- `proxy_websocket`, once the upstream is connected: both directions run concurrently and stop
when either side closes. -/
def proxyWebsocket :
    Machine (Duplex WsMessage (TungMessage K) String) (Direction × RelayEvent String) Unit :=
  duplexMachine ⟨forwardClientToUpstream K, forwardUpstreamToClient K⟩

end

/-! ## What a frame is

The two libraries have types of their own for the same frames; only a raw frame of `tungstenite` has
no counterpart, and is passed over. -/

/-- A frame on the wire: its kind and its payload, of a close frame the code and the reason. -/
inductive WsFrame
  | text (text : String)
  | binary (data : List UInt8)
  | ping (data : List UInt8)
  | pong (data : List UInt8)
  | close (frame : Option (UInt16 × String))
  | raw (header payload : List UInt8)
deriving DecidableEq, Repr

def WsMessage.toFrame : WsMessage → WsFrame
  | .text s => .text s
  | .binary data => .binary data
  | .ping data => .ping data
  | .pong data => .pong data
  | .close closing => .close (closing.map fun f => (f.code, f.reason))

def TungMessage.toFrame {K : CloseCodes} : TungMessage K → WsFrame
  | .text s => .text s
  | .binary data => .binary data
  | .ping data => .ping data
  | .pong data => .pong data
  | .close closing => .close (closing.map fun f => (K.toU16 f.code, f.reason))
  | .frame header payload => .raw header payload

section

variable {K : CloseCodes}

/-- **The conversions keep the frame.** -/
theorem toFrame_axumToTungstenite (hK : K.Inverse) (m : WsMessage) (t : TungMessage K)
    (h : axumToTungstenite K m = some t) : t.toFrame = m.toFrame := by
  cases m with
  | close frame =>
    obtain rfl := Option.some.inj h
    cases frame with
    | none => rfl
    | some f => simp only [TungMessage.toFrame, WsMessage.toFrame, Option.map_some, hK.toU16_ofU16]
  | _ =>
    obtain rfl := Option.some.inj h
    rfl

theorem toFrame_tungsteniteToAxum (t : TungMessage K) (m : WsMessage)
    (h : tungsteniteToAxum K t = some m) : m.toFrame = t.toFrame := by
  cases t with
  | close frame =>
    obtain rfl := Option.some.inj h
    cases frame <;> rfl
  | frame header payload => cases h
  | _ =>
    obtain rfl := Option.some.inj h
    rfl

/-- **There and back** a message is the same. -/
theorem tungsteniteToAxum_axumToTungstenite (hK : K.Inverse) (m : WsMessage) :
    (axumToTungstenite K m).bind (tungsteniteToAxum K) = some m := by
  cases m with
  | close frame =>
    cases frame with
    | none => rfl
    | some f =>
      simp only [axumToTungstenite, tungsteniteToAxum, Option.bind_some, Option.map_some,
        hK.toU16_ofU16]
  | _ => rfl

end

/-! ## The tunnel is faithful -/

/-- **A direction is faithful**: what is sent is a prefix of what was received, frame by frame, and
that a prefix of what the peer sends. -/
structure FaithfulTo {α β : Type} (frameOf : α → WsFrame) (frameOf' : β → WsFrame)
    (stream : List α) (relay : Relay α β String) : Prop where
  sent : relay.sent.map frameOf' <+: relay.received.map frameOf
  received : relay.received <+: stream

theorem faithfulTo_of_forwards {α β : Type} {code : RelayCode α β String} {frameOf : α → WsFrame}
    {frameOf' : β → WsFrame} {stream : List α} {relay : Relay α β String}
    (hkeep : ∀ a b, code.convert a = some b → frameOf' b = frameOf a)
    (h : relay.Forwards code stream) : FaithfulTo frameOf frameOf' stream relay :=
  ⟨prefix_map_of_convert hkeep h.sent_prefix, h.received_prefix⟩

/-- **The tunnel is faithful.**  Whatever the peers send, however the two loops are interleaved and
wherever they end, each peer has been sent a prefix of the frames received from the other; and a
message of `axum` is the same after both conversions. -/
theorem tunnel_faithful {K : CloseCodes} (hK : K.Inverse) :
    (∀ fromClient fromUpstream events tunnel answers,
      (proxyWebsocket K).run (.start fromClient fromUpstream) events = .ok (tunnel, answers) →
      FaithfulTo WsMessage.toFrame TungMessage.toFrame fromClient tunnel.forth ∧
        FaithfulTo TungMessage.toFrame WsMessage.toFrame fromUpstream tunnel.back) ∧
    ∀ m, (axumToTungstenite K m).bind (tungsteniteToAxum K) = some m := by
  refine ⟨fun fromClient fromUpstream events tunnel answers hrun => ?_,
    tungsteniteToAxum_axumToTungstenite hK⟩
  have hforwards := forwards_of_run hrun
  exact ⟨faithfulTo_of_forwards (toFrame_axumToTungstenite hK) hforwards.forth,
    faithfulTo_of_forwards toFrame_tungsteniteToAxum hforwards.back⟩

/-- Close codes that are numbers. -/
def plainCodes : CloseCodes := ⟨UInt16, id, id⟩

/-- A client says hello and closes; the upstream answers with a pong, and its second message is on
its way when the tunnel ends. -/
def helloEvents : List (Direction × RelayEvent String) :=
  [(.forth, .arrived), (.back, .arrived), (.forth, .accepted), (.back, .accepted),
    (.back, .flushed), (.back, .arrived), (.forth, .flushed), (.forth, .arrived),
    (.forth, .accepted), (.forth, .flushed), (.forth, .streamEnded), (.forth, .closed),
    (.back, .accepted)]

theorem tunnel_faithful_hello :
    ∃ tunnel answers,
      (proxyWebsocket plainCodes).run
          (.start [.text "hello", .close (some ⟨1000, "bye"⟩)] [.pong [1], .binary [2]]) helloEvents
        = .ok (tunnel, answers) ∧
      tunnel.forth.sent.map TungMessage.toFrame = [.text "hello", .close (some (1000, "bye"))] ∧
      tunnel.back.sent = [.pong [1]] ∧
      FaithfulTo WsMessage.toFrame TungMessage.toFrame
        [.text "hello", .close (some ⟨1000, "bye"⟩)] tunnel.forth := by
  have hK : plainCodes.Inverse := ⟨fun _ => rfl, fun _ => rfl⟩
  refine ⟨_, _, rfl, rfl, rfl, ?_⟩
  exact ((tunnel_faithful hK).1 _ [.pong [1], .binary [2]] helloEvents _ _ rfl).1

end PqcGateway

import PqcGateway.Machinery.Runs
import Mathlib.Data.List.Basic

/-!
# Machinery/Relay — two loops that forward to each other's side

    receive ─▸ convert ─▸ send ─▸ receive ─▸ …

A relay receives one message at a time and waits until its conversion is sent; it closes when a
message has none or the stream ends, and is finished when it has closed or either end fails.  Two
relays in opposite directions run until one is finished, and the other is dropped wherever it
stands (`Duplex`).

* `Relay.Forwards` — what is sent is the conversion of what was received, but for what the relay
  still holds; `Forwards.step` for each event.
* `forwards_of_run` — so it is in both directions, in every run of two relays.
* `prefix_map_of_convert` — what every conversion keeps is kept along a prefix.
-/

variable {α β γ ε : Type}

/-! ## One relay -/

/-- What a relay is waiting for. -/
inductive RelayPhase (β ε : Type)
  | receiving
  | sending (message : β)
  | flushing
  | closing
  | finished (result : Except ε Unit)

/-- A relay: the messages to come, those received, and those sent. -/
structure Relay (α β ε : Type) where
  incoming : List α
  received : List α
  sent : List β
  phase : RelayPhase β ε

/-- What happens to a relay.  The sink has a message from `accepted` on. -/
inductive RelayEvent (ε : Type)
  | arrived
  | streamEnded
  | receiveFailed (error : ε)
  | accepted
  | flushed
  | sendFailed (error : ε)
  | closed

/-- What a relay runs: the conversion of a message, and what it makes of errors. -/
structure RelayCode (α β ε : Type) where
  convert : α → Option β
  receiveError : ε → ε
  sendError : ε → ε

namespace Relay

/-- Before the first message. -/
def start (incoming : List α) : Relay α β ε where
  incoming
  received := []
  sent := []
  phase := .receiving

/-- The loop has returned. -/
def isFinished (relay : Relay α β ε) : Bool :=
  match relay.phase with
  | .finished _ => true
  | _ => false

/-- Receive the next message, if there is one. -/
def receive (code : RelayCode α β ε) (relay : Relay α β ε) : Relay α β ε :=
  match relay.incoming with
  | [] => relay
  | message :: incoming =>
    { relay with
      incoming
      received := relay.received ++ [message]
      phase := match code.convert message with
        | some converted => .sending converted
        | none => .closing }

/-- One event.  What the relay is not waiting for does not happen to it. -/
def step (code : RelayCode α β ε) (relay : Relay α β ε) (event : RelayEvent ε) : Relay α β ε :=
  match relay.phase, event with
  | .receiving, .arrived => relay.receive code
  | .receiving, .streamEnded => { relay with phase := .closing }
  | .receiving, .receiveFailed e =>
    { relay with phase := .finished (.error (code.receiveError e)) }
  | .sending message, .accepted =>
    { relay with sent := relay.sent ++ [message], phase := .flushing }
  | .flushing, .flushed => { relay with phase := .receiving }
  | .sending _, .sendFailed e | .flushing, .sendFailed e =>
    { relay with phase := .finished (.error (code.sendError e)) }
  -- whether the sink closes well is not asked
  | .closing, .closed => { relay with phase := .finished (.ok ()) }
  | _, _ => relay

end Relay

/-- What a relay holds in a phase: the conversions received and not sent. -/
def RelayPhase.Holds : RelayPhase β ε → List (Option β) → Prop
  | .receiving, held | .flushing, held => held = []
  | .sending message, held => held = [some message]
  | .closing, _ | .finished _, _ => True

/-- **A relay forwards** a stream: it takes the messages in order, and sends the conversion of each
before it takes the next. -/
structure Relay.Forwards (code : RelayCode α β ε) (stream : List α) (relay : Relay α β ε) :
    Prop where
  taken : relay.received ++ relay.incoming = stream
  converted : ∃ held, relay.received.map code.convert = relay.sent.map some ++ held ∧
    relay.phase.Holds held

namespace Relay.Forwards

variable {code : RelayCode α β ε} {stream : List α} {relay : Relay α β ε}

theorem start : (Relay.start stream : Relay α β ε).Forwards code stream :=
  ⟨rfl, [], rfl, rfl⟩

/-- A relay that has nothing more to send may hold anything. -/
theorem ended (h : relay.Forwards code stream) {phase : RelayPhase β ε}
    (hphase : ∀ held, phase.Holds held) : ({ relay with phase }).Forwards code stream := by
  obtain ⟨held, hheld, -⟩ := h.converted
  exact ⟨h.taken, held, hheld, hphase held⟩

/-- The message received is held, or it has no conversion. -/
theorem receive (h : relay.Forwards code stream) (hphase : relay.phase = .receiving) :
    (relay.receive code).Forwards code stream := by
  obtain ⟨htaken, held, hheld, hholds⟩ := h
  rw [hphase] at hholds
  obtain rfl : held = [] := hholds
  unfold Relay.receive
  split
  · exact ⟨htaken, [], hheld, hphase ▸ rfl⟩
  · next message incoming hincoming =>
    refine ⟨by rw [← htaken, hincoming, List.append_assoc, List.singleton_append],
      [code.convert message], ?_, ?_⟩
    · rw [List.map_append, hheld, List.append_nil, List.map_singleton]
    · cases code.convert message with
      | none => trivial
      | some converted => rfl

/-- The message held is sent. -/
theorem accept {message : β} (h : relay.Forwards code stream)
    (hphase : relay.phase = .sending message) :
    ({ relay with sent := relay.sent ++ [message], phase := .flushing }).Forwards code stream := by
  obtain ⟨htaken, held, hheld, hholds⟩ := h
  rw [hphase] at hholds
  obtain rfl : held = [some message] := hholds
  exact ⟨htaken, [], by rw [hheld, List.map_append, List.append_nil, List.map_singleton], rfl⟩

/-- **Every event keeps it.** -/
theorem step (h : relay.Forwards code stream) (event : RelayEvent ε) :
    (relay.step code event).Forwards code stream := by
  unfold Relay.step
  split
  · exact h.receive ‹_›
  · exact h.ended fun _ => trivial
  · exact h.ended fun _ => trivial
  · exact h.accept ‹_›
  · next hphase =>
    obtain ⟨htaken, held, hheld, hholds⟩ := h
    rw [hphase] at hholds
    exact ⟨htaken, held, hheld, hholds⟩
  · exact h.ended fun _ => trivial
  · exact h.ended fun _ => trivial
  · exact h.ended fun _ => trivial
  · exact h

/-- **What is sent** is a prefix of what was received, converted. -/
theorem sent_prefix (h : relay.Forwards code stream) :
    relay.sent.map some <+: relay.received.map code.convert := by
  obtain ⟨held, hheld, -⟩ := h.converted
  exact ⟨held, hheld.symm⟩

theorem received_prefix (h : relay.Forwards code stream) : relay.received <+: stream :=
  ⟨relay.incoming, h.taken⟩

end Relay.Forwards

/-- **What every conversion keeps** is kept along a prefix. -/
theorem prefix_map_of_convert {convert : α → Option β} {f : α → γ} {g : β → γ}
    (hkeep : ∀ a b, convert a = some b → g b = f a) {sent : List β} {received : List α}
    (h : sent.map some <+: received.map convert) : sent.map g <+: received.map f := by
  induction sent generalizing received with
  | nil => exact List.nil_prefix
  | cons b sent ih =>
    cases received with
    | nil => exact absurd (List.prefix_nil.mp h) (List.cons_ne_nil _ _)
    | cons a received =>
      rw [List.map_cons, List.map_cons, List.cons_prefix_cons] at h
      obtain ⟨hb, hrest⟩ := h
      rw [List.map_cons, List.map_cons, hkeep a b hb.symm]
      exact (List.prefix_append_right_inj [f a]).mpr (ih hrest)

/-! ## Two relays

The two take turns in any order, and the first to finish ends both. -/

/-- The two directions. -/
inductive Direction
  | forth
  | back
deriving DecidableEq, Repr

/-- Two relays in opposite directions. -/
structure Duplex (α β ε : Type) where
  forth : Relay α β ε
  back : Relay β α ε

/-- What they run. -/
structure DuplexCode (α β ε : Type) where
  forth : RelayCode α β ε
  back : RelayCode β α ε

namespace Duplex

/-- Before the first message, either way. -/
def start (incoming : List α) (outgoing : List β) : Duplex α β ε :=
  ⟨.start incoming, .start outgoing⟩

/-- One event, in one direction.  When a relay is finished the other is dropped, and nothing happens
to it any more. -/
def step (code : DuplexCode α β ε) (duplex : Duplex α β ε) :
    Direction × RelayEvent ε → Duplex α β ε
  | (direction, event) =>
    if duplex.forth.isFinished || duplex.back.isFinished then duplex
    else match direction with
      | .forth => { duplex with forth := duplex.forth.step code.forth event }
      | .back => { duplex with back := duplex.back.step code.back event }

end Duplex

/-- **Two relays**, one event after another. -/
def duplexMachine (code : DuplexCode α β ε) :
    Machine (Duplex α β ε) (Direction × RelayEvent ε) Unit where
  step duplex event := pure (duplex.step code event, ())

/-- Both relays forward, each its own stream. -/
structure Duplex.Forwards (code : DuplexCode α β ε) (xs : List α) (ys : List β)
    (duplex : Duplex α β ε) : Prop where
  forth : duplex.forth.Forwards code.forth xs
  back : duplex.back.Forwards code.back ys

theorem Duplex.Forwards.step {code : DuplexCode α β ε} {xs : List α} {ys : List β}
    {duplex : Duplex α β ε} (h : duplex.Forwards code xs ys) (event : Direction × RelayEvent ε) :
    (duplex.step code event).Forwards code xs ys := by
  obtain ⟨direction, event⟩ := event
  unfold Duplex.step
  dsimp only
  split
  · exact h
  · cases direction with
    | forth => exact ⟨h.forth.step event, h.back⟩
    | back => exact ⟨h.forth, h.back.step event⟩

/-- **Two relays forward** in every run. -/
theorem forwards_of_run {code : DuplexCode α β ε} {xs : List α} {ys : List β}
    {duplex : Duplex α β ε} {events : List (Direction × RelayEvent ε)} {answers : List Unit}
    (hrun : (duplexMachine code).run (.start xs ys) events = .ok (duplex, answers)) :
    duplex.Forwards code xs ys := by
  refine (duplexMachine code).run_invariant (fun d event d' _ h hstep => ?_)
    (⟨.start, .start⟩ : (Duplex.start xs ys).Forwards code xs ys) hrun
  obtain ⟨rfl, -⟩ := Prod.mk.inj (Except.ok.inj hstep)
  exact h.step event

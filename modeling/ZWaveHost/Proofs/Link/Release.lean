import ZWaveHost.Proofs.Link.Outbox
import ZWaveHost.Proofs.Link.Round

/-! What a transmission comes to. It repeats the request of the exchange in flight, or it goes through the requests that are
ready until one is written. Those that cannot be encoded are refused on the way, all in one call. A request is checked when
it is handed over, and written much later and with another callback id; yet the check tells what becomes of it on the line. -/
namespace ZWaveHost

namespace Message

variable (message : Message) (id : UInt8)

theorem encodeChecked : (message.encode.map fun _ => ()) = message.validate := by
  unfold encode validate Frame.encode
  cases message.toFrame with
  | error fault => rfl
  | ok frame => cases checked : frame.lengthByte <;> simp [checked, bind, Except.bind, Except.map, pure, Except.pure]

theorem validEncodes : message.validate = .ok () ↔ ∃ bytes, message.encode = .ok bytes := by
  rw [← encodeChecked]
  cases message.encode <;> simp [Except.map]

theorem invalidFails (fault : Fault) : message.validate = .error fault ↔ message.encode = .error fault := by
  rw [← encodeChecked]
  cases message.encode <;> simp [Except.map]

theorem stampedChecked : (message.withCallbackId id).validate = message.validate := by
  cases message with
  | sendData nodeId data options own =>
    simp only [withCallbackId, validate, toFrame]
    cases LengthField.sendData.sizeByte data.length with
    | error fault => rfl
    | ok length => simp [bind, Except.bind, pure, Except.pure, Frame.lengthByte, Frame.request]
  | addNode | removeNode | setDefault => rfl
  | _ => rfl

theorem stampedFails (fault : Fault) :
    (message.withCallbackId id).encode = .error fault ↔ message.encode = .error fault := by
  rw [← invalidFails, stampedChecked, invalidFails]

theorem stampedTarget : (message.withCallbackId id).target = message.target := by
  cases message <;> rfl

variable {message}

theorem stampedPlain (plain : message.callbackId = none) : message.withCallbackId id = message := by
  cases message <;> first | rfl | contradiction

end Message

namespace Link

/- What a call makes of the requests that are ready. The first that can be encoded is written, those before it are refused;
each has the next number, and the next callback id if it has one. -/
inductive Releases : Nat → UInt8 → List Message → List Output → List Message → Option Message → Prop
  | drained {id stamp} : Releases id stamp [] [] [] none
  | written {id stamp message rest bytes} (encoded : (message.withCallbackId stamp).encode = .ok bytes) :
      Releases id stamp (message :: rest) [.event (.started id message.target), .write bytes] rest
        (some (message.withCallbackId stamp))
  | refused {id stamp message rest fault outputs left last} (unencodable : message.encode = .error fault)
      (later : Releases (id + 1) (if message.callbackId.isSome then followingCallbackId stamp else stamp) rest outputs
        left last) :
      Releases id stamp (message :: rest)
        (.event (.started id message.target) ::
          .event (.failed id message.target (message.withCallbackId stamp) .rejected) :: outputs) left last

inductive Transmits (link : Link) : List Output → Link → Prop
  | quiet {exchange} (active : link.active = some exchange) : Transmits link [] link
  | again {exchange bytes after} (active : link.active = some exchange) (encoded : exchange.request.encode = .ok bytes)
      (sent : after.active = some { exchange with phase := .sent }) (queue : after.outbox = link.outbox) :
      Transmits link [.write bytes] after
  | release {outputs after} (idle : link.active = none)
      (releases : Releases link.nextId link.nextCallbackId link.outbox.ready outputs after.outbox.ready
        (after.active.map Exchange.request)) : Transmits link outputs after

theorem Releases.drains {id stamp ready outputs left last} (releases : Releases id stamp ready outputs left last) :
    last.isSome ∨ left = [] := by
  induction releases with
  | drained => exact .inr rfl
  | written => exact .inl rfl
  | refused _ _ ih => exact ih

theorem Transmits.drains {link after : Link} {outputs} (transmits : Transmits link outputs after) :
    after.active.isSome ∨ after.outbox.ready = [] := by
  cases transmits with
  | quiet active => exact .inl (by simp [active])
  | again _ _ sent => exact .inl (by simp [sent])
  | release _ releases => exact releases.drains.imp_left (by simp)

theorem beginsReady {link after : Link} {exchange} (begins : link.begin? = some (after, exchange)) :
    ∃ message, link.outbox.ready = message :: after.outbox.ready ∧
      exchange.request = message.withCallbackId link.nextCallbackId ∧ exchange.node = message.target ∧
      after.nextCallbackId =
        if message.callbackId.isSome then followingCallbackId link.nextCallbackId else link.nextCallbackId := by
  simp only [begin?, Outbox.next?] at begins
  split at begins
  · contradiction
  · rename_i message outbox taken
    split at taken
    · contradiction
    · rename_i ready
      cases taken
      cases begins
      have stamped : (if message.callbackId.isSome = true then message.withCallbackId link.nextCallbackId else message) =
          message.withCallbackId link.nextCallbackId := by
        cases has : message.callbackId with
        | none => exact (Message.stampedPlain _ has).symm
        | some id => rfl
      exact ⟨message, ready, stamped, by rw [Exchange.node, stamped, Message.stampedTarget], rfl⟩

theorem startNextReleases {link : Link} (idle : link.active = none) (now : Time) :
    Releases link.nextId link.nextCallbackId link.outbox.ready (link.startNext now).2
      (link.startNext now).1.outbox.ready ((link.startNext now).1.active.map Exchange.request) := by
  fun_induction startNext link now with
  | case1 link nothing =>
    rw [beginsNothing nothing, idle]
    exact .drained
  | case2 link after exchange begins started sent outputs writes =>
    obtain ⟨message, ready, same, node, -⟩ := beginsReady begins
    obtain ⟨bytes, encoded, rfl, rfl⟩ := written writes
    have begun := begun begins
    rw [same] at encoded
    simp only [started, begun.id, node, ready, Option.map_some, sentCreated begun.phase, same]
    exact .written encoded
  | case3 link after exchange begins started refused last later recursion ih =>
    obtain ⟨message, ready, same, node, stamp⟩ := beginsReady begins
    obtain ⟨fault, unencodable⟩ := unwritten refused
    have begun := begun begins
    have rest := ih rfl
    rw [recursion] at rest
    simp only [begun.nextId, stamp] at rest
    simp only [started, rejectedEnding begun.phase, begun.id, node, ready, same]
    rw [same, Message.stampedFails] at unencodable
    exact .refused unencodable rest

theorem transmits {link : Link} (sound : link.Sound) (now : Time) :
    Transmits link (link.transmit now).2 (link.transmit now).1 := by
  cases active : link.active with
  | none =>
    rw [transmitIdle sound active]
    exact .release active (startNextReleases active now)
  | some exchange =>
    by_cases outstanding : link.handshake.isAwaiting = true
    · simpa [transmit, outstanding] using Transmits.quiet active
    · cases due : exchange.isDue now with
      | false => simpa [transmitEarly active due] using Transmits.quiet active
      | true =>
        have settled : link.handshake.deadline = none := by simpa [Handshake.isAwaiting] using outstanding
        obtain ⟨bytes, encoded⟩ := (sound.underway exchange active).encodes
        obtain ⟨handshake, writes⟩ := transmitDue settled active due encoded
        rw [writes]
        exact .again active encoded rfl rfl

end Link

end ZWaveHost

import ZWaveHost.Proofs.Link.Planned
import ZWaveHost.Proofs.Link.Release
import ZWaveHost.Proofs.Link.Served

/-! Of the requests that were checked when they were handed over none is refused: each exchange that starts puts its
request out at once. -/
namespace ZWaveHost

namespace Transcript

variable {P : Message → Prop}

inductive Launch (P : Message → Prop) (id : Nat) (node : Option NodeId) : List Output → Prop
  | written {request bytes rest} (waited : P request) (encoded : request.encode = .ok bytes) :
      Launch P id node (.write bytes :: rest)
  | refused {request fault rest} (waited : P request) (unencodable : request.encode = .error fault) :
      Launch P id node (.event (.failed id node request .rejected) :: rest)

theorem Launch.append {id node outputs} (launch : Launch P id node outputs) (later : List Output) :
    Launch P id node (outputs ++ later) := by
  cases launch with
  | written waited encoded => exact .written waited encoded
  | refused waited unencodable => exact .refused waited unencodable

inductive Launches (P : Message → Prop) : List Output → Prop
  | nothing : Launches P []
  | start {id node rest} (launch : Launch P id node rest) (later : Launches P rest) :
      Launches P (.event (.started id node) :: rest)
  | other {output rest} (other : ∀ id node, output ≠ .event (.started id node)) (later : Launches P rest) :
      Launches P (output :: rest)

theorem Launches.append {before later : List Output} (launches : Launches P before) (next : Launches P later) :
    Launches P (before ++ later) := by
  induction launches with
  | nothing => exact next
  | start launch _ ih => exact .start (launch.append later) ih
  | other other _ ih => exact .other other ih

theorem Launches.behind {before id node later} (launches : Launches P (before ++ .event (.started id node) :: later)) :
    Launch P id node later := by
  induction before with
  | nil =>
    cases launches with
    | start launch => exact launch
    | other other => exact absurd rfl (other id node)
  | cons output rest ih =>
    cases launches with
    | start _ more => exact ih more
    | other _ more => exact ih more

theorem launchesNone {outputs : List Output} (none : startsOf outputs = []) : Launches P outputs := by
  induction outputs with
  | nil => exact .nothing
  | cons output rest ih =>
    have unstarted : (∀ id node, output ≠ .event (.started id node)) ∧ startsOf rest = [] := by
      obtain ⟨first, others⟩ := List.filterMap_eq_nil_iff.mp none |> List.forall_mem_cons.mp
      refine ⟨fun id node same => ?_, List.filterMap_eq_nil_iff.mpr others⟩
      subst same
      contradiction
    exact .other unstarted.1 (ih unstarted.2)

def Prompt (outputs : List Output) (last : Standing) : Prop :=
  ∀ before id node later, outputs = before ++ .event (.started id node) :: later →
    ∃ request bytes rest, node = request.target ∧ request.encode = .ok bytes ∧ later = .write bytes :: rest ∧
      Orderly ⟨id, some request⟩ rest last

theorem Orderly.writtenFirst {last : Standing} {id request other bytes rest}
    (orderly : Orderly ⟨id, some request⟩ (.write bytes :: rest) last) (encoded : Message.encode other = .ok bytes) :
    request.encode = .ok bytes ∧ Orderly ⟨id, some request⟩ rest last := by
  cases orderly with
  | answer lone =>
    obtain ⟨notAck, notNak⟩ := encodedStart encoded
    rcases lone with rfl | rfl <;> contradiction
  | written own more => exact ⟨own, more⟩

theorem Launches.prompt {outputs : List Output} {first last : Standing} (launches : Launches P outputs)
    (orderly : Orderly first outputs last) (encodes : ∀ request, P request → ∃ bytes, request.encode = .ok bytes) :
    Prompt outputs last := by
  rintro before id node later rfl
  obtain ⟨_, request, -, -, target, own⟩ := orderly.behindStart
  cases launches.behind with
  | written _ encoded =>
    obtain ⟨encoded, more⟩ := own.writtenFirst encoded
    exact ⟨request, _, _, target, encoded, rfl, more⟩
  | refused waited unencodable =>
    obtain ⟨bytes, encoded⟩ := encodes _ waited
    cases encoded.symm.trans unencodable

theorem Orderly.endedUnwritten {last : Standing} {before id node event later}
    (orderly : Orderly ⟨0, none⟩ (before ++ .event (.started id node) :: .event event :: later) last)
    (ends : event.ends? = some id) :
    writesOf id (before ++ .event (.started id node) :: .event event :: later) = [] := by
  obtain ⟨mid, request, head, unborn, -, own⟩ := orderly.behindStart
  have noneBefore : requestsOf id none before = [] := head.unborn unborn
  have noneBehind : requestsOf id (some id) (.event event :: later) = [] := by
    cases own with
    | received => contradiction
    | ended own more =>
      rw [requestsEnded own]
      exact (more.closed (Nat.le_refl id) nofun).1
  rw [writesOf, requestsAppend, noneBefore, List.nil_append]
  exact noneBehind

def Decided (outputs : List Output) : Prop :=
  ∀ before id node later, outputs = before ++ .event (.started id node) :: later →
    ∃ request rest, node = request.target ∧
      ((∃ bytes, request.encode = .ok bytes ∧ later = .write bytes :: rest) ∨
        (∃ fault, request.encode = .error fault ∧ later = .event (.failed id node request .rejected) :: rest ∧
          writesOf id outputs = []))

theorem Launches.decided {outputs : List Output} {last : Standing} (launches : Launches P outputs)
    (orderly : Orderly ⟨0, none⟩ outputs last) : Decided outputs := by
  rintro before id node later rfl
  obtain ⟨_, request, -, -, target, own⟩ := orderly.behindStart
  cases launches.behind with
  | written _ encoded => exact ⟨request, _, target, .inl ⟨_, (own.writtenFirst encoded).1, rfl⟩⟩
  | @refused _ fault rest waited unencodable =>
    have silent := orderly.endedUnwritten rfl
    cases own with
    | ended ends =>
      rcases ends with same | ⟨_, same⟩ <;> cases same
      exact ⟨_, rest, rfl, .inr ⟨fault, unencodable, rfl, silent⟩⟩

end Transcript

namespace Link
open Transcript

theorem Releases.launches {P : Message → Prop} {id stamp ready outputs left last}
    (releases : Releases id stamp ready outputs left last) (waiting : ∀ message ∈ ready, P message)
    (stamped : ∀ message id, P message → P (message.withCallbackId id)) : Launches P outputs := by
  induction releases with
  | drained => exact .nothing
  | @written id stamp message rest bytes encoded =>
    have waited := waiting message List.mem_cons_self
    exact .start (.written (stamped message stamp waited) encoded) (.other nofun .nothing)
  | @refused id stamp message rest fault outputs left last unencodable _ ih =>
    obtain ⟨waited, others⟩ := List.forall_mem_cons.mp waiting
    have unencodable := (message.stampedFails stamp fault).mpr unencodable
    exact .start (.refused (stamped message stamp waited) unencodable) (.other nofun (ih others))

section Launches

variable {P : Message → Prop} (stamped : ∀ message id, P message → P (message.withCallbackId id))

include stamped

theorem stepLaunches {link : Link} (sound : link.Sound) (only : link.outbox.Only P) (now : Time) (op : Op) :
    Launches P (link.step now op).2 := by
  generalize stepped : link.step now op = last
  have call := stepCall sound now op
  rw [stepped] at call
  obtain ⟨after, outputs⟩ := last
  have orderly := (call.path sound).orderly sound
  cases call with
  | aside outbox _ _ stray => exact launchesNone (straysTell stray [] none).2.2
  | turned outbox active turns settled =>
    refine launchesNone ?_
    rw [orderly.numbered]
    simp [standing, concludeStarted]
  | repeated => exact .other (by simp) .nothing
  | released idle => exact (startNextReleases idle now).launches only.ready stamped

theorem runLaunches {link : Link} (sound : link.Sound) (only : link.outbox.Only P) {history : List (Time × Op)}
    (enqueued : ∀ now outbound, (now, .enqueue outbound) ∈ history → outbound.message.validate = .ok () →
      P outbound.message)
    (accepted : ∀ now outbound, (now, .accept outbound) ∈ history → P outbound.message) :
    Launches P (link.run history).2.flatten ∧ (link.run history).1.outbox.Only P := by
  induction history generalizing link with
  | nil => exact ⟨.nothing, only⟩
  | cons call rest ih =>
    obtain ⟨now, op⟩ := call
    have next : (link.step now op).1.outbox.Only P := by
      refine onlyStep only now ?_
      rintro outbound (⟨rfl, valid⟩ | rfl)
      · exact enqueued now outbound List.mem_cons_self valid
      · exact accepted now outbound List.mem_cons_self
    have later := ih ((stepPath sound now op).sound sound) next
      (fun now outbound member => enqueued now outbound (List.mem_cons_of_mem _ member))
      (fun now outbound member => accepted now outbound (List.mem_cons_of_mem _ member))
    exact ⟨(stepLaunches stamped sound only now op).append later.1, later.2⟩

end Launches

theorem Releases.unrefused {id stamp ready outputs left last} (releases : Releases id stamp ready outputs left last)
    (admitted : ∀ message ∈ ready, message.validate = .ok ()) :
    ∀ id node request why, .event (.failed id node request why) ∉ outputs := by
  cases releases with
  | drained => simp
  | written => simp
  | @refused _ _ message _ fault _ _ _ unencodable =>
    obtain ⟨bytes, encoded⟩ := message.validEncodes.mp (admitted message List.mem_cons_self)
    cases encoded.symm.trans unencodable

theorem Transmits.unrefused {link after : Link} {outputs} (transmits : Transmits link outputs after)
    (admitted : ∀ message ∈ link.outbox.ready, message.validate = .ok ()) :
    ∀ id node request why, .event (.failed id node request why) ∉ outputs := by
  cases transmits with
  | quiet => simp
  | again => simp
  | release idle releases => exact releases.unrefused admitted

theorem stampedAdmitted (message : Message) (id : UInt8) (admitted : message.validate = .ok ()) :
    (message.withCallbackId id).validate = .ok () := (message.stampedChecked id).trans admitted

structure Unrefused (link : Link) (outputs : List Output) : Prop where
  prompt : Prompt outputs link.standing
  onward : ∀ now id node request why, .event (.failed id node request why) ∉ (link.transmit now).2

theorem admittedUnrefused {link : Link} {outputs : List Output} (sound : link.Sound)
    (waiting : link.outbox.Only (·.validate = .ok ())) (launches : Launches (·.validate = .ok ()) outputs)
    (orderly : Orderly ⟨0, none⟩ outputs link.standing) : link.Unrefused outputs where
  prompt := launches.prompt orderly fun request => request.validEncodes.mp
  onward now := (transmits sound now).unrefused waiting.ready

end Link

end ZWaveHost

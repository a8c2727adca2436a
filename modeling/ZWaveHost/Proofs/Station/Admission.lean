import ZWaveHost.Proofs.Link.Admission
import ZWaveHost.Proofs.Station.Startup

/-! Every request that callers hand over to a station was checked when they asked, so of what the link of a station starts
nothing is refused, whoever calls meanwhile. -/
namespace ZWaveHost

namespace Office
open Transcript

structure Checked (office : Office) : Prop where
  asked : ∀ outbound ∈ office.asked, outbound.message.validate = .ok ()
  holding : ∀ outbound ∈ office.holding, outbound.message.validate = .ok ()
  posted : ∀ outbound, .accept outbound ∈ office.station.mailbox → outbound.message.validate = .ok ()
  waiting : office.station.link.outbox.Only (·.validate = .ok ())

variable {office : Office}

theorem openedChecked (timing : Timing) (queueCapacity writerCapacity : Nat) (port : Port) :
    (opened timing queueCapacity writerCapacity port).Checked := ⟨nofun, nofun, nofun, ⟨nofun, nofun⟩⟩

theorem Checked.tells (checked : office.Checked) {order : Order} (other : order.request? = none) :
    (office.tell order).1.Checked := by
  unfold tell
  split
  · exact checked
  · rename_i posts
    obtain ⟨-, rfl⟩ := Station.posted posts
    refine ⟨checked.asked, checked.holding, fun outbound member => ?_, checked.waiting⟩
    rcases List.mem_append.mp member with before | own
    · exact checked.posted outbound before
    · cases List.mem_singleton.mp own
      contradiction

theorem Checked.works (checked : office.Checked) (now : Time) {op : Link.Op}
    (brings : ∀ outbound, op ≠ .enqueue outbound ∧ op ≠ .accept outbound) : (office.work now op).1.Checked := by
  unfold work
  split
  · refine ⟨checked.asked, checked.holding, checked.posted, Link.onlyStep checked.waiting now ?_⟩
    rintro outbound (⟨same, -⟩ | same)
    · exact absurd same (brings outbound).1
    · exact absurd same (brings outbound).2
  · exact checked

theorem Checked.takes (checked : office.Checked) : office.take.1.Checked := by
  unfold take
  split
  · rename_i order rest _ waits
    have posted := checked.posted
    rw [waits] at posted
    refine ⟨checked.asked, checked.holding, fun outbound member => posted outbound (List.mem_cons_of_mem _ member), ?_⟩
    cases order with
    | accept outbound => exact Outbox.onlyAccept checked.waiting (posted outbound List.mem_cons_self)
    | wake node => exact Outbox.onlyWake checked.waiting node
    | sleep => exact ⟨checked.waiting.ready, checked.waiting.held⟩
    | report => exact checked.waiting
  · exact checked

theorem Checked.asks (checked : office.Checked) (outbound : Outbound) : (office.ask outbound).1.Checked := by
  unfold ask
  split
  · exact checked
  · rename_i valid
    exact ⟨List.forall_mem_cons.mpr ⟨valid, checked.asked⟩, checked.holding, checked.posted, checked.waiting⟩

theorem Checked.reserves (checked : office.Checked) (outbound : Outbound) : (office.reserve outbound).1.Checked := by
  have others : ∀ other ∈ office.asked.erase outbound, other.message.validate = .ok () := fun other member =>
    checked.asked other (List.mem_of_mem_erase member)
  unfold reserve
  split
  · rename_i asked
    split
    · exact ⟨others, checked.holding, checked.posted, checked.waiting⟩
    · rename_i reserves
      obtain ⟨-, rfl⟩ := Station.reserved reserves
      exact ⟨others, List.forall_mem_cons.mpr ⟨checked.asked outbound asked, checked.holding⟩, checked.posted,
        ⟨checked.waiting.ready, checked.waiting.held⟩⟩
  · exact checked

theorem Checked.posts (checked : office.Checked) (outbound : Outbound) : (office.post outbound).1.Checked := by
  have others : ∀ other ∈ office.holding.erase outbound, other.message.validate = .ok () := fun other member =>
    checked.holding other (List.mem_of_mem_erase member)
  unfold post
  split
  · rename_i holding
    split
    · exact ⟨checked.asked, others, checked.posted, checked.waiting⟩
    · rename_i posts
      obtain ⟨-, rfl⟩ := Station.posted posts
      refine ⟨checked.asked, others, fun other member => ?_, checked.waiting⟩
      rcases List.mem_append.mp member with before | own
      · exact checked.posted other before
      · cases List.mem_singleton.mp own
        exact checked.holding outbound holding
  · exact checked

theorem Checked.step (checked : office.Checked) (op : Op) : (office.step op).1.Checked := by
  cases op with
  | ask outbound => exact checked.asks outbound
  | reserve outbound => exact checked.reserves outbound
  | post outbound => exact checked.posts outbound
  | giveBack outbound =>
    simp only [Office.step, giveBack]
    split
    · exact ⟨checked.asked, checked.holding, checked.posted, ⟨checked.waiting.ready, checked.waiting.held⟩⟩
    · exact checked
  | wake | sleep | report => exact checked.tells rfl
  | take => exact checked.takes
  | inbound item now => exact checked.works now (by simp)
  | expire now => exact checked.works now (by simp)
  | transmit now => exact checked.works now (by simp)
  | abort =>
    have cleared : (office.station.link.step 0 .abort).1.outbox.Only (·.validate = .ok ()) :=
      Link.onlyStep checked.waiting 0 (by simp)
    simp only [Office.step, abort]
    split
    · exact ⟨checked.asked, checked.holding, checked.posted, cleared⟩
    · exact checked
  | close why =>
    simp only [Office.step, close]
    split
    · exact ⟨checked.asked, checked.holding, by simp, checked.waiting⟩
    · exact checked

theorem putOutLaunches (checked : office.Checked) (sound : office.station.link.Sound) (op : Op) :
    Launches (·.validate = .ok ()) (office.putOut op) := by
  have works (now : Time) (op : Link.Op) :
      Launches (·.validate = .ok ()) (if office.attends then (office.station.link.step now op).2 else []) := by
    split
    · exact Link.stepLaunches Link.stampedAdmitted sound checked.waiting now op
    · exact .nothing
  cases op with
  | inbound item now => exact works now (.inbound item)
  | expire now => exact works now .expire
  | transmit now => exact works now .transmit
  | abort => exact works 0 .abort
  | _ => exact .nothing

theorem outputsLaunches (checked : office.Checked) (sound : office.station.link.Sound) (history : List Op) :
    Launches (·.validate = .ok ()) (office.outputs history) ∧ (office.run history).1.Checked := by
  induction history generalizing office with
  | nil => exact ⟨.nothing, checked⟩
  | cons op rest ih =>
    obtain ⟨later, last⟩ := ih (checked.step op) ((stepPath sound op).sound sound)
    exact ⟨(putOutLaunches checked sound op).append later, last⟩

end Office

namespace Link
open Transcript

/- What is admitted can be sent: the check tells whether a message can be encoded, and why not, whatever callback id it gets.
So of what was checked nothing is refused, in a link whose callers hand over nothing else, and in the link of a station
whoever calls it. Where messages were not checked, those that cannot be encoded are refused on the way to the next that
can, and are never written. -/
theorem admittedIsSent :
    (∀ message : Message,
      (message.validate = .ok () ↔ ∃ bytes, message.encode = .ok bytes) ∧
        (∀ fault, message.validate = .error fault ↔ message.encode = .error fault) ∧
        ∀ id, (message.withCallbackId id).validate = message.validate) ∧
    (∀ (timing : Timing) (slots : Slots) (history : List (Time × Op)),
      (∀ now outbound, (now, .accept outbound) ∈ history → outbound.message.validate = .ok ()) →
        let (link, calls) := (fresh timing slots).run history
        link.Unrefused calls.flatten) ∧
    (∀ (timing : Timing) (queueCapacity writerCapacity : Nat) (port : Port) (history : List Office.Op),
      let office := Office.opened timing queueCapacity writerCapacity port
      (office.run history).1.station.link.Unrefused (office.outputs history)) ∧
    ∀ (timing : Timing) (slots : Slots) (history : List (Time × Op)),
      let (link, calls) := (fresh timing slots).run history
      Decided calls.flatten ∧ ∀ now, link.Transmits (link.transmit now).2 (link.transmit now).1 := by
  refine ⟨fun message => ⟨message.validEncodes, message.invalidFails, message.stampedChecked⟩, ?_, ?_, ?_⟩
  · intro timing slots history accepted
    have sound := freshSound timing slots
    have orderly := (runPath sound history).orderly sound
    obtain ⟨launches, waiting⟩ := runLaunches stampedAdmitted sound ⟨nofun, nofun⟩ (fun _ _ _ valid => valid) accepted
    exact admittedUnrefused (runSound sound history) waiting launches orderly
  · intro timing queueCapacity writerCapacity port history office
    have sound : office.station.link.Sound := freshSound timing ⟨queueCapacity, 0⟩
    have path := Office.outputsPath sound history
    have checked := Office.openedChecked timing queueCapacity writerCapacity port
    obtain ⟨launches, last⟩ := Office.outputsLaunches checked sound history
    exact admittedUnrefused (path.sound sound) last.waiting launches (path.orderly sound)
  · intro timing slots history
    have sound := freshSound timing slots
    have orderly := (runPath sound history).orderly sound
    have anything : ∀ (message : Message) (id : UInt8), True → True := fun _ _ => id
    obtain ⟨launches, -⟩ := runLaunches (P := fun _ => True) anything sound ⟨fun _ _ => trivial, fun _ _ => trivial⟩
      (fun _ _ _ _ => trivial) fun _ _ _ => trivial
    exact ⟨launches.decided orderly, transmits (runSound sound history)⟩

theorem twoAdmittedSent :
    let history : List (Time × Op) := [(0, .enqueue ⟨.sendData 3 [0x20, 0x02] TxOptions.usual 77, true⟩),
      (0, .accept ⟨.setDefault 9, true⟩), (0, .transmit)]
    let (link, calls) := (fresh {} {}).run history
    (∀ now outbound, (now, .accept outbound) ∈ history → outbound.message.validate = .ok ()) ∧
      .event (.started 1 (some 3)) ∈ calls.flatten ∧ link.Unrefused calls.flatten := by
  intro history
  have accepted : ∀ now outbound, (now, .accept outbound) ∈ history → outbound.message.validate = .ok () := by
    intro now outbound member
    obtain ⟨-, rfl⟩ : now = 0 ∧ outbound = ⟨.setDefault 9, true⟩ := by simpa [history] using member
    rfl
  have starts : .event (.started 1 (some 3)) ∈ ((fresh {} {}).run history).2.flatten := by decide +kernel +zetaReduce
  exact ⟨accepted, starts, admittedIsSent.2.1 {} {} history accepted⟩

end Link

end ZWaveHost

import ZWaveHost.Host
import ZWaveHost.Proofs.Session.Conduct
import ZWaveHost.Proofs.Station.Startup

/-! How a host starts. Its network hands over the opening before anything else happens, so what holds of a station that is
opened this way holds of the host. -/
namespace ZWaveHost

open Transcript

namespace Session

variable {α : Type}

theorem callStation (session : Session α) (call : LinkCall) :
    (session.call call).station = (session.station.call call).toOption.getD session.station := by
  simp only [Session.call, call?, bind, Except.bind, pure, Except.pure]
  cases session.station.call call with
  | error fault => rfl
  | ok station => exact wakeIfStation _ _ _

theorem handsOver {office : Office} {session : Session α} (shows_ : office.Shows session.station) (idle : office.Idle)
    (plan : List Outbound) :
    let calls := plan.map fun outbound => LinkCall.send outbound.message outbound.listening
    let after := (office.run (plan.flatMap Office.stepsOf)).1
    after.Shows (calls.foldl call session).station ∧ after.Idle := by
  induction plan generalizing office session with
  | nil => exact ⟨shows_, idle⟩
  | cons outbound rest ih =>
    obtain ⟨showsNext, idleNext⟩ := shows_.whole idle outbound.message outbound.listening
    rw [← callStation] at showsNext
    have later := ih showsNext idleNext
    simpa only [List.flatMap_cons, Office.runAppend, List.map_cons, List.foldl_cons] using later

end Session

namespace Host

theorem opensOffice (settings : Settings) (home : Household) (port : Port) {session : Session Residence}
    (happened : Relation.ReflTransGen Session.Moves (start settings home port).session session) :
    ∃ later, session.station.link =
      ((Office.opened settings.timing settings.queueCapacity.toNat settings.writerCapacity.toNat port).run
        (Office.opening.flatMap Office.stepsOf ++ later)).1.station.link := by
  let fresh : Session Residence := Session.fresh settings port { home }
  obtain ⟨shows_, idle⟩ :=
    Office.openedShows settings.timing settings.queueCapacity.toNat settings.writerCapacity.toNat port
  let answer := fresh.audience.take fresh.now .connected
  have opened := @Session.handsOver _ _ { fresh with audience := answer.1 } shows_ idle Office.opening
  have settled := Session.settles (answer.2.foldl Session.call { fresh with audience := answer.1 })
  have leads : (start settings home port).session.station.Leads session.station :=
    happened.lift' Session.station fun _ _ moves => moves.leads
  obtain ⟨later, last, -⟩ := opened.1.leads opened.2 (settled.trans leads)
  refine ⟨later, ?_⟩
  rw [Office.runAppend]
  exact last.alike.1.symm

theorem opensInOrder (settings : Settings) (home : Household) (port : Port) (room : 3 ≤ settings.queueCapacity.toNat)
    {session : Session Residence}
    (happened : Relation.ReflTransGen Session.Moves (start settings home port).session session) {exchange : Exchange}
    (active : session.station.link.active = some exchange) {index : Nat} (number : exchange.id = index + 1)
    {outbound : Outbound} (due : Office.opening[index]? = some outbound) : exchange.request = outbound.message := by
  obtain ⟨later, link⟩ := opensOffice settings home port happened
  rw [link] at active
  exact Office.openingInFlight settings.timing room _ port (Office.openingCalls later) active number due

/-- A host that was started asks for the version first, then for the ids, then for the nodes, whatever the controller and
later callers do, and however their steps come between the first calls: these requests belong to the exchanges 1, 2 and 3,
and until the third has ended, nothing else is written but answers to frames. -/
theorem asksInOrder (settings : Settings) (home : Household) (port : Port) (room : 3 ≤ settings.queueCapacity.toNat) :
    (∀ network lookup, Effect.linkCalls (Network.step network lookup .connected).2 =
      Office.opening.map fun outbound => .send outbound.message outbound.listening) ∧
    (∀ history : List Office.Op,
      Agrees (Office.opening.flatMap Office.stepsOf) (history.filter Office.Op.byCaller) →
      Office.Opens ((Office.opened settings.timing settings.queueCapacity.toNat settings.writerCapacity.toNat
        port).outputs history)) ∧
    ∀ session, Relation.ReflTransGen Session.Moves (start settings home port).session session →
      ∀ exchange index outbound, session.station.link.active = some exchange → exchange.id = index + 1 →
        Office.opening[index]? = some outbound → exchange.request = outbound.message :=
  ⟨Office.openingAsked, fun history calls => Office.openingFirst settings.timing room _ port history calls,
    fun _ happened _ _ _ active number due => opensInOrder settings home port room happened active number due⟩

def beginning : List Office.Op :=
  Office.opening.flatMap Office.stepsOf ++
    [.take, .transmit 0, .ask ⟨.send 2 [0x20, 0x02], true⟩, .take, .take, .inbound .ack 1]

theorem versionFirst :
    let outputs := (Office.opened ({} : Settings).timing 256 64 .sound).outputs beginning
    startsOf outputs = [1] ∧ ∀ bytes ∈ writesOf 1 outputs, Message.versionRequest.encode = .ok bytes := by
  have opens := (asksInOrder {} {} .sound (by decide)).2.1 beginning (.inr ⟨_, rfl⟩)
  exact ⟨by decide +kernel, (opens.carries 0 _ rfl).1⟩

end Host

end ZWaveHost

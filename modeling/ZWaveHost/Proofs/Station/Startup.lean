import ZWaveHost.Network
import ZWaveHost.Proofs.Link.Planned
import ZWaveHost.Proofs.Station.Leftover
import ZWaveHost.Proofs.Station.Stepwise

/-! How a station starts. Whoever starts it hands over a few requests before anybody else can call. Whatever happens
meanwhile, to the station or to these calls, the link begins these requests first and in this order. -/
namespace ZWaveHost

def Agrees {α : Type} (plan actual : List α) : Prop := actual <+: plan ∨ plan <+: actual

namespace Agrees

variable {α : Type} {plan before later : List α} {entry : α}

theorem earlier (agrees : Agrees plan (before ++ later)) : Agrees plan before := by
  rcases agrees with within | beyond
  · exact .inl ((List.prefix_append before later).trans within)
  · rcases List.prefix_or_prefix_of_prefix beyond (List.prefix_append before later) with all | part
    · exact .inr all
    · exact .inl part

theorem next (agrees : Agrees plan (before ++ [entry])) (more : before.length < plan.length) :
    plan[before.length]? = some entry := by
  have within : before ++ [entry] <+: plan := by
    rcases agrees with within | beyond
    · exact within
    · have same := beyond.eq_of_length_le (by simp; omega)
      exact same ▸ List.prefix_refl _
  obtain ⟨rest, rfl⟩ := within
  simp

end Agrees

namespace Office

def Op.byCaller : Op → Bool
  | ask _ | reserve _ | post _ | giveBack _ | wake _ | sleep _ | report => true
  | _ => false

def putOut (office : Office) : Op → List Output
  | .inbound item now => if office.attends then (office.station.link.inbound item now).2 else []
  | .expire now => if office.attends then (office.station.link.expire now).2 else []
  | .transmit now => if office.attends then (office.station.link.transmit now).2 else []
  | .abort => if office.attends then office.station.link.abort.2 else []
  | _ => []

def outputs (office : Office) : List Op → List Output
  | [] => []
  | op :: rest => office.putOut op ++ (office.step op).1.outputs rest

section Steps

variable {office : Office} {op : Op}

theorem tellStays (office : Office) {order : Order} :
    (office.tell order).1.station.link = office.station.link ∧ (office.tell order).1.attends = office.attends ∧
      taken (office.tell order).2 = [] := by
  unfold tell
  split
  · exact ⟨rfl, rfl, rfl⟩
  · rename_i posts
    obtain ⟨_, rfl⟩ := Station.posted posts
    exact ⟨rfl, rfl, rfl⟩

theorem callerStays (caller : op.byCaller = true) :
    (∃ slots, (office.step op).1.station.link = { office.station.link with outbox.slots := slots }) ∧
      (office.step op).1.attends = office.attends ∧ taken (office.step op).2 = [] ∧ office.putOut op = [] := by
  cases op with
  | ask outbound =>
    simp only [step, ask]
    split <;> exact ⟨⟨_, rfl⟩, rfl, rfl, rfl⟩
  | reserve outbound =>
    simp only [step, reserve]
    split
    · split
      · exact ⟨⟨_, rfl⟩, rfl, rfl, rfl⟩
      · rename_i reserves
        obtain ⟨_, rfl⟩ := Station.reserved reserves
        exact ⟨⟨_, rfl⟩, rfl, rfl, rfl⟩
    · exact ⟨⟨_, rfl⟩, rfl, rfl, rfl⟩
  | post outbound =>
    simp only [step, post]
    split
    · split
      · exact ⟨⟨_, rfl⟩, rfl, rfl, rfl⟩
      · rename_i posts
        obtain ⟨_, rfl⟩ := Station.posted posts
        exact ⟨⟨_, rfl⟩, rfl, rfl, rfl⟩
    · exact ⟨⟨_, rfl⟩, rfl, rfl, rfl⟩
  | giveBack outbound =>
    simp only [step, giveBack]
    split <;> exact ⟨⟨_, rfl⟩, rfl, rfl, rfl⟩
  | wake | sleep | report =>
    obtain ⟨link, attends, none⟩ := tellStays office
    exact ⟨⟨_, link⟩, attends, none, rfl⟩
  | take | inbound | expire | transmit | abort | close => contradiction

theorem ownStays (own : op.byCaller = false) :
    (office.step op).1.asked = office.asked ∧ (office.step op).1.holding = office.holding ∧
      (office.step op).1.refused = office.refused ∧ posted (office.step op).2 = [] ∧
      ((office.step op).1.station.isRunning = true → office.station.isRunning = true) := by
  cases op with
  | take | inbound | expire | transmit | abort =>
    simp only [step, take, work, abort]
    split <;> exact ⟨rfl, rfl, rfl, rfl, id⟩
  | close why =>
    simp only [step, close]
    split
    · rename_i both
      exact ⟨rfl, rfl, rfl, rfl, fun _ => both.1⟩
    · exact ⟨rfl, rfl, rfl, rfl, id⟩
  | ask | reserve | post | giveBack | wake | sleep | report => contradiction

end Steps

structure Sent (done : List Outbound) (orders : List Order) (office : Office) : Prop where
  behind : orders <+: done.map .accept
  all : office.station.isRunning = true → orders = done.map .accept

inductive Stage (plan : List Outbound) (office : Office) (orders : List Order) (left : List Op) : Prop
  | between {done rest} (split : plan = done ++ rest) (sent : Sent done orders office) (idle : office.Idle)
      (steps : left = rest.flatMap stepsOf)
  | checked {done next rest} (split : plan = done ++ next :: rest) (sent : Sent done orders office)
      (asked : office.asked = [next]) (holding : office.holding = []) (refused : office.refused = [])
      (steps : left = .reserve next :: .post next :: .giveBack next :: rest.flatMap stepsOf)
  | reserved {done next rest} (split : plan = done ++ next :: rest) (sent : Sent done orders office)
      (asked : office.asked = []) (holding : office.holding = [next]) (refused : office.refused = [])
      (steps : left = .post next :: .giveBack next :: rest.flatMap stepsOf)
  | handedOver {done next rest} (split : plan = done ++ next :: rest) (sent : Sent (done ++ [next]) orders office)
      (asked : office.asked = []) (holding : office.holding = []) (refused : office.refused = [] ∨ office.refused = [next])
      (steps : left = .giveBack next :: rest.flatMap stepsOf)

variable {plan : List Outbound} {office after : Office} {orders : List Order} {op : Op} {left : List Op}

theorem Sent.own {done : List Outbound} (sent : Sent done orders office)
    (final : after.station.isRunning = true → office.station.isRunning = true) : Sent done orders after :=
  ⟨sent.behind, fun running => sent.all (final running)⟩

theorem Stage.own (stage : Stage plan office orders left) (own : op.byCaller = false) :
    Stage plan (office.step op).1 orders left := by
  obtain ⟨asked, holding, refused, -, final⟩ := ownStays own
  cases stage with
  | between split sent idle steps =>
    have idle := Idle.mk (asked.trans idle.asked) (holding.trans idle.holding) (refused.trans idle.refused)
    exact .between split (sent.own final) idle steps
  | checked split sent ask hold refuse steps =>
    exact .checked split (sent.own final) (asked.trans ask) (holding.trans hold) (refused.trans refuse) steps
  | reserved split sent ask hold refuse steps =>
    exact .reserved split (sent.own final) (asked.trans ask) (holding.trans hold) (refused.trans refuse) steps
  | handedOver split sent ask hold refuse steps =>
    exact .handedOver split (sent.own final) (asked.trans ask) (holding.trans hold) (refused ▸ refuse) steps

theorem pendingPosted {capacity : Nat} {notes : List Note} (balanced : Balanced capacity office)
    (inOrder : InOrder office notes) (holding : office.holding = []) (refused : office.refused = []) :
    office.station.pending ≤ (posted notes).length := by
  have waits := inOrder.received.size
  have requests : (requestsOf (posted notes)).length ≤ (posted notes).length := List.length_filterMap_le _ _
  have shares := balanced.shares
  rw [inOrder.queue] at requests ⊢
  simp only [requestsAppend, List.length_append] at requests ⊢
  rw [holding, refused] at shares
  have none : ([] : List Outbound).length = 0 := rfl
  omega

theorem Stage.takes {capacity : Nat} {notes : List Note} (stage : Stage plan office (posted notes) (op :: left))
    (balanced : Balanced capacity office) (inOrder : InOrder office notes) (room : plan.length ≤ capacity)
    (valid : ∀ outbound ∈ plan, outbound.message.validate = .ok ()) :
    Stage plan (office.step op).1 (posted (notes ++ (office.step op).2)) left := by
  have grows (more : List Note) : posted (notes ++ more) = posted notes ++ posted more := List.filterMap_append
  cases stage with
  | @between done rest split sent idle steps =>
    cases rest with
    | nil => simp at steps
    | cons next rest =>
      obtain ⟨rfl, rfl⟩ := List.cons.inj steps
      have checked := valid next (by simp [split])
      simp only [step, ask, checked, List.append_nil]
      exact .checked split ⟨sent.behind, sent.all⟩ (by simp [idle.asked]) idle.holding idle.refused rfl
  | @checked done next rest split sent asked holding refused steps =>
    obtain ⟨rfl, rfl⟩ := List.cons.inj steps
    have few : (posted notes).length ≤ done.length := by simpa using sent.behind.length_le
    have short : done.length < plan.length := by simp [split]
    cases reserves : office.station.reserve with
    | error fault =>
      have full := (Station.unreserved reserves).1
      have taken := pendingPosted balanced inOrder holding refused
      rw [balanced.limit] at full
      omega
    | ok station =>
      obtain ⟨_, rfl⟩ := Station.reserved reserves
      simp only [step, reserve, asked, List.mem_singleton, if_true, reserves, List.append_nil]
      exact .reserved split ⟨sent.behind, sent.all⟩ (by simp) (by simp [holding]) refused rfl
  | @reserved done next rest split sent asked holding refused steps =>
    obtain ⟨rfl, rfl⟩ := List.cons.inj steps
    cases posts : office.station.post (.accept next) with
    | error fault =>
      have ended := (Station.unposted posts).1
      simp only [step, post, holding, List.mem_singleton, if_true, posts, List.append_nil]
      have behind : posted notes <+: (done ++ [next]).map .accept := sent.behind.trans (by simp)
      exact .handedOver split ⟨behind, by simp [ended]⟩ asked (by simp) (.inr (by simp [refused])) rfl
    | ok station =>
      obtain ⟨running, rfl⟩ := Station.posted posts
      simp only [step, post, holding, List.mem_singleton, if_true, posts, grows]
      have all : posted notes ++ [.accept next] = (done ++ [next]).map .accept := by simp [sent.all running]
      exact .handedOver split ⟨all ▸ List.prefix_refl _, fun _ => all⟩ asked (by simp) (.inl refused) rfl
  | @handedOver done next rest split sent asked holding refused steps =>
    obtain ⟨rfl, rfl⟩ := List.cons.inj steps
    have split : plan = (done ++ [next]) ++ rest := by simp [split]
    rcases refused with none | one
    · simp only [step, giveBack, none, List.not_mem_nil, if_false, List.append_nil]
      exact .between split sent ⟨asked, holding, none⟩ rfl
    · have silent : posted [.returned next (some .connectionClosed)] = [] := rfl
      simp only [step, giveBack, one, List.mem_singleton, if_true, grows, silent, List.append_nil]
      exact .between split ⟨sent.behind, sent.all⟩ ⟨asked, holding, by simp⟩ rfl

def Launched (plan : List Outbound) (orders : List Order) (office : Office) : Prop :=
  plan.map .accept <+: orders ∨ orders <+: plan.map .accept ∧ office.station.isRunning = false

theorem Stage.launched (stage : Stage plan office orders []) : Launched plan orders office := by
  cases stage with
  | @between done rest split sent idle steps =>
    cases rest with
    | cons next rest => simp [stepsOf] at steps
    | nil =>
      rw [List.append_nil] at split
      subst split
      cases running : office.station.isRunning with
      | true => exact .inl (sent.all running ▸ List.prefix_refl _)
      | false => exact .inr ⟨sent.behind, running⟩
  | checked _ _ _ _ _ steps | reserved _ _ _ _ _ steps | handedOver _ _ _ _ _ steps => contradiction

theorem Stage.posted (stage : Stage plan office orders left) : orders <+: plan.map .accept := by
  have part {done rest : List Outbound} (split : plan = done ++ rest) (sent : Sent done orders office) :
      orders <+: plan.map .accept := by
    rw [split, List.map_append]
    exact sent.behind.trans (List.prefix_append _ _)
  cases stage with
  | between split sent | checked split sent | reserved split sent => exact part split sent
  | @handedOver done next rest split sent =>
    have split : plan = (done ++ [next]) ++ rest := by simp [split]
    exact part split sent

theorem Launched.deed {more : List Note} (launched : Launched plan orders office) (deed : Deed office more after) :
    Launched plan (orders ++ Office.posted more) after := by
  rcases launched with all | ⟨part, ended⟩
  · exact .inl (all.trans (List.prefix_append _ _))
  · have none : Office.posted more = [] := by
      cases deed with
      | aside failures => exact (refusalsSilent failures).1
      | handedOver _ posts | told _ posts => simp [(Station.posted posts).1] at ended
      | _ => rfl
    rw [none, List.append_nil]
    exact .inr ⟨part, (deed.final ended).1⟩

theorem runLaunched {notes : List Note} (launched : Launched plan (posted notes) office) (history : List Op) :
    Launched plan (posted (notes ++ (office.run history).2)) (office.run history).1 := by
  induction history generalizing office notes with
  | nil => simpa [run] using launched
  | cons op rest ih =>
    have grows : posted (notes ++ (office.step op).2) = posted notes ++ posted (office.step op).2 :=
      List.filterMap_append
    have next := ih (grows ▸ launched.deed (stepDeed office op))
    simpa only [run, List.append_assoc] using next

theorem runPosted {capacity : Nat} {notes : List Note} (stage : Stage plan office (posted notes) left)
    (balanced : Balanced capacity office) (inOrder : InOrder office notes) (room : plan.length ≤ capacity)
    (valid : ∀ outbound ∈ plan, outbound.message.validate = .ok ()) (history : List Op)
    (calls : Agrees left (history.filter Op.byCaller)) :
    Agrees (plan.map .accept) (posted (notes ++ (office.run history).2)) := by
  induction history generalizing office notes left with
  | nil => exact .inl (by simpa [run] using stage.posted)
  | cons op rest ih =>
    have deed := stepDeed office op
    have balancedNext := balanced.deed deed
    have inOrderNext := inOrder.deed balanced deed
    simp only [run, ← List.append_assoc]
    cases caller : op.byCaller with
    | false =>
      have same : posted (notes ++ (office.step op).2) = posted notes := by
        simp [posted, show (office.step op).2.filterMap Note.posted? = [] from (ownStays caller).2.2.2.1]
      rw [List.filter_cons_of_neg (by simp [caller])] at calls
      exact ih (same ▸ stage.own caller) balancedNext inOrderNext calls
    | true =>
      rw [List.filter_cons_of_pos caller] at calls
      cases left with
      | nil =>
        have launched := runLaunched stage.launched (op :: rest)
        simp only [run, ← List.append_assoc] at launched
        exact launched.elim .inr fun ended => .inl ended.1
      | cons next left =>
        obtain ⟨rfl, further⟩ : next = op ∧ Agrees left (rest.filter Op.byCaller) := by
          rcases calls with within | beyond
          · obtain ⟨same, within⟩ := List.cons_prefix_cons.mp within
            exact ⟨same.symm, .inl within⟩
          · obtain ⟨same, beyond⟩ := List.cons_prefix_cons.mp beyond
            exact ⟨same, .inr beyond⟩
        exact ih (stage.takes balanced inOrder room valid) balancedNext inOrderNext further

open Transcript

theorem workPath (sound : office.station.link.Sound) (now : Time) (op : Link.Op) :
    Link.Path office.station.link (if office.attends then (office.station.link.step now op).2 else [])
      (office.work now op).1.station.link := by
  unfold work
  split
  · exact Link.stepPath sound now op
  · exact .stay _

theorem stepPath (sound : office.station.link.Sound) (op : Op) :
    Link.Path office.station.link (office.putOut op) (office.step op).1.station.link := by
  have queued (outbox : Outbox) : Link.Path office.station.link [] { office.station.link with outbox } :=
    .one 0 (.aside office.station.link rfl (by simp))
  cases caller : op.byCaller with
  | true =>
    obtain ⟨⟨slots, link⟩, -, -, none⟩ := callerStays caller
    rw [none, link]
    exact queued _
  | false =>
    cases op with
    | take =>
      simp only [step, take, putOut]
      split
      · rename_i order _ _ _
        cases order with
        | accept | wake | sleep => exact queued _
        | report => exact .stay _
      · exact .stay _
    | inbound item now => exact workPath sound now (.inbound item)
    | expire now => exact workPath sound now .expire
    | transmit now => exact workPath sound now .transmit
    | abort =>
      simp only [step, abort, putOut]
      split
      · exact Link.stepPath sound 0 .abort
      · exact .stay _
    | close why =>
      simp only [step, close, putOut]
      split <;> exact .stay _
    | ask | reserve | post | giveBack | wake | sleep | report => contradiction

theorem outputsPath {office : Office} (sound : office.station.link.Sound) (history : List Op) :
    Link.Path office.station.link (office.outputs history) (office.run history).1.station.link := by
  induction history generalizing office with
  | nil => exact .stay _
  | cons op rest ih =>
    have first := stepPath sound op
    exact first.append (ih (first.sound sound))

theorem lineTaken {link : Link} {order : Order}
    (lined : Lined (plan.map Outbound.message) orders.length link.standing.started link.outbox)
    (listens : ∀ outbound ∈ plan, outbound.listening = true) (agrees : Agrees (plan.map .accept) (orders ++ [order])) :
    Lined (plan.map Outbound.message) (orders.length + 1) (Station.carryOut link order).standing.started
      (Station.carryOut link order).outbox := by
  by_cases more : orders.length < plan.length
  · obtain ⟨outbound, due, same⟩ : ∃ outbound, plan[orders.length]? = some outbound ∧ .accept outbound = order := by
      simpa using agrees.next (by simpa using more)
    cases same
    exact lined.arrives (by simp [due]) (listens outbound (List.mem_of_getElem? due))
  · have complete : (plan.map Outbound.message).length ≤ orders.length := by
      simp
      omega
    cases order with
    | accept outbound =>
      refine lined.later complete ?_
      simp only [Station.carryOut, Link.accept, Outbox.accept]
      split
      · split
        · exact ⟨_, rfl⟩
        · exact ⟨[], (List.append_nil _).symm⟩
      · exact ⟨_, rfl⟩
    | wake node => exact lined.later complete ⟨_, rfl⟩
    | sleep node => exact lined.later complete ⟨[], (List.append_nil _).symm⟩
    | report => exact lined.later complete ⟨[], (List.append_nil _).symm⟩

theorem pathUnstarted {link : Link} {outputs : List Output} (sound : office.station.link.Sound)
    (path : Link.Path office.station.link outputs link) (same : link.nextId = office.station.link.nextId) :
    Carries (plan.map Outbound.message) outputs link.standing := by
  refine .unplanned (path.orderly sound) fun index from_ to_ => absurd to_ ?_
  simp only [Link.standing, same] at from_ ⊢
  omega

/- A turn that begins no exchange and leaves the queue alone. -/
theorem workPlanned (now : Time) (turn : Link.Op) (sound : office.station.link.Sound)
    (lined : office.attends = true → Lined (plan.map Outbound.message) orders.length
      office.station.link.standing.started office.station.link.outbox)
    (same : (office.station.link.step now turn).1.nextId = office.station.link.nextId)
    (outbox : (office.station.link.step now turn).1.outbox = office.station.link.outbox) :
    Carries (plan.map Outbound.message) (if office.attends then (office.station.link.step now turn).2 else [])
        (office.work now turn).1.station.link.standing ∧
      ((office.work now turn).1.attends = true →
        Lined (plan.map Outbound.message) (orders ++ taken (office.work now turn).2).length
          (office.work now turn).1.station.link.standing.started (office.work now turn).1.station.link.outbox) := by
  have path := workPath sound now turn
  unfold work at path ⊢
  split
  · rename_i works
    rw [if_pos works, if_pos works] at path
    refine ⟨pathUnstarted sound path same, fun _ => ?_⟩
    simpa [taken, Link.standing, same, outbox] using lined works
  · exact ⟨.nothing, by simpa [taken] using lined⟩

section Planned

variable (listens : ∀ outbound ∈ plan, outbound.listening = true)
  (plain : ∀ outbound ∈ plan, Link.Plain outbound.message)

include listens plain

theorem stepPlanned (sound : office.station.link.Sound)
    (lined : office.attends = true → Lined (plan.map Outbound.message) orders.length
      office.station.link.standing.started office.station.link.outbox)
    (agrees : Agrees (plan.map .accept) (orders ++ taken (office.step op).2)) :
    Carries (plan.map Outbound.message) (office.putOut op) (office.step op).1.station.link.standing ∧
      ((office.step op).1.attends = true → Lined (plan.map Outbound.message) (orders ++ taken (office.step op).2).length
        (office.step op).1.station.link.standing.started (office.step op).1.station.link.outbox) := by
  cases caller : op.byCaller with
  | true =>
    obtain ⟨⟨slots, link⟩, attends, noneTaken, nonePut⟩ := callerStays caller
    rw [nonePut, noneTaken, List.append_nil, link, attends]
    exact ⟨.nothing, fun working => ⟨(lined working).ready, (lined working).unheld, (lined working).bounded⟩⟩
  | false =>
    have path := stepPath sound op
    cases op with
    | take =>
      simp only [step, take, putOut] at agrees ⊢
      split
      · rename_i order rest works waits
        simp only [works, waits] at agrees
        have one : (orders ++ taken [.taken order]).length = orders.length + 1 := List.length_append
        exact ⟨.nothing, fun _ => one ▸ lineTaken (lined works) listens agrees⟩
      · exact ⟨.nothing, by simpa [taken] using lined⟩
    | inbound item now =>
      exact workPlanned now (.inbound item) sound lined (Link.inboundStarted _ item now) (Link.inboundOutbox _ item now)
    | expire now => exact workPlanned now .expire sound lined (Link.expireStarted _ now) (Link.expireOutbox _ now)
    | transmit now =>
      simp only [step, work, putOut]
      split
      · rename_i works
        obtain ⟨carries, lined⟩ := Link.transmitsPlanned sound (lined works) (by simpa using plain) now
        have untaken : (orders ++ taken []).length = orders.length := congrArg List.length (List.append_nil orders)
        exact ⟨carries, fun _ => untaken ▸ lined⟩
      · exact ⟨.nothing, by simpa [taken] using lined⟩
    | abort =>
      simp only [step, abort, putOut] at path ⊢
      split
      · rename_i works
        rw [if_pos works, if_pos works] at path
        exact ⟨pathUnstarted sound path (Link.abortStarted _), by simp [attends]⟩
      · exact ⟨.nothing, by simpa [taken] using lined⟩
    | close why =>
      simp only [step, close, putOut]
      split
      · exact ⟨.nothing, by cases why <;> simp [attends, Station.isRunning]⟩
      · exact ⟨.nothing, by simpa [taken] using lined⟩
    | ask | reserve | post | giveBack | wake | sleep | report => contradiction

/- By induction on the steps: what is taken in the order of the plan is begun in its order. -/
theorem outputsPlanned {office : Office} {orders : List Order} (sound : office.station.link.Sound)
    (lined : office.attends = true → Lined (plan.map Outbound.message) orders.length
      office.station.link.standing.started office.station.link.outbox) (history : List Op)
    (agrees : Agrees (plan.map .accept) (orders ++ taken (office.run history).2)) :
    Carries (plan.map Outbound.message) (office.outputs history) (office.run history).1.station.link.standing := by
  induction history generalizing office orders with
  | nil => exact .nothing
  | cons op rest ih =>
    have path := stepPath sound op
    have soundNext := path.sound sound
    have both : taken (office.run (op :: rest)).2 =
        taken (office.step op).2 ++ taken ((office.step op).1.run rest).2 := List.filterMap_append
    rw [both, ← List.append_assoc] at agrees
    obtain ⟨carries, linedNext⟩ := stepPlanned listens plain sound lined agrees.earlier
    have orderly := (outputsPath soundNext rest).orderly soundNext
    exact carries.append orderly (ih soundNext linedNext agrees)

end Planned

def opening : List Outbound := [⟨.versionRequest, true⟩, ⟨.memoryIdRequest, true⟩, ⟨.initDataRequest, true⟩]

theorem openingAsked (network : Network) (lookup : Lookup) :
    Effect.linkCalls (network.step lookup .connected).2 =
      opening.map fun outbound => .send outbound.message outbound.listening := rfl

theorem openingPlain : ∀ outbound ∈ opening, Link.Plain outbound.message := by
  intro outbound member
  simp only [opening, List.mem_cons, List.not_mem_nil, or_false] at member
  rcases member with rfl | rfl | rfl <;> exact ⟨⟨_, rfl⟩, rfl⟩

theorem openingValid : ∀ outbound ∈ opening, outbound.message.validate = .ok () := by
  intro outbound member
  simp only [opening, List.mem_cons, List.not_mem_nil, or_false] at member
  rcases member with rfl | rfl | rfl <;> rfl

theorem openingCalls (later : List Op) :
    Agrees (opening.flatMap stepsOf) ((opening.flatMap stepsOf ++ later).filter Op.byCaller) := by
  have own : (opening.flatMap stepsOf).filter Op.byCaller = opening.flatMap stepsOf := by decide
  rw [List.filter_append, own]
  exact .inr (List.prefix_append _ _)

theorem openingCarried (timing : Timing) {capacity : Nat} (room : 3 ≤ capacity) (writerCapacity : Nat) (port : Port)
    (history : List Op) (calls : Agrees (opening.flatMap stepsOf) (history.filter Op.byCaller)) :
    let office := opened timing capacity writerCapacity port
    Carries (opening.map Outbound.message) (office.outputs history) (office.run history).1.station.link.standing ∧
      Orderly ⟨0, none⟩ (office.outputs history) (office.run history).1.station.link.standing := by
  intro office
  have sound : office.station.link.Sound := Link.freshSound timing ⟨capacity, 0⟩
  have balanced := openedBalanced timing capacity writerCapacity port
  have inOrder := openedInOrder timing capacity writerCapacity port
  have stage : Stage opening office (posted []) (opening.flatMap stepsOf) :=
    @Stage.between _ _ _ _ [] opening rfl ⟨List.nil_prefix, fun _ => rfl⟩ ⟨rfl, rfl, rfl⟩ rfl
  have posts := runPosted stage balanced inOrder room openingValid history calls
  have queue := (runInOrder inOrder balanced history).queue
  rw [queue] at posts
  have lined : Lined (opening.map Outbound.message) ([] : List Order).length office.station.link.standing.started
      office.station.link.outbox := .start _ rfl rfl
  exact ⟨outputsPlanned (by decide) openingPlain sound (fun _ => lined) history posts.earlier,
    (outputsPath sound history).orderly sound⟩

structure Opens (outputs : List Output) : Prop where
  numbered : startsOf outputs = List.range' 1 (startsOf outputs).length
  begins : ∀ before index node later outbound, outputs = before ++ .event (.started (index + 1) node) :: later →
    opening[index]? = some outbound → ∃ bytes rest, outbound.message.encode = .ok bytes ∧ later = .write bytes :: rest
  carries : ∀ index outbound, opening[index]? = some outbound →
    (∀ bytes ∈ writesOf (index + 1) outputs, outbound.message.encode = .ok bytes) ∧
      ∀ event ∈ endingsOf (index + 1) outputs, Ends (index + 1) outbound.message event
  alone : ∀ before later, outputs = before ++ later → endingsOf 3 before = [] → ∀ bytes, .write bytes ∈ before →
    bytes = [Wire.ack] ∨ bytes = [Wire.nak] ∨ ∃ outbound ∈ opening, outbound.message.encode = .ok bytes

theorem openingFirst (timing : Timing) {capacity : Nat} (room : 3 ≤ capacity) (writerCapacity : Nat) (port : Port)
    (history : List Op) (calls : Agrees (opening.flatMap stepsOf) (history.filter Op.byCaller)) :
    Opens ((opened timing capacity writerCapacity port).outputs history) := by
  obtain ⟨carries, orderly⟩ := openingCarried timing room writerCapacity port history calls
  have planned {index : Nat} {outbound : Outbound} (due : opening[index]? = some outbound) :
      (opening.map Outbound.message)[index]? = some outbound.message := by simp [due]
  refine ⟨?_, ?_, fun index outbound due => carries.planned orderly (planned due), ?_⟩
  · rw [orderly.numbered, List.length_range']
  · intro before index node later outbound split due
    obtain ⟨bytes, rest, encoded, same, -⟩ := carries before index node later _ split (planned due)
    exact ⟨bytes, rest, encoded, same⟩
  · intro before later split underway bytes member
    rw [split] at carries orderly
    rcases carries.alone orderly (by decide) underway member with ack | nak | ⟨request, planned, encoded⟩
    · exact .inl ack
    · exact .inr (.inl nak)
    · obtain ⟨outbound, first, rfl⟩ := List.mem_map.mp planned
      exact .inr (.inr ⟨outbound, first, encoded⟩)

theorem openingInFlight (timing : Timing) {capacity : Nat} (room : 3 ≤ capacity) (writerCapacity : Nat) (port : Port)
    {history : List Op} (calls : Agrees (opening.flatMap stepsOf) (history.filter Op.byCaller)) {exchange : Exchange}
    (active : ((opened timing capacity writerCapacity port).run history).1.station.link.active = some exchange)
    {index : Nat} (number : exchange.id = index + 1) {outbound : Outbound} (due : opening[index]? = some outbound) :
    exchange.request = outbound.message := by
  obtain ⟨carries, orderly⟩ := openingCarried timing room writerCapacity port history calls
  have fresh : (opened timing capacity writerCapacity port).station.link.Sound := Link.freshSound timing ⟨capacity, 0⟩
  have flight := ((outputsPath fresh history).sound fresh).flight active
  have planned : (opening.map Outbound.message)[index]? = some outbound.message := by simp [due]
  have carried := carries.inFlight orderly (flight.trans (congrArg some number)) planned
  simp only [Link.standing, active, Option.map_some] at carried
  exact Option.some.inj carried

end Office

end ZWaveHost
